import VlfProto.Link.ServerPhase

/-! # What a failed open leaves at the gateway -/

namespace VlfProto.Link
open Platform Transition Client Session Option List

namespace TCPLink

variable {l l' : TCPLink} {label : TCPLinkStep} {labels : List TCPLinkStep} {f : ℕ} {maxFlows : ℤ}

/-- A call times out only while the session does not have its flow, and the session files no
flow whose call has given up. -/
def GivesUpUnfiled (l : TCPLink) : TCPLinkStep → Prop
  | .client (.timeout flowID) _ _ _ => l.server.tcpFlows.lookup flowID = none
  | .server label => ∀ flowID ∈ l.server.files label, l.client.shutdown = .idle →
    OpenPhase.givenUp (l.client.calls flowID).pc = false
  | _ => True

instance (l : TCPLink) (label : TCPLinkStep) : Decidable (l.GivesUpUnfiled label) := by
  unfold GivesUpUnfiled
  split <;> infer_instance

/-- Both sides agree on how far the request for flow `f` has got. -/
def Agrees (l : TCPLink) (f : ℕ) : Prop :=
  ∃ phase : OpenPhase, phase.AtClient (l.server.tcpFlows.lookup f = none) l.client f ∧
    phase.AtServer l.uplink l.server f

theorem new_agrees (maxFlows : ℤ) (f : ℕ) : (new maxFlows).Agrees f :=
  ⟨.unsent, OpenPhase.initial_atClient f, rfl, fun p hp => (by cases hp), fun _ => rfl,
    fun ok hok => by cases hok⟩

theorem openRequest_ne_tcp {frame : Frame} (htype : frame.type ≠ frameOPENTCP) :
    openRequest frame ≠ some (.tcp, f) := by
  rw [openRequest, if_neg htype]
  split_ifs
  · unfold requestOf
    split <;> simp
  · simp

theorem requests_of_clientWrites {s : ClientState} {dstHost : Bytes} {dstPort : UInt16} {ok : Bool}
    {a : ClientStep} {written : List Frame}
    (h : clientWrites s dstHost dstPort ok a = some written) :
    (∃ g, a = .writeOpen g true ∧ written.filterMap openRequest = [(.tcp, g)]) ∨
      (∀ g, a ≠ .writeOpen g true) ∧ (∀ frame, a ≠ .gateway frame) ∧
        written.filterMap openRequest = [] := by
  unfold clientWrites at h
  split at h
  case h_1 g =>
    obtain ⟨⟨hid, halloc⟩, rfl⟩ := of_guard h
    have hrequest : openRequest ⟨frameOPENTCP, encodeOpenPayload (openPayload g dstHost dstPort)⟩ =
        some (.tcp, g) := openRequest_encode .tcp hid dstPort.toNat_lt halloc
    exact .inl ⟨g, rfl, filterMap_cons_some hrequest⟩
  case h_2 g =>
    cases h
    refine .inr ⟨by simp, by simp, ?_⟩
    split_ifs <;> rfl
  case h_3 => cases h
  case h_4 hopen _ hgateway =>
    cases h
    exact .inr ⟨hopen, hgateway, rfl⟩

theorem clientStep_agrees {a : ClientStep} {dstHost : Bytes} {dstPort : UInt16} {ok : Bool}
    (h : l.Agrees f) (hok : l.GivesUpUnfiled (.client a dstHost dstPort ok))
    (hstep : l.clientStep a dstHost dstPort ok = some l') : l'.Agrees f := by
  obtain ⟨phase, hclient, hserver⟩ := h
  obtain ⟨written, hwritten, hstep⟩ := bind_eq_some_iff.mp hstep
  obtain ⟨client, hnext, hstep⟩ := bind_eq_some_iff.mp hstep
  cases hstep
  have hasked := hserver.asked
  rcases requests_of_clientWrites hwritten with ⟨g, rfl, hrequests⟩ | ⟨hopen, hgateway, hrequests⟩
  · by_cases hg : g = f
    · subst hg
      obtain ⟨rfl, hqueued⟩ := OpenPhase.writeOpen_atClient hclient
        (ite_none_left_eq_some.mp hnext).2
      refine ⟨.queued, hqueued, ?_, fun p hp => ?_, fun _ => hserver.absent (by simp),
        fun ok hok => ?_⟩
      · rw [filterMap_append, hrequests, count_append, hasked]
        simp
      · cases hserver.stage p hp
        exact absurd hp (OpenPhase.ofStage_ne_unsent _ _)
      · have hanswered := hserver.answer ok hok
        cases ok <;> cases hanswered
    · refine ⟨phase, hclient.step_atClient ?_ (by simp) (by simp) hnext,
        { hserver with asked := ?_ }⟩
      · simpa using hg
      · rw [filterMap_append, hrequests, count_append, hasked]
        simp [hg]
  · refine ⟨phase, hclient.step_atClient (hopen f) hgateway (fun htimeout => ?_) hnext,
      { hserver with asked := ?_ }⟩
    · subst htimeout
      exact hok
    · rw [filterMap_append, hrequests, append_nil]
      exact hasked

theorem serverStep_advances {phase : OpenPhase} {uplink : List Frame} {server : TCPSession}
    {label : TCPSessionStep} (h : phase.AtServer l.uplink l.server f)
    (hconsume : l.consume label = some uplink) (hstep : l.server.step label = some server) :
    phase.Advances uplink (l.server.files label = some f) server f := by
  by_cases hread : ∃ frame, l.server.openEvent label = .read frame
  · obtain ⟨fr, hread⟩ := hread
    obtain ⟨ok, n, rfl, hpc⟩ := TCPSession.readFrame_of_openEvent hread
    simp only [TCPSession.step, TCPSession.runStep, hpc, map_eq_some_iff] at hstep
    obtain ⟨pc, hnext, rfl⟩ := hstep
    simp only [consume, hpc, if_true] at hconsume
    obtain ⟨hhead, rfl⟩ := of_guard hconsume
    rw [← cons_head?_tail hhead] at h
    exact OpenPhase.readFrame_advances h hnext
  · have huplink : uplink = l.uplink := by
      unfold consume at hconsume
      split at hconsume
      case h_1 fr _ _ =>
        have hpc : l.server.run ≠ .readFrame := fun hpc =>
          hread ⟨fr, by simp [TCPSession.openEvent, hpc]⟩
        rw [if_neg hpc] at hconsume
        exact (some.inj hconsume).symm
      case h_2 => exact (some.inj hconsume).symm
    exact huplink ▸ OpenPhase.step_advances h (fun fr hfr => hread ⟨fr, hfr⟩) hstep

theorem answer_of_arrival {server : TCPSession} (h : .openFail f ∈ l.arrivals server) :
    ⟨.tcp, f, false⟩ ∈ server.answers := by
  obtain ⟨⟨frame, ok⟩, hframe, harrives⟩ := mem_filterMap.mp h
  obtain ⟨-, harrives⟩ := ite_none_right_eq_some.mp harrives
  have hfail := some.inj harrives
  refine mem_filterMap.mpr ⟨(frame, ok), mem_of_mem_drop hframe, ?_⟩
  cases frame <;> cases hfail
  rfl

theorem serverStep_agrees {label : TCPSessionStep} (h : l.Agrees f)
    (hok : l.GivesUpUnfiled (.server label)) (hstep : l.serverStep label = some l') :
    l'.Agrees f := by
  obtain ⟨phase, hclient, hserver⟩ := h
  obtain ⟨uplink, hconsume, hstep⟩ := bind_eq_some_iff.mp hstep
  obtain ⟨server, hnext, hstep⟩ := bind_eq_some_iff.mp hstep
  cases hstep
  obtain ⟨phase', hphase, hserver'⟩ := serverStep_advances hserver hconsume hnext
  have hclient' : phase'.AtClient (server.tcpFlows.lookup f = none) l.client f := by
    rcases hphase with rfl | ⟨hphase, hfiles⟩
    · -- a flow that was accepted is never filed again
      refine hclient.mono fun haccepted habsent => eq_none_iff_forall_ne_some.mpr fun k hk => ?_
      rcases TCPSession.lookup_of_step hnext hk with hold | hfiles
      · simp [habsent] at hold
      · obtain ⟨k, hstage⟩ := TCPSession.dialed_of_files hfiles
        have hhandled := hserver.stage .handled (by simp [hstage, OpenPhase.ofStage])
        cases haccepted.symm.trans hhandled
    · refine hclient.advance hphase fun haccepted hshutdown hgiven => ?_
      simp [hok f (hfiles haccepted) hshutdown] at hgiven
  refine ⟨phase', { hclient' with wire := fun hwire => ?_ }, hserver'⟩
  rcases mem_append.mp hwire with hold | harrived
  · exact hclient'.wire hold
  · exact hserver'.answer false (answer_of_arrival harrived)

theorem step_agrees (h : l.Agrees f) (hok : l.GivesUpUnfiled label)
    (hstep : l.step label = some l') : l'.Agrees f := by
  cases label with
  | client a dstHost dstPort ok => exact clientStep_agrees h hok hstep
  | send frame =>
    obtain ⟨phase, hclient, hserver⟩ := h
    obtain ⟨htype, rfl⟩ := of_guard hstep
    refine ⟨phase, hclient, { hserver with asked := ?_ }⟩
    have hne : openRequest frame ≠ some (.tcp, f) := openRequest_ne_tcp fun hopen => by
      simp [hopen, frameOPENTCP, framePING, framePONG, frameOPENUDP, frameTCPDATA] at htype
    have hcount : ([frame].filterMap openRequest).count (.tcp, f) = 0 := by
      refine count_eq_zero.mpr fun hmem => ?_
      obtain ⟨frame', hframe, hrequest⟩ := mem_filterMap.mp hmem
      exact hne (mem_singleton.mp hframe ▸ hrequest)
    rw [filterMap_append, count_append, hserver.asked, hcount, Nat.add_zero]
  | server label => exact serverStep_agrees h hok hstep

/-- A call that failed has no flow at the session, if no call gave up on a flow that the session
had, and the session filed none for a call that had given up. -/
theorem failed_open_leaves_no_flow (maxFlows : ℤ) (labels : List TCPLinkStep) (l : TCPLink) (f : ℕ)
    (hpath : Path step GivesUpUnfiled (new maxFlows) labels l) (hopen : l.Open)
    (hfailed : (l.client.calls f).pc = .failed) : l.server.tcpFlows.lookup f = none := by
  have hkeep : ∀ (l : TCPLink) label l', l.Agrees f → l.GivesUpUnfiled label →
      l.step label = some l' → l'.Agrees f := fun _ _ _ => step_agrees
  obtain ⟨phase, hclient, hserver⟩ := hpath.invariant hkeep (new_agrees maxFlows f)
  by_cases haccepted : phase = .accepted
  · exact hclient.call.givenUp hopen.1 (by rw [hfailed]; rfl) haccepted
  · exact hserver.absent haccepted

def call (a : ClientStep) : TCPLinkStep := .client a [104] 80 true

/-- The session takes the OPEN_TCP of flow 1 from the queue. -/
def serveOpen : TCPLinkStep :=
  .server (.run (some ⟨frameOPENTCP, encodeOpenPayload (openPayload 1 [104] 80)⟩) true 0)

/-- The call gives up before the session has read its request. -/
def givenUpRun : List TCPLinkStep :=
  [call (.register 1), call (.writeOpen 1 true), call (.timeout 1), call (.unregister 1),
    call (.closeReply 1), serveOpen]

/-- The session has no room for the flow. -/
def refusedRun : List TCPLinkStep :=
  givenUpRun ++ List.replicate 2 (.server (.run none true 0)) ++ [call .loop, call .loop]

/-- The session has room for it. -/
def orphanRun : List TCPLinkStep :=
  givenUpRun ++ List.replicate 6 (.server (.run none true 0)) ++ [call .loop, call .loop]

theorem refusedRun_leaves_no_flow :
    ∃ l, Path step GivesUpUnfiled (new 0) refusedRun l ∧ l.Settled ∧ l.Open ∧
      (l.client.calls 1).pc = .failed ∧ l.server.tcpFlows.lookup 1 = none := by
  refine Path.exists_of_run_imp (P := fun l => l.Settled ∧ l.Open ∧ (l.client.calls 1).pc = .failed)
    (by decide +kernel) fun l hpath ⟨hsettled, hopen, hfailed⟩ => ?_
  exact ⟨hsettled, hopen, hfailed,
    failed_open_leaves_no_flow 0 refusedRun l 1 hpath hopen hfailed⟩

theorem orphanRun_leaves_flow :
    ∃ l, Path step anyLabel (new 1) orphanRun l ∧ l.Settled ∧ l.Open ∧
      (l.client.calls 1).pc = .failed ∧ l.server.tcpFlows.lookup 1 = some 0 :=
  Path.exists_of_run (by decide +kernel)

end TCPLink
end VlfProto.Link
