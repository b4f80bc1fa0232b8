import VlfProto.Link.FlowControl

/-! # The steps of the QUIC client and its UDP flows -/

namespace VlfProto.Link
open Platform Transition Client Session Option List

namespace QUICLink

variable {l l' : QUICLink} {label : QUICLinkStep} {id flowID : UInt64} {i : ℕ} {ok : Bool}
  {phase : FlowPhase} {frame : SessionFrame} {kind : FlowKind}

/-- The client waits for flow `id`, is about to enter it into its table, or has it there. -/
def Wanted (calls : ℕ → ControlCall) (c : QUICClient) (id : UInt64) : Prop :=
  (∃ i, calls i = .readOpen .udp id) ∨ (∃ i, c.users i = .insert id) ∨
    (c.udpFlows.lookup id).isSome

section Wanted

variable {calls : ℕ → ControlCall} {call : ControlCall} {c c' : QUICClient}

theorem Wanted.of_setCall (hcall : call ≠ .readOpen .udp id)
    (h : Wanted (Function.update calls i call) c id) : Wanted calls c id := by
  refine h.imp_left ?_
  rintro ⟨j, hj⟩
  by_cases hji : j = i
  · exact absurd (by simpa [hji] using hj) hcall
  · exact ⟨j, by simpa [hji] using hj⟩

theorem Wanted.of_setUser {pc : UserPc} (hpc : pc ≠ .insert id)
    (h : Wanted calls (c.setUser i pc) id) : Wanted calls c id := by
  refine h.imp_right (Or.imp_left ?_)
  rintro ⟨j, hj⟩
  by_cases hji : j = i
  · exact absurd (by simpa [QUICClient.setUser, hji] using hj) hpc
  · exact ⟨j, by simpa [QUICClient.setUser, hji] using hj⟩

theorem Wanted.of_still (hstill : c.Still c') (h : Wanted calls c' id) : Wanted calls c id := by
  refine h.imp_right (Or.imp ?_ fun hin => ?_)
  · rintro ⟨j, hj⟩
    exact ⟨j, hstill.insert j id hj⟩
  · obtain ⟨k, hk⟩ := isSome_iff_exists.mp hin
    exact isSome_iff_exists.mpr ⟨k, hstill.table id k hk⟩

theorem Wanted.of_insertFlow (hne : flowID ≠ id) (h : Wanted calls (c.insertFlow flowID) id) :
    Wanted calls c id := by
  refine h.imp_right (Or.imp_right fun hin => ?_)
  rwa [QUICClient.insertFlow, Finmap.lookup_insert_of_ne _ (Ne.symm hne)] at hin

end Wanted

/-- Both sides agree on what has become of flow `id`. -/
structure AgreesAt (phase : FlowPhase) (l : QUICLink) (id : UInt64) : Prop where
  calls : phase.AtCalls l id
  table : phase.AtTable l.client id
  server : phase.AtServer (Wanted l.calls l.client id) l.uplink l.downlink l.server id.toNat

def Agrees (l : QUICLink) (id : UInt64) : Prop := ∃ phase, AgreesAt phase l id

theorem new_agrees (cfg : SessionConfig) (session : UInt64) (limits : Limits.Manager)
    (id : UInt64) : (new cfg session limits).Agrees id :=
  ⟨.fresh, FlowPhase.new_atCalls cfg session limits id, FlowPhase.initial_atTable id,
    FlowPhase.started_atServer cfg session limits _ id.toNat⟩

theorem AgreesAt.write {frame : Frame} (h : AgreesAt phase l id) (hopen : openRequest frame = none)
    (hclose : closeRequest frame = some id.toNat → phase = .ended) :
    AgreesAt phase (l.write frame ok) id := by
  refine ⟨{ h.calls with }, h.table, h.server.write ?_ fun frame' hframe' hends => ?_⟩
  · cases ok <;> simp [hopen]
  · cases ok with
    | false => simp at hframe'
    | true =>
      rw [if_pos rfl, mem_singleton] at hframe'
      exact hclose (by simpa [endsFlow, hframe', hopen] using hends)

theorem closeRequest_closeFrame (flowID : UInt64) :
    closeRequest (closeFrame flowID) = some flowID.toNat := by
  have hdecode := decodeCloseFlowPayload_encode flowID.toNat_lt
  rw [encodeCloseFlowPayload] at hdecode
  rw [closeRequest, closeFrame, if_pos rfl, hdecode]
  rfl

theorem AgreesAt.writeClose (h : AgreesAt phase l id) (hended : flowID = id → phase = .ended) :
    AgreesAt phase (l.write (closeFrame flowID) ok) id := by
  refine h.write rfl fun hclose => hended ?_
  rw [closeRequest_closeFrame] at hclose
  exact UInt64.toNat_inj.mp (some.inj hclose)

theorem AgreesAt.setOther {call : ControlCall} (h : AgreesAt phase l id)
    (hcall : ∀ kind, call.flow ≠ some (kind, id)) : AgreesAt phase (l.setCall i call) id := by
  refine ⟨h.calls.setOther hcall, h.table, h.server.mono (.of_setCall fun hread => ?_)⟩
  exact hcall .udp (by rw [hread]; rfl)

theorem AgreesAt.release (h : AgreesAt phase l id) : AgreesAt phase (l.release i) id :=
  ⟨h.calls.release, h.table, h.server.mono (.of_setCall (by simp))⟩

theorem openFlow_agrees {dstHost : Bytes} {dstPort : UInt16} (h : AgreesAt phase l id)
    (hunused : l.used flowID = none) :
    Agrees ({ l with used := Function.update l.used flowID (some kind) }.setCall i
      (.writeOpen kind flowID dstHost dstPort)) id := by
  by_cases hid : flowID = id
  · subst hid
    obtain rfl := h.calls.unused hunused
    have hcalls : (if kind = .udp then FlowPhase.fresh else .ended).AtCalls
        ({ l with used := Function.update l.used flowID (some kind) }.setCall i
          (.writeOpen kind flowID dstHost dstPort)) flowID := h.calls.openFlow hunused
    have hserver := h.server.mono (@Wanted.of_setCall _ i _
      (.writeOpen kind flowID dstHost dstPort) _ (by simp))
    cases kind with
    | udp => exact ⟨.fresh, hcalls, h.table, hserver⟩
    | tcp => exact ⟨.ended, hcalls, h.table.early (by simp), hserver.later (by simp) (.inl rfl)⟩
  · exact ⟨phase, h.calls.openOther hid, h.table, h.server.mono (.of_setCall (by simp))⟩

theorem writeOpen_agrees {dstHost : Bytes} {dstPort : UInt16} (h : AgreesAt phase l id)
    (hcall : l.calls i = .writeOpen kind flowID dstHost dstPort)
    (hstep : l.writeOpen i kind flowID dstHost dstPort ok = some l') : l'.Agrees id := by
  obtain ⟨⟨-, halloc⟩, hstep⟩ := ite_none_right_eq_some.mp hstep
  cases ok with
  | false =>
    cases hstep
    exact ⟨phase, h.setOther (by simp [ControlCall.flow])⟩
  | true =>
    cases hstep
    have hrequest := openRequest_encode (p := ⟨flowID.toNat, dstHost, [], dstPort.toNat⟩) kind
      flowID.toNat_lt dstPort.toNat_lt halloc
    have hclose : closeRequest ⟨openType kind, encodeOpenPayload ⟨flowID.toNat, dstHost, [],
        dstPort.toNat⟩⟩ = none := by cases kind <;> rfl
    by_cases hid : flowID = id
    · subst hid
      cases kind with
      | udp =>
        obtain ⟨rfl, hcalls⟩ := h.calls.writeOpen hcall
        exact ⟨.queued, { hcalls with }, h.table.early (by simp), h.server.ask hrequest hclose⟩
      | tcp =>
        have hflow : (l.calls i).flow = some (.tcp, flowID) := by rw [hcall]; rfl
        obtain rfl := h.calls.tcp (h.calls.call i .tcp hflow)
        have hcalls : FlowPhase.ended.AtCalls (l.setCall i (.readOpen .tcp flowID)) flowID := by
          refine h.calls.setCall (fun kind hkind => ?_) (by simp) (by simp)
          rw [hflow]
          exact hkind
        refine ⟨.ended, { hcalls with }, h.table, .mono (h.server.write ?_ fun _ _ _ => rfl)
          (.of_setCall (by simp))⟩
        simp [filterMap_cons_some hrequest]
    · have hne : flowID.toNat ≠ id.toNat := fun heq => hid (UInt64.toNat_inj.mp heq)
      have hcalls : phase.AtCalls (l.setCall i (.readOpen kind flowID)) id :=
        h.calls.setOther fun kind' hkind => hid (Prod.mk.inj (some.inj hkind)).2
      refine ⟨phase, { hcalls with }, h.table, .mono (h.server.write ?_
        fun frame hframe hends => ?_) (.of_setCall (by simp [hid]))⟩
      · simp [filterMap_cons_some hrequest, hne]
      · rw [if_pos rfl, mem_singleton] at hframe
        simp [endsFlow, hframe, hrequest, hclose, hne] at hends

theorem accept_agrees (h : AgreesAt phase l id) (hcall : l.calls i = .readOpen kind flowID)
    (hgranted : kind = .udp → flowID = id → phase ∈ [.granted, .inserting, .registered, .ended]) :
    (l.accept i kind flowID).Agrees id := by
  cases kind with
  | tcp => exact ⟨phase, h.calls.acceptTCP hcall, h.table, h.server.mono (.of_setCall (by simp))⟩
  | udp =>
    by_cases hid : flowID = id
    · subst hid
      have hphase : phase = .granted := by
        have hgranted := hgranted rfl rfl
        have hwaiting := h.calls.waiting i hcall
        revert hgranted hwaiting
        cases phase <;> simp
      subst hphase
      exact ⟨.inserting, { h.calls.acceptUDP hcall rfl with }, h.table.setInsert rfl,
        (h.server.later (by simp) (.inr ⟨by simp, by simp⟩)).mono fun _ => .inl ⟨i, hcall⟩⟩
    · refine ⟨phase, { h.calls.release with }, h.table.setOtherInsert hid,
        h.server.mono fun hwanted => ?_⟩
      exact (hwanted.of_setUser (by simp [hid])).of_setCall (by simp)

theorem readOpen_agrees {kind : FlowKind} {frame : SessionFrame} (h : AgreesAt phase l id)
    (hcall : l.calls i = .readOpen kind flowID)
    (hgranted : frame = .openOK .udp id.toNat →
      phase ∈ [.granted, .inserting, .registered, .ended]) :
    (l.readOpen i kind flowID ok frame).Agrees id := by
  unfold readOpen
  split
  case h_1 kind' id' =>
    split_ifs with hmatch
    · refine accept_agrees h hcall fun hkind hid => hgranted ?_
      rw [hmatch.1, hmatch.2, hkind, hid]
    · exact ⟨phase, h⟩
  case h_2 =>
    split_ifs
    · exact ⟨phase, h.release⟩
    · exact ⟨phase, h⟩
  case h_3 => exact ⟨phase, h.write rfl fun hclose => by cases hclose⟩
  case h_4 => exact ⟨phase, h⟩

theorem readProbe_agrees {token : Bytes} (h : AgreesAt phase l id) :
    (l.readProbe i token ok frame).Agrees id := by
  unfold readProbe
  split
  · split_ifs
    · exact ⟨phase, h.release⟩
    · exact ⟨phase, h⟩
  · exact ⟨phase, h.write rfl fun hclose => by cases hclose⟩
  · exact ⟨phase, h⟩

theorem AgreesAt.next {handle : QUICLink → SessionFrame → QUICLink} (h : AgreesAt phase l id)
    (hstep : l.next frame handle = some l') :
    AgreesAt phase { l with downlink := l.downlink.tail } id ∧
      l' = handle { l with downlink := l.downlink.tail } frame ∧ frame ∈ l.downlink := by
  obtain ⟨hhead, hstep⟩ := ite_none_right_eq_some.mp hstep
  exact ⟨⟨{ h.calls with }, h.table, h.server.read⟩, (some.inj hstep).symm,
    mem_of_mem_head? hhead⟩

theorem controlStep_agrees {frame : Option SessionFrame} (h : AgreesAt phase l id)
    (hstep : l.controlStep i frame ok = some l') : l'.Agrees id := by
  cases hcall : l.calls i <;> simp only [controlStep, hcall, reduceCtorEq] at hstep
  case writeOpen kind flowID dstHost dstPort => exact writeOpen_agrees h hcall hstep
  case readOpen kind flowID =>
    cases frame with
    | none => exact ⟨phase, some.inj hstep ▸ h.release⟩
    | some frame =>
      obtain ⟨hnext, rfl, hmem⟩ := h.next hstep
      exact readOpen_agrees hnext hcall fun hframe => h.server.answered (hframe ▸ hmem)
  case writeProbe token =>
    obtain ⟨-, hstep⟩ := ite_none_right_eq_some.mp hstep
    split_ifs at hstep
    · cases hstep
      have hwrite : AgreesAt phase (l.write ⟨framePING, token⟩ true) id :=
        h.write rfl fun hclose => by cases hclose
      have hset : AgreesAt phase
        ((l.write ⟨framePING, token⟩ true).setCall i (.readProbe token)) id :=
        hwrite.setOther (by simp [ControlCall.flow])
      exact ⟨phase, { hset.calls with }, hset.table, hset.server⟩
    · exact ⟨phase, some.inj hstep ▸ h.setOther (by simp [ControlCall.flow])⟩
  case readProbe token =>
    cases frame with
    | none => exact ⟨phase, some.inj hstep ▸ h.release⟩
    | some frame =>
      obtain ⟨hnext, rfl, -⟩ := h.next hstep
      exact readProbe_agrees hnext

theorem leftTable_of_notified {c : QUICClient} {label : QUICStep} {k : ℕ}
    (h : notified c label = some k) : leftTable (c.flows k).once := by
  cases label with
  | user i next =>
    obtain ⟨-, honce⟩ := filter_eq_some_iff.mp h
    rw [of_decide_eq_true honce]
    rfl
  | _ => cases h

theorem clientStep_cases {label : QUICStep} (hstep : l.clientStep label ok = some l') :
    (∀ i flowID, label ≠ .openUDPFlow i flowID) ∧ ∃ client, l.client.step label = some client ∧
      l' = { (notified l.client label).elim l fun k =>
        l.write (closeFrame (l.client.flows k).id) ok with client } := by
  unfold clientStep at hstep
  split at hstep
  · cases hstep
  case h_2 hopen =>
    obtain ⟨-, hstep⟩ := ite_none_right_eq_some.mp hstep
    obtain ⟨client, hclient, rfl⟩ := map_eq_some_iff.mp hstep
    exact ⟨hopen, client, hclient, rfl⟩

theorem clientStep_agrees {label : QUICStep} (hknown : l.client.Known) (h : AgreesAt phase l id)
    (hstep : l.clientStep label ok = some l') : l'.Agrees id := by
  obtain ⟨hopen, client, hclient, rfl⟩ := clientStep_cases hstep
  have hw : AgreesAt phase ((notified l.client label).elim l fun k =>
      l.write (closeFrame (l.client.flows k).id) ok) id := by
    cases hnotified : notified l.client label with
    | none => exact h
    | some k => exact h.writeClose (h.table.left k (leftTable_of_notified hnotified))
  have hsame : ((notified l.client label).elim l fun k =>
      l.write (closeFrame (l.client.flows k).id) ok).client = l.client := by
    cases notified l.client label <;> rfl
  generalize (notified l.client label).elim l _ = w at hw hsame ⊢
  rw [← hsame] at hknown hclient
  rcases QUICClient.step_still hknown hopen hclient with hstill | ⟨i, flowID, hi, rfl⟩
  · have hserver := hw.server.mono (.of_still hstill)
    rcases hw.table.still hstill with htable | ⟨rfl, htable⟩
    · exact ⟨phase, { hw.calls with }, htable, hserver⟩
    · exact ⟨.ended, { hw.calls.late (by simp) with }, htable,
        hserver.later (by simp) (.inl rfl)⟩
  · rcases hw.table.insertFlow hi with ⟨hne, htable⟩ | ⟨rfl, rfl, htable⟩
    · refine ⟨phase, { hw.calls with }, htable, hw.server.mono fun hwanted => ?_⟩
      exact (hwanted.of_setUser (by simp)).of_insertFlow hne
    · exact ⟨.registered, { hw.calls.late (by simp) with }, htable,
        (hw.server.later (by simp) (.inr ⟨by simp, by simp⟩)).mono fun _ => .inr (.inl ⟨i, hi⟩)⟩

theorem accept_client : (l.accept i kind flowID).client = l.client ∨
    ∃ flowID', (l.accept i kind flowID).client = l.client.setUser i (.insert flowID') := by
  cases kind with
  | tcp => exact .inl rfl
  | udp => exact .inr ⟨flowID, rfl⟩

theorem readOpen_client :
    (l.readOpen i kind flowID ok frame).client = l.client ∨
      ∃ flowID', (l.readOpen i kind flowID ok frame).client =
        l.client.setUser i (.insert flowID') := by
  cases frame with
  | openOK kind' id' =>
    simp only [readOpen]
    split_ifs
    · exact accept_client
    · exact .inl rfl
  | openFail kind' id' reason =>
    simp only [readOpen]
    split_ifs <;> exact .inl rfl
  | _ => exact .inl rfl

theorem readProbe_client {token : Bytes} : (l.readProbe i token ok frame).client = l.client := by
  cases frame with
  | pong payload =>
    simp only [readProbe]
    split_ifs <;> rfl
  | _ => rfl

/-- A control call changes the flows of the client only when its open is accepted. -/
theorem controlStep_client {frame : Option SessionFrame}
    (hstep : l.controlStep i frame ok = some l') :
    l'.client = l.client ∨ ∃ flowID, l'.client = l.client.setUser i (.insert flowID) := by
  unfold controlStep at hstep
  split at hstep
  case h_1 => cases hstep
  case h_2 | h_4 =>
    obtain ⟨-, hstep⟩ := ite_none_right_eq_some.mp hstep
    split_ifs at hstep
    all_goals exact .inl (some.inj hstep ▸ rfl)
  case h_3 =>
    split at hstep
    · exact .inl (some.inj hstep ▸ rfl)
    · obtain ⟨-, hstep⟩ := ite_none_right_eq_some.mp hstep
      exact some.inj hstep ▸ readOpen_client
  case h_5 =>
    split at hstep
    · exact .inl (some.inj hstep ▸ rfl)
    · obtain ⟨-, hstep⟩ := ite_none_right_eq_some.mp hstep
      exact .inl (some.inj hstep ▸ readProbe_client)

theorem step_known (h : l.client.Known) (hstep : l.step label = some l') : l'.client.Known := by
  cases label with
  | openFlow i kind flowID dstHost dstPort | probeRTT i token | closeTCP flowID ok =>
    obtain ⟨-, hstep⟩ := ite_none_right_eq_some.mp hstep
    exact some.inj hstep ▸ h
  | control i frame ok =>
    rcases controlStep_client hstep with hclient | ⟨flowID, hclient⟩
    · rwa [hclient]
    · rw [hclient]
      exact h.setUser (by simp)
  | client label ok =>
    obtain ⟨-, client, hclient, rfl⟩ := clientStep_cases hstep
    exact QUICClient.step_known h hclient
  | server label =>
    obtain ⟨uplink, -, hstep⟩ := bind_eq_some_iff.mp hstep
    obtain ⟨server, -, hstep⟩ := bind_eq_some_iff.mp hstep
    exact some.inj hstep ▸ h

end QUICLink
end VlfProto.Link
