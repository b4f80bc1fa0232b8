import VlfProto.Auth.ReplayProtection
import VlfProto.Session.TCP.Placement

/-! # Uploads over whole runs -/

namespace VlfProto.Session
open Platform Transition Option List

/-- `Run` has not read the first frame. -/
def TCPRunPc.early : TCPRunPc → Bool
  | .setDeadline => true
  | .readFirst => true
  | _ => false

/-- `Run` is past the check of the first frame and not in its deferred `Close`. -/
def TCPRunPc.serving : TCPRunPc → Bool
  | .setDeadline => false
  | .readFirst => false
  | .authFail _ => false
  | .deferredClose => false
  | .returned => false
  | _ => true

namespace TCPSession

variable {s s' : TCPSession} {n : ℕ} {ok : Bool} {frame : Option Frame} {label : TCPSessionStep}

theorem dispatch_next {f : Frame} {pc : TCPRunPc} (h : dispatch f = some pc) :
    pc.lookingUp = (tcpDataOf f).toList ∧ pc.early = false ∧ pc.serving := by
  by_cases htype : f.type = frameTCPDATA
  · cases hdata : decodeTCPDataPayload f.payload with
    | error e =>
      obtain rfl : TCPRunPc.readFrame = pc := by
        simpa [dispatch, htype, hdata, frameTCPDATA, framePING, framePONG, frameOPENTCP,
          frameOPENUDP, frameCLOSEFLOW] using h
      simp [tcpDataOf, htype, hdata, TCPRunPc.lookingUp, TCPRunPc.early, TCPRunPc.serving,
        Except.toOption]
    | ok p =>
      obtain rfl : TCPRunPc.dataLookup p.1 p.2 = pc := by
        simpa [dispatch, htype, hdata, frameTCPDATA, framePING, framePONG, frameOPENTCP,
          frameOPENUDP, frameCLOSEFLOW] using h
      simp [tcpDataOf, htype, hdata, TCPRunPc.lookingUp, TCPRunPc.early, TCPRunPc.serving,
        Except.toOption]
  · have hnone : tcpDataOf f = none := if_neg htype
    rw [hnone]
    unfold dispatch at h
    split_ifs at h
    all_goals
      first
      | (cases h; exact ⟨rfl, rfl, rfl⟩)
      | (split at h <;> cases h <;> exact ⟨rfl, rfl, rfl⟩)

theorem authenticate_next {f : Frame} {pc : TCPRunPc} (h : authenticate f ok = some pc) :
    pc.lookingUp = [] ∧ pc.early = false ∧ (pc.serving → pc = .register) := by
  unfold authenticate at h
  split_ifs at h
  all_goals
    first
    | (cases h; simp [TCPRunPc.lookingUp, TCPRunPc.early, TCPRunPc.serving])
    | (split at h <;> cases h <;> simp [TCPRunPc.lookingUp, TCPRunPc.early, TCPRunPc.serving])

/-- `Run` goes on without reading a frame: it starts to serve no client that it did not
serve before, and dials only for one that it serves. -/
structure GoesOn (s s' : TCPSession) : Prop where
  lookingUp : s'.run.lookingUp = []
  early : s'.run.early = false
  serving : s'.run.serving → s.run.serving
  dials : s'.created ≠ s.created → s.run.serving

theorem runClose_goesOn {pc : TCPRunPc} {r : TCPSession × Bool} (hlook : s.run.lookingUp = [])
    (hearly : s.run.early = false) (hpc : pc.ending ∧ (pc.serving → s.run.serving))
    (hr : s.closeStep .run = some r) :
    s.GoesOn (if r.2 then { r.1 with run := pc } else r.1) := by
  have hb := closeStep_beside hr
  have hcreated : r.1.created ≠ s.created → s.run.serving := fun hne => absurd hb.created hne
  split_ifs
  · refine ⟨?_, ?_, hpc.2, hcreated⟩
    · cases pc <;> first | rfl | cases hpc.1
    · cases pc <;> first | rfl | cases hpc.1
  · exact ⟨hb.run ▸ hlook, hb.run ▸ hearly, fun h => hb.run ▸ h, hcreated⟩

theorem runStep_goesOn (hearly : s.run.early = false) (hread : s.run ≠ .readFrame)
    (h : s.runStep frame ok n = some s') : s.GoesOn s' := by
  cases runStep_cases h with
  | setDeadline hpc | readFirst hpc =>
    rw [hpc] at hearly
    cases hearly
  | readFrame hpc => exact absurd hpc hread
  | authFail => exact ⟨rfl, rfl, fun h => (by cases h), fun h => absurd rfl h⟩
  | closing hpc hr =>
    exact runClose_goesOn (by rw [hpc]; rfl) hearly ⟨rfl, fun _ => by rw [hpc]; rfl⟩ hr
  | deferredClose hpc hr =>
    exact runClose_goesOn (by rw [hpc]; rfl) hearly ⟨rfl, fun h => by cases h⟩ hr
  | @openCheck p hpc =>
    rcases s.openCheck_cases p with ⟨reason, hnext⟩ | ⟨hnext, -⟩ <;> rw [hnext] <;>
      exact ⟨rfl, rfl, fun _ => by rw [hpc]; rfl, fun h => absurd rfl h⟩
  | @closeFlow pc r hpc hr =>
    have hcreated := (closeFlowStep_beside hr).created
    refine ⟨?_, ?_, fun _ => by rw [hpc]; rfl, fun hne => absurd hcreated hne⟩
    · cases r.2 <;> rfl
    · cases r.2 <;> rfl
  | dial hpc => exact ⟨rfl, rfl, fun _ => by rw [hpc]; rfl, fun _ => by rw [hpc]; rfl⟩
  | writeAuthOK hpc | writeOpenOK hpc | lookup hpc | dataLimit hpc | dataWrite hpc =>
    refine ⟨?_, ?_, fun _ => by rw [hpc]; rfl, fun hne => absurd rfl hne⟩ <;> split_ifs <;> rfl
  | register hpc | reply hpc | dialFails hpc | insert hpc | duplicate hpc | closeDuplicate hpc
  | countStream hpc | spawn hpc | lookupFails hpc | unregister hpc =>
    exact ⟨rfl, rfl, fun _ => by rw [hpc]; rfl, fun hne => absurd rfl hne⟩

end TCPSession

namespace RecordedSession

variable {r r' : RecordedSession} {s' : TCPSession} {k n : ℕ} {ok : Bool} {frame : Option Frame}
  {label : TCPSessionStep} {v : Auth.Verifier} {now : ℤ}

structure Ordered (v : Auth.Verifier) (now : ℤ) (r : RecordedSession) : Prop where
  order : r.uploads.map (fun u => (u.flowID, u.data)) ++ r.session.run.lookingUp =
    r.read.tail.filterMap tcpDataOf
  unread : r.session.run.early → r.read = [] ∧ r.session.created = 0
  serving : r.session.run.serving → Accepted v now r.read
  dialed : 0 < r.session.created → Accepted v now r.read

theorem new_ordered (v : Auth.Verifier) (now : ℤ) (maxFlows : ℤ) :
    (new maxFlows).Ordered v now where
  order := rfl
  unread _ := ⟨rfl, rfl⟩
  serving h := by cases h
  dialed h := absurd h (lt_irrefl 0)

theorem Ordered.beside (h : r.Ordered v now) (hb : r.session.Beside s') :
    { r with session := s' }.Ordered v now where
  order := hb.run ▸ h.order
  unread he := by
    rw [hb.created]
    exact h.unread (hb.run ▸ he)
  serving hs := h.serving (hb.run ▸ hs)
  dialed hd := h.dialed (hb.created ▸ hd)

theorem Ordered.first {pc : TCPRunPc} (h : r.Ordered v now) (hpc : r.session.run = .readFirst)
    (hverified : r.VerifiedBy v now (.run frame ok n))
    (hnext : frame.elim (some .deferredClose) (TCPSession.authenticate · ok) = some pc) :
    { r with session := { r.session with run := pc }, read := r.read ++ frame.toList }.Ordered
      v now := by
  obtain ⟨hread, hcreated⟩ := h.unread (by rw [hpc]; rfl)
  have huploads : r.uploads = [] := by
    have horder := h.order
    rw [hpc, hread] at horder
    simpa [TCPRunPc.lookingUp] using horder
  have hdialed : 0 < r.session.created → Accepted v now (r.read ++ frame.toList) := fun hd => by
    rw [hcreated] at hd
    exact absurd hd (lt_irrefl 0)
  cases frame with
  | none =>
    cases hnext
    exact ⟨by simp [huploads, hread, TCPRunPc.lookingUp], fun he => (by cases he),
      fun hs => (by cases hs), hdialed⟩
  | some f =>
    obtain ⟨hlook, hearly, hregister⟩ := TCPSession.authenticate_next hnext
    refine ⟨?_, fun he => ?_, fun hs => ?_, hdialed⟩
    · simp [huploads, hread, hlook]
    · rw [hearly] at he
      cases he
    · obtain rfl := hregister hs
      obtain rfl := hverified hpc
      rw [hread]
      exact accepted_of_verdict hnext

theorem Ordered.next {pc : TCPRunPc} (h : r.Ordered v now) (hpc : r.session.run = .readFrame)
    (hnext : frame.elim (some .unregister) TCPSession.dispatch = some pc) :
    { r with session := { r.session with run := pc }, read := r.read ++ frame.toList }.Ordered
      v now := by
  have haccepted := h.serving (by rw [hpc]; rfl)
  have hmore := haccepted.append frame.toList
  have horder := h.order
  rw [hpc] at horder
  cases frame with
  | none =>
    cases hnext
    exact ⟨by simpa [TCPRunPc.lookingUp] using horder, fun he => (by cases he), fun _ => hmore,
      fun _ => hmore⟩
  | some f =>
    obtain ⟨hlook, hearly, -⟩ := TCPSession.dispatch_next hnext
    refine ⟨?_, fun he => ?_, fun _ => hmore, fun _ => hmore⟩
    · obtain ⟨g, rest, p, hread, -⟩ := haccepted
      have hbefore : r.uploads.map (fun u => (u.flowID, u.data)) = rest.filterMap tcpDataOf := by
        simpa [hread, TCPRunPc.lookingUp] using horder
      simp only [hread, hlook, hbefore, toList_some, cons_append, tail_cons,
        filterMap_append]
      cases hdata : tcpDataOf f <;> simp [hdata]
    · rw [hearly] at he
      cases he

theorem Ordered.goesOn (h : r.Ordered v now) (hg : r.session.GoesOn r'.session)
    (hread : r'.read = r.read) (horder : r'.uploads.map (fun u => (u.flowID, u.data)) =
      r.uploads.map (fun u => (u.flowID, u.data)) ++ r.session.run.lookingUp) :
    r'.Ordered v now where
  order := by rw [horder, hg.lookingUp, hread, append_nil, h.order]
  unread he := by
    rw [hg.early] at he
    cases he
  serving hs := by
    rw [hread]
    exact h.serving (hg.serving hs)
  dialed hd := by
    rw [hread]
    by_cases hcreated : r'.session.created = r.session.created
    · exact h.dialed (hcreated ▸ hd)
    · exact h.serving (hg.dials hcreated)

theorem runStep_ordered (h : r.Ordered v now) (hverified : r.VerifiedBy v now (.run frame ok n))
    (hstep : r.session.runStep frame ok n = some s') :
    { r.record (.run frame ok n) with session := s' }.Ordered v now := by
  cases hpc : r.session.run
  case setDeadline =>
    simp only [TCPSession.runStep, hpc] at hstep
    cases hstep
    simp only [record, hpc]
    obtain ⟨hread, hcreated⟩ := h.unread (by rw [hpc]; rfl)
    have horder := h.order
    rw [hpc] at horder
    refine ⟨?_, fun _ => ⟨hread, hcreated⟩, fun hs => ?_, h.dialed⟩
    · split_ifs <;> exact horder
    · split_ifs at hs <;> cases hs
  case readFirst =>
    simp only [TCPSession.runStep, hpc, map_eq_some_iff] at hstep
    obtain ⟨pc, hnext, rfl⟩ := hstep
    simp only [record, hpc]
    exact h.first hpc hverified hnext
  case readFrame =>
    simp only [TCPSession.runStep, hpc, map_eq_some_iff] at hstep
    obtain ⟨pc, hnext, rfl⟩ := hstep
    simp only [record, hpc]
    exact h.next hpc hnext
  all_goals have hg := TCPSession.runStep_goesOn (by rw [hpc]; rfl) (by simp [hpc]) hstep
  case dataLookup flowID data =>
    simp only [record, hpc]
    refine h.goesOn hg rfl ?_
    simp [hpc, TCPRunPc.lookingUp]
  case dataLimit flowID k data | dataWrite flowID k data =>
    simp only [record, hpc]
    refine h.goesOn hg ?_ ?_
    · cases ok <;> rfl
    · cases ok <;> simp [hpc, stop, TCPRunPc.lookingUp]
  all_goals
    simp only [record, hpc]
    refine h.goesOn hg rfl ?_
    simp [hpc, TCPRunPc.lookingUp]

theorem step_ordered (h : r.Ordered v now) (hverified : r.VerifiedBy v now label)
    (hstep : r.step label = some r') : r'.Ordered v now := by
  obtain ⟨s', hs', rfl⟩ := map_eq_some_iff.mp hstep
  cases label with
  | run frame ok n => exact runStep_ordered h hverified hs'
  | loop k data failed ok | callClose i | closer i =>
    exact h.beside (TCPSession.step_beside (by simp) hs')

/-- Each target got exactly the payloads whose lookup found its flow object, in order, up to the
write or the budget check that stopped it. These carry the id of the object and are those of the
TCP_DATA frames read, and no target is dialed unless the first frame was an AUTH that
`VerifySession` accepted. -/
theorem uploads_demultiplexed (v : Auth.Verifier) (now : ℤ) (maxFlows : ℤ)
    (labels : List TCPSessionStep) (r : RecordedSession)
    (hpath : Path step (VerifiedBy v now) (new maxFlows) labels r) :
    (∀ k, r.WrittenExactly k) ∧
    (∀ u ∈ r.uploads, ∀ k, u.found = some k → (r.session.flows k).id = u.flowID) ∧
    r.uploads.map (fun u => (u.flowID, u.data)) ++ r.session.run.lookingUp =
      r.read.tail.filterMap tcpDataOf ∧
    (0 < r.session.created → Accepted v now r.read) := by
  have hplaced := hpath.invariant (fun _ _ _ h _ hstep => step_placed h hstep) (new_placed maxFlows)
  have hordered := hpath.invariant (fun _ _ _ h hok hstep => step_ordered h hok hstep)
    (new_ordered v now maxFlows)
  exact ⟨hplaced.exactly, fun u hu k hk => (hplaced.found u hu k hk).2, hordered.order,
    hordered.dialed⟩

/-- The verifier of a fresh gateway. -/
def smokeVerifier : Auth.Verifier :=
  Auth.newVerifier Auth.constantCrypto Config.default.clientSecrets.lookup Config.default

def smokeAuth : Frame := ⟨frameAUTH, encodeAuthPayload
  ⟨ascii "smoke-client", 1760000000000, List.replicate 16 7, List.replicate 32 0, 3⟩⟩

/-- The client opens flows 1 and 2 and sends to both. The second write to flow 2 gets one byte
through, and the flow is closed. -/
def interleavedRun : List TCPSessionStep :=
  [.run none true 0, .run (some smokeAuth) true 0, .run none true 0, .run none true 0,
    .run (some ⟨frameOPENTCP, [0, 0, 0, 0, 0, 0, 0, 1, 1, 104, 0, 0, 80]⟩) true 0] ++
    List.replicate 6 (.run none true 0) ++
    [.run (some ⟨frameOPENTCP, [0, 0, 0, 0, 0, 0, 0, 2, 1, 104, 0, 0, 80]⟩) true 0] ++
    List.replicate 6 (.run none true 0) ++
    [.run (some ⟨frameTCPDATA, [0, 0, 0, 0, 0, 0, 0, 1, 7]⟩) true 0] ++
    List.replicate 3 (.run none true 0) ++
    [.run (some ⟨frameTCPDATA, [0, 0, 0, 0, 0, 0, 0, 2, 8, 9]⟩) true 0, .run none true 0,
      .run none true 0, .run none false 1] ++ List.replicate 3 (.run none true 0) ++
    [.run (some ⟨frameTCPDATA, [0, 0, 0, 0, 0, 0, 0, 1, 5]⟩) true 0, .run none true 0]

theorem interleavedRun_demultiplexed : ∃ r,
    Path step (VerifiedBy smokeVerifier 1760000000000000000) (new 2) interleavedRun r ∧
    (r.session.flows 0).written = [7] ∧ (r.session.flows 1).written = [8] ∧
    r.payloads 0 = [[7], [5]] ∧ r.payloads 1 = [[8, 9]] ∧ r.cut 0 = some 0 ∧ r.cut 1 = some 1 ∧
    (∀ k, r.WrittenExactly k) ∧ Accepted smokeVerifier 1760000000000000000 r.read := by
  refine Path.exists_of_run_imp (P := fun r => (r.session.flows 0).written = [7] ∧
      (r.session.flows 1).written = [8] ∧ r.payloads 0 = [[7], [5]] ∧ r.payloads 1 = [[8, 9]] ∧
      r.cut 0 = some 0 ∧ r.cut 1 = some 1 ∧ r.session.created = 2)
    (by decide +kernel)
    fun r hpath ⟨hzero, hone, hpayloads, hpayloads', hcut, hcut', hcreated⟩ => ?_
  obtain ⟨hexactly, -, -, haccepted⟩ := uploads_demultiplexed _ _ 2 interleavedRun r hpath
  exact ⟨hzero, hone, hpayloads, hpayloads', hcut, hcut', hexactly,
    haccepted (by omega)⟩

end RecordedSession
end VlfProto.Session
