import VlfProto.Session.TCPSession

/-! # The steps of `Run` -/

namespace VlfProto.Session
open Platform Transition Option

/-- A frame that has been read leads here. -/
def TCPRunPc.entry : TCPRunPc → Bool
  | .authFail _ | .register | .readFrame | .reply _ | .openCheck _ | .closeFlow (.delete _ _)
  | .dataLookup _ _ | .unregister | .deferredClose => true
  | _ => false

namespace TCPSession

variable {s s' : TCPSession} {n : ℕ} {ok : Bool} {frame : Option Frame} {pc : TCPRunPc}

theorem readFirst_entry (h : frame.elim (some .deferredClose) (authenticate · ok) = some pc) :
    pc.entry := by
  cases frame with
  | none => cases h; rfl
  | some f =>
    simp only [elim_some, authenticate] at h
    split_ifs at h
    all_goals first | (cases h; rfl) | (split at h <;> cases h <;> rfl)

theorem readFrame_entry (h : frame.elim (some .unregister) dispatch = some pc) : pc.entry := by
  cases frame with
  | none => cases h; rfl
  | some f =>
    simp only [elim_some, dispatch] at h
    split_ifs at h
    all_goals first | (cases h; rfl) | (split at h <;> cases h <;> rfl)

theorem writeFrame_cases {f : ServerFrame} (h : s.writeFrame f ok = some s') :
    s' = { s with frames := s.frames ++ [(f, ok)] } ∧ (ok → s.connClosed = false) := by
  unfold writeFrame at h
  split_ifs at h with hrefused
  refine ⟨(some.inj h).symm, fun hok => ?_⟩
  simpa [hok] using hrefused

inductive CloseFlowCase (s : TCPSession) (ok : Bool) :
    CloseFlowPc → TCPSession × Option CloseFlowPc → Prop
  | gone {flowID : ℕ} {notify : Bool} (hnone : s.tcpFlows.lookup flowID = none) :
      CloseFlowCase s ok (.delete flowID notify) (s, none)
  | delete {flowID k : ℕ} {notify : Bool} (hlookup : s.tcpFlows.lookup flowID = some k) :
      CloseFlowCase s ok (.delete flowID notify)
        ({ s with tcpFlows := s.tcpFlows.erase flowID }, some (.closeTarget k flowID notify))
  | closeTarget {flowID k : ℕ} {notify : Bool} : CloseFlowCase s ok (.closeTarget k flowID notify)
      ({ s.closeTarget k with tcpStreams := s.tcpStreams - 1 },
        if notify then some (.notify flowID) else none)
  | notify {flowID : ℕ} : CloseFlowCase s ok (.notify flowID)
      ({ s with frames := s.frames ++ [(.closeFlow flowID, ok)] }, none)

theorem closeFlowStep_cases {pc : CloseFlowPc} {r : TCPSession × Option CloseFlowPc}
    (h : s.closeFlowStep ok pc = some r) : s.CloseFlowCase ok pc r := by
  cases pc with
  | delete flowID notify =>
    simp only [closeFlowStep] at h
    split at h <;> cases h
    case h_1 hnone => exact .gone hnone
    case h_2 k hlookup => exact .delete hlookup
  | closeTarget k flowID notify =>
    cases h
    exact .closeTarget
  | notify flowID =>
    obtain ⟨s₁, hwrite, rfl⟩ := map_eq_some_iff.mp h
    obtain ⟨rfl, -⟩ := writeFrame_cases hwrite
    exact .notify

inductive RunCase (s : TCPSession) (frame : Option Frame) (ok : Bool) (n : ℕ) : TCPSession → Prop
  | setDeadline (hpc : s.run = .setDeadline) :
      RunCase s frame ok n { s with run := if ok then .readFirst else .deferredClose }
  | readFirst {pc : TCPRunPc} (hpc : s.run = .readFirst)
      (hnext : frame.elim (some .deferredClose) (authenticate · ok) = some pc) (hentry : pc.entry) :
      RunCase s frame ok n { s with run := pc }
  | authFail {reason : String} (hpc : s.run = .authFail reason)
    (hconn : ok → s.connClosed = false) :
      RunCase s frame ok n
        { s with frames := s.frames ++ [(.authFail reason, ok)], run := .deferredClose }
  | register (hpc : s.run = .register) :
      RunCase s frame ok n { s with registered := true, run := .writeAuthOK }
  | writeAuthOK (hpc : s.run = .writeAuthOK) (hconn : ok → s.connClosed = false) :
      RunCase s frame ok n { s with
        frames := s.frames ++ [(.authOK, ok)]
        run := if ok then .readFrame else .unregister }
  | readFrame {pc : TCPRunPc} (hpc : s.run = .readFrame)
      (hnext : frame.elim (some .unregister) dispatch = some pc) (hentry : pc.entry) :
      RunCase s frame ok n { s with run := pc }
  | reply {f : ServerFrame} (hpc : s.run = .reply f) (hconn : ok → s.connClosed = false) :
      RunCase s frame ok n { s with frames := s.frames ++ [(f, ok)], run := .readFrame }
  | openCheck {p : OpenPayload} (hpc : s.run = .openCheck p) :
      RunCase s frame ok n { s with run := s.openCheck p }
  | dial {flowID : ℕ} (hpc : s.run = .dial flowID) (hok : ok = true) :
      RunCase s frame ok n { s.createFlow flowID with run := .insert flowID s.created }
  | dialFails {flowID : ℕ} (hpc : s.run = .dial flowID) (hok : ok = false) :
      RunCase s frame ok n { s with run := .reply (.openTCPFail flowID .dialError) }
  | insert {flowID k : ℕ} (hpc : s.run = .insert flowID k)
      (hnone : s.tcpFlows.lookup flowID = none) :
      RunCase s frame ok n
        { s with tcpFlows := s.tcpFlows.insert flowID k, run := .countStream flowID k }
  | duplicate {flowID k : ℕ} (hpc : s.run = .insert flowID k)
      (hsome : (s.tcpFlows.lookup flowID).isSome) :
      RunCase s frame ok n { s with run := .closeDuplicate flowID k }
  | closeDuplicate {flowID k : ℕ} (hpc : s.run = .closeDuplicate flowID k) :
      RunCase s frame ok n { s.closeTarget k with
        run := .reply (.openTCPFail flowID (.text "flow_id already exists")) }
  | countStream {flowID k : ℕ} (hpc : s.run = .countStream flowID k) :
      RunCase s frame ok n { s with tcpStreams := s.tcpStreams + 1, run := .writeOpenOK flowID k }
  | writeOpenOK {flowID k : ℕ} (hpc : s.run = .writeOpenOK flowID k)
      (hconn : ok → s.connClosed = false) :
      RunCase s frame ok n { s with
        frames := s.frames ++ [(.openTCPOK flowID, ok)]
        run := if ok then .spawn k else .closeFlow (.delete flowID false) }
  | spawn {k : ℕ} (hpc : s.run = .spawn k) :
      RunCase s frame ok n { s.setLoop k .read with wg := s.wg + 1, run := .readFrame }
  | closeFlow {pc : CloseFlowPc} {r : TCPSession × Option CloseFlowPc}
      (hpc : s.run = .closeFlow pc) (hr : s.closeFlowStep ok pc = some r) :
      RunCase s frame ok n { r.1 with run := r.2.elim .readFrame .closeFlow }
  | lookupFails {flowID : ℕ} {data : Bytes} (hpc : s.run = .dataLookup flowID data)
      (hnone : s.tcpFlows.lookup flowID = none) :
      RunCase s frame ok n { s with run := .closeFlow (.delete flowID true) }
  | lookup {flowID k : ℕ} {data : Bytes} (hpc : s.run = .dataLookup flowID data)
      (hlookup : s.tcpFlows.lookup flowID = some k) :
      RunCase s frame ok n
        { s with run := if data = [] then .readFrame else .dataLimit flowID k data }
  | dataLimit {flowID k : ℕ} {data : Bytes} (hpc : s.run = .dataLimit flowID k data) :
      RunCase s frame ok n { s with
        limiterEntry := true
        run := if ok then .dataWrite flowID k data else .closing }
  | dataWrite {flowID k : ℕ} {data : Bytes} (hpc : s.run = .dataWrite flowID k data) :
      RunCase s frame ok n { s.setFlow k { s.flows k with
          written := (s.flows k).written ++ if ok then data else data.take n } with
        run := if ok then .readFrame else .closeFlow (.delete flowID true) }
  | closing {r : TCPSession × Bool} (hpc : s.run = .closing) (hr : s.closeStep .run = some r) :
      RunCase s frame ok n (if r.2 then { r.1 with run := .unregister } else r.1)
  | unregister (hpc : s.run = .unregister) :
      RunCase s frame ok n
        { s with registered := false, limiterEntry := false, run := .deferredClose }
  | deferredClose {r : TCPSession × Bool} (hpc : s.run = .deferredClose)
      (hr : s.closeStep .run = some r) :
      RunCase s frame ok n (if r.2 then { r.1 with run := .returned } else r.1)

theorem runStep_cases (h : s.runStep frame ok n = some s') : s.RunCase frame ok n s' := by
  cases hpc : s.run <;> simp only [runStep, hpc, map_eq_some_iff, some.injEq, reduceCtorEq] at h
  case setDeadline => exact h ▸ .setDeadline hpc
  case readFirst =>
    obtain ⟨pc, hnext, rfl⟩ := h
    exact .readFirst hpc hnext (readFirst_entry hnext)
  case register => exact h ▸ .register hpc
  case readFrame =>
    obtain ⟨pc, hnext, rfl⟩ := h
    exact .readFrame hpc hnext (readFrame_entry hnext)
  case authFail reason =>
    obtain ⟨s₁, hwrite, rfl⟩ := h
    obtain ⟨rfl, hconn⟩ := writeFrame_cases hwrite
    exact .authFail hpc hconn
  case writeAuthOK =>
    obtain ⟨s₁, hwrite, rfl⟩ := h
    obtain ⟨rfl, hconn⟩ := writeFrame_cases hwrite
    exact .writeAuthOK hpc hconn
  case reply f =>
    obtain ⟨s₁, hwrite, rfl⟩ := h
    obtain ⟨rfl, hconn⟩ := writeFrame_cases hwrite
    exact .reply hpc hconn
  case writeOpenOK flowID k =>
    obtain ⟨s₁, hwrite, rfl⟩ := h
    obtain ⟨rfl, hconn⟩ := writeFrame_cases hwrite
    exact .writeOpenOK hpc hconn
  case openCheck p => exact h ▸ .openCheck hpc
  case dial flowID =>
    split_ifs at h with hrefused hok
    · cases h
      exact .dial hpc hok
    · cases h
      exact .dialFails hpc (by simpa using hok)
  case insert flowID k =>
    split_ifs at h with hsome
    · cases h
      exact .duplicate hpc hsome
    · cases h
      exact .insert hpc (by simpa using hsome)
  case closeDuplicate flowID k => exact h ▸ .closeDuplicate hpc
  case countStream flowID k => exact h ▸ .countStream hpc
  case spawn k => exact h ▸ .spawn hpc
  case closeFlow pc =>
    obtain ⟨r, hr, rfl⟩ := h
    exact .closeFlow hpc hr
  case dataLookup flowID data =>
    split at h
    case h_1 hnone =>
      cases h
      exact .lookupFails hpc hnone
    case h_2 k hlookup =>
      cases h
      exact .lookup hpc hlookup
  case dataLimit flowID k data => exact h ▸ .dataLimit hpc
  case dataWrite flowID k data =>
    obtain ⟨-, rfl⟩ := of_guard_not h
    exact .dataWrite hpc
  case closing =>
    obtain ⟨r, hclose, rfl⟩ := h
    exact .closing hpc hclose
  case unregister => exact h ▸ .unregister hpc
  case deferredClose =>
    obtain ⟨r, hclose, rfl⟩ := h
    exact .deferredClose hpc hclose

end TCPSession
end VlfProto.Session
