import VlfProto.Session.QUIC.Session

/-! # The steps of the control loop -/

namespace VlfProto.Session
open Platform Transition Option

/-- A frame that has been read leads here. -/
def ControlPc.entry : ControlPc → Bool
  | .readFrame | .reply _ | .openCheck _ _ | .closeFlow (.delete _ _) | .closing => true
  | _ => false

namespace QUICSession

variable {s s' : QUICSession} {ok : Bool} {frame : Option Frame}

theorem readFrame_entry {pc : ControlPc} (h : frame.elim (some .closing) dispatch = some pc) :
    pc.entry := by
  cases frame with
  | none => cases h; rfl
  | some f =>
    simp only [elim_some, dispatch] at h
    split_ifs at h
    all_goals first | (cases h; rfl) | (split at h <;> cases h <;> rfl)

inductive ControlCase (s : QUICSession) (frame : Option Frame) (ok : Bool) : QUICSession → Prop
  | readFrame {pc : ControlPc} (hpc : s.control = .readFrame)
      (hnext : frame.elim (some .closing) dispatch = some pc) (hentry : pc.entry) :
      ControlCase s frame ok { s with control := pc }
  | reply {f : SessionFrame} (hpc : s.control = .reply f) :
      ControlCase s frame ok { s with frames := s.frames ++ [(f, ok)], control := .readFrame }
  | openCheck {kind : FlowKind} {p : OpenPayload} (hpc : s.control = .openCheck kind p) :
      ControlCase s frame ok { s with control := s.openCheck kind p }
  | dial {kind : FlowKind} {flowID : ℕ} (hpc : s.control = .dial kind flowID) (hok : ok = true) :
      ControlCase s frame ok
        { s.createFlow flowID kind with control := .insert ⟨kind, s.created kind⟩ flowID }
  | dialFails {kind : FlowKind} {flowID : ℕ} (hpc : s.control = .dial kind flowID)
      (hok : ok = false) :
      ControlCase s frame ok { s with control := .reply (.openFail kind flowID .dialError) }
  | insert {f : FlowRef} {flowID : ℕ} (hpc : s.control = .insert f flowID)
      (hnone : (s.table f.kind).lookup flowID = none) :
      ControlCase s frame ok { s.file f flowID with control := .writeOpenOK f flowID }
  | duplicate {f : FlowRef} {flowID : ℕ} (hpc : s.control = .insert f flowID)
      (hsome : ((s.table f.kind).lookup flowID).isSome) :
      ControlCase s frame ok { s with control := .closeDuplicate f flowID }
  | closeDuplicate {f : FlowRef} {flowID : ℕ} (hpc : s.control = .closeDuplicate f flowID) :
      ControlCase s frame ok { s.dropFlow f with
        control := .reply (.openFail f.kind flowID (.text "flow_id already exists")) }
  | writeOpenOK {f : FlowRef} {flowID : ℕ} (hpc : s.control = .writeOpenOK f flowID) :
      ControlCase s frame ok { s with
        frames := s.frames ++ [(.openOK f.kind flowID, ok)]
        control := if ok then afterOpenOK f else .closeFlow (.delete flowID false) }
  | spawn {k : ℕ} (hpc : s.control = .spawn k) :
      ControlCase s frame ok { s.setReader k .read with wg := s.wg + 1, control := .readFrame }
  | closeFlow {pc : SessionCloseFlowPc} {r : QUICSession × Option SessionCloseFlowPc}
      (hpc : s.control = .closeFlow pc) (hr : s.closeFlowStep .control ok pc = some r) :
      ControlCase s frame ok { r.1 with control := r.2.elim .readFrame .closeFlow }
  | closing {r : QUICSession × Bool} (hpc : s.control = .closing)
      (hr : s.closeStep .control = some r) :
      ControlCase s frame ok (if r.2 then { r.1 with control := .exiting } else r.1)
  | exiting (hpc : s.control = .exiting) :
      ControlCase s frame ok { s with wg := s.wg - 1, control := .stopped }

theorem writeFrame_eq {f : SessionFrame} (h : s.writeFrame f ok = some s') :
    s' = { s with frames := s.frames ++ [(f, ok)] } := by
  obtain ⟨-, h⟩ := ite_none_left_eq_some.mp h
  exact (some.inj h).symm

theorem controlStep_cases (h : s.controlStep frame ok = some s') : s.ControlCase frame ok s' := by
  cases hpc : s.control <;>
    simp only [controlStep, hpc, map_eq_some_iff, some.injEq, reduceCtorEq] at h
  case readFrame =>
    obtain ⟨pc, hnext, rfl⟩ := h
    exact .readFrame hpc hnext (readFrame_entry hnext)
  case reply f =>
    obtain ⟨t, hwrite, rfl⟩ := h
    obtain rfl := writeFrame_eq hwrite
    exact .reply hpc
  case openCheck kind p => exact h ▸ .openCheck hpc
  case dial kind flowID =>
    split_ifs at h with hrefused hok
    · cases h
      exact .dial hpc hok
    · cases h
      exact .dialFails hpc (by simpa using hok)
  case insert f flowID =>
    split_ifs at h with hsome
    · cases h
      exact .duplicate hpc hsome
    · cases h
      exact .insert hpc (by simpa using hsome)
  case closeDuplicate f flowID => exact h ▸ .closeDuplicate hpc
  case writeOpenOK f flowID =>
    obtain ⟨t, hwrite, rfl⟩ := h
    obtain rfl := writeFrame_eq hwrite
    exact .writeOpenOK hpc
  case spawn k => exact h ▸ .spawn hpc
  case closeFlow pc =>
    obtain ⟨r, hr, rfl⟩ := h
    exact .closeFlow hpc hr
  case closing =>
    obtain ⟨r, hr, rfl⟩ := h
    exact .closing hpc hr
  case exiting => exact h ▸ .exiting hpc

/-- An open is refused, or goes on to dial with an id and below the limit. -/
theorem openCheck_cases (s : QUICSession) (kind : FlowKind) (p : OpenPayload) :
    (∃ reason, s.openCheck kind p = .reply (.openFail kind p.flowID reason)) ∨
      s.openCheck kind p = .dial kind p.flowID ∧ p.flowID ≠ 0 ∧
        s.flowCount < s.cfg.maxFlows := by
  unfold openCheck
  split_ifs with hzero hmax
  · exact .inl ⟨_, rfl⟩
  · exact .inl ⟨_, rfl⟩
  · split
    · exact .inl ⟨_, rfl⟩
    · exact .inr ⟨rfl, hzero, not_le.mp hmax⟩

end QUICSession
end VlfProto.Session
