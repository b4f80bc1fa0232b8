import VlfProto.Session.QUIC.OwnFlow

/-! # `Run`, the control loop and the other loops of the session -/

namespace VlfProto.Session
open Platform Transition Function Option

/-- The control loop has no flow in hand. -/
def ControlPc.handsOff : ControlPc → Bool
  | .insert _ _ => false
  | .writeOpenOK _ _ => false
  | .spawn _ => false
  | _ => true

theorem ControlPc.handsOff_of_entry {pc : ControlPc} (h : pc.entry) : pc.handsOff := by
  cases pc <;> first | rfl | cases h

namespace QUICSession

variable {s s' : QUICSession} {frame : Option Frame} {ok : Bool} {now : ℤ}

theorem start_drifts (s : QUICSession) : s.Drifts { s.start with run := .waitDone } where
  created _ := le_rfl
  flowID f _ := by
    obtain ⟨kind, k⟩ := f
    cases kind <;> rfl
  table kind id k h := by cases kind <;> exact h
  held f hf := by
    obtain ⟨kind, k⟩ := f
    cases kind with
    | tcp => exact .inl hf
    | udp =>
      rcases hf with hreader | hcontrol | ⟨i, hi⟩
      · exact .inl (.inl hreader)
      · cases hcontrol
      · change (if i < s.workerCount then WorkerPc.receive else .notStarted).aim = some k at hi
        split_ifs at hi <;> cases hi
  closes g f pc hg := by
    cases g with
    | stream i | udpReader k => exact .inl hg
    | worker i =>
      simp only [closing, start] at hg
      split_ifs at hg
    | _ => cases hg
  inserts f id hf := by cases hf
  writes i k id payload hw := by
    change (if i < s.workerCount then WorkerPc.receive else .notStarted) = _ at hw
    split_ifs at hw
  stream k i h := .inl h
  early i h := h
  accepted i h := ⟨h, fun hnot => hnot⟩

theorem runStep_drifts (h : s.runStep frame ok = some s') : s.Drifts s' := by
  rcases runStep_still h with hstill | ⟨-, rfl⟩
  · exact { hstill.toQuiet.drifts with }
  · exact start_drifts s

theorem createFlow_drifts (s : QUICSession) (flowID : ℕ) (kind : FlowKind) :
    s.Drifts { s.createFlow flowID kind with
      control := .insert ⟨kind, s.created kind⟩ flowID } where
  created kind' := by
    cases kind <;> cases kind' <;> first | exact le_rfl | exact Nat.le_succ _
  flowID f hf := by
    obtain ⟨kind', k⟩ := f
    cases kind <;> cases kind'
    · exact congrArg SessionTCPFlow.id (update_of_ne (Nat.ne_of_lt hf) ..)
    · rfl
    · rfl
    · exact congrArg SessionUDPFlow.id (update_of_ne (Nat.ne_of_lt hf) ..)
  table kind' id k h := by cases kind <;> cases kind' <;> exact h
  held f hf := by
    obtain ⟨kind', k⟩ := f
    cases kind' with
    | tcp => cases kind <;> exact .inl hf
    | udp =>
      rcases hf with hreader | hcontrol | hworker
      · cases kind with
        | tcp => exact .inl (.inl hreader)
        | udp =>
          by_cases hnew : k = s.udpCreated
          · subst hnew
            simp [createFlow, QUICSession.setUDP, UDPReadPc.mayClose] at hreader
          · simp only [createFlow, QUICSession.setUDP, update_of_ne hnew] at hreader
            exact .inl (.inl hreader)
      · cases hcontrol
      · cases kind <;> exact .inl (.inr (.inr hworker))
  closes g f pc hg := by
    cases kind with
    | tcp => cases g <;> exact .inl hg
    | udp =>
      cases g with
      | udpReader k =>
        by_cases hnew : k = s.udpCreated
        · subst hnew
          simp [closing, createFlow, QUICSession.setUDP] at hg
        · simp only [closing, createFlow, QUICSession.setUDP, update_of_ne hnew] at hg
          exact .inl hg
      | _ => exact .inl hg
  inserts f id hf := by
    obtain ⟨rfl, rfl⟩ := ControlPc.insert.inj hf
    cases kind <;>
      exact .inr ⟨Nat.lt_succ_self _,
        by simp [QUICSession.flowID, created, createFlow, setTCP, setUDP]⟩
  writes i k id payload hw := by cases kind <;> exact .inl hw
  stream k i hk := by
    cases kind with
    | tcp =>
      by_cases hnew : k = s.tcpCreated
      · subst hnew
        simp [createFlow, setTCP] at hk
      · simp only [createFlow, setTCP, update_of_ne hnew] at hk
        exact .inl hk
    | udp => exact .inl hk
  early i h := by cases kind <;> exact h
  accepted i h := by cases kind <;> exact ⟨h, fun hnot => hnot⟩

/-- The control loop files a flow. -/
def Files (s : QUICSession) (f : FlowRef) (flowID : ℕ) : Prop :=
  s.control = .insert f flowID ∧ (s.table f.kind).lookup flowID = none

theorem Drifts.handsOff {pc : ControlPc} (hd : s.Drifts s') (hpc : pc.handsOff) :
    s.Drifts { s' with control := pc } := by
  apply hd.setControl
  · intro k hk
    cases pc <;> simp_all [ControlPc.handsOff, ControlPc.starts]
  · rintro f id rfl
    cases hpc

theorem openCheck_handsOff (s : QUICSession) (kind : FlowKind) (p : OpenPayload) :
    (s.openCheck kind p).handsOff := by
  rcases s.openCheck_cases kind p with ⟨reason, h⟩ | ⟨h, -⟩ <;> rw [h] <;> rfl

theorem controlStep_drifts (hfiles : ∀ f flowID, ¬s.Files f flowID)
    (h : s.controlStep frame ok = some s') : s.Drifts s' := by
  have hrefl := (Quiet.refl s).drifts
  cases controlStep_cases h with
  | readFrame _ _ hentry => exact hrefl.handsOff (ControlPc.handsOff_of_entry hentry)
  | @reply f hpc =>
    have hwritten : s.Drifts { s with frames := s.frames ++ [(f, ok)] } := { hrefl with }
    exact hwritten.handsOff rfl
  | openCheck => exact hrefl.handsOff (openCheck_handsOff s _ _)
  | dial => exact createFlow_drifts s _ _
  | dialFails | duplicate => exact hrefl.handsOff rfl
  | insert hpc hnone => exact absurd ⟨hpc, hnone⟩ (hfiles _ _)
  | closeDuplicate => exact (s.dropFlow_shuts _).toQuiet.drifts.handsOff rfl
  | @writeOpenOK f flowID hpc =>
    have hwritten : s.Drifts { s with frames := s.frames ++ [(.openOK f.kind flowID, ok)] } :=
      { hrefl with }
    obtain ⟨kind, k⟩ := f
    cases ok with
    | false => exact hwritten.handsOff rfl
    | true =>
      cases kind with
      | tcp => exact hwritten.handsOff rfl
      | udp =>
        apply hwritten.setControl
        · intro j hj
          exact .inr (.inl (by rw [hpc]; exact hj))
        · rintro f id ⟨⟩
  | @spawn k hpc =>
    have hheld : s.Held ⟨.udp, k⟩ := .inr (.inl (by rw [hpc]; rfl))
    have hspawned : s.Drifts
        ({ s with wg := s.wg + 1 }.setUDP k { s.udp k with reader := .read }) :=
      Quiet.setUDP (.of_eq rfl) rfl (fun _ => hheld) (by rintro pc ⟨⟩)
    exact hspawned.handsOff rfl
  | @closeFlow pc r hpc hr =>
    apply (closeFlowStep_shuts hr).toQuiet.drifts.handsOff
    cases r.2 <;> rfl
  | closing hpc hr =>
    have hquiet := (closeStep_shuts hr).toQuiet
    split_ifs
    · exact hquiet.drifts.handsOff rfl
    · exact hquiet.drifts
  | exiting =>
    have hdone : s.Drifts { s with wg := s.wg - 1 } := Quiet.drifts (.of_eq rfl)
    exact hdone.handsOff rfl

end QUICSession
end VlfProto.Session
