import VlfProto.Client.Session

/-! # Frames between OPEN_TCP_OK and the registration of the flow -/

namespace VlfProto.Client
open Platform Transition Function

namespace ClientState

variable {s s' : ClientState} {f : ℕ}

/-- The call failed or is about to, the flow is being closed, or the session ends. -/
def GivenUp (s : ClientState) (f : ℕ) : Prop :=
  (s.calls f).pc ∈ [.givingUp, .unregistered, .failed] ∨ s.closing f ≠ .live ∨ s.shutdown ≠ .idle

instance (s : ClientState) (f : ℕ) : Decidable (s.GivenUp f) := by
  unfold GivenUp
  infer_instance

/-- The frame that `readLoop` holds for a flow. -/
def inHand (loop : LoopPc) (f : ℕ) : List GatewayFrame :=
  match loop with
  | .lookup f' frame => if f' = f then [frame] else []
  | .push f' frame => if f' = f then [frame] else []
  | _ => []

/-- The frames of a flow that were sent and not handled yet. -/
def inFlight (s : ClientState) (f : ℕ) : List GatewayFrame :=
  inHand s.loop f ++ s.wire.filter fun frame => frame.flow? = some f

/-- Every frame sent for a flow was delivered or is on its way. -/
def Delivers (s : ClientState) : Prop :=
  ∀ f, ¬s.GivenUp f → s.sent f = s.delivered f ++ s.inFlight f

/-- `readLoop` looks a flow up only when its `openTCPFlow` call has entered it
into the table, or the client has given the flow up. -/
def LooksUpRegistered (s : ClientState) : ClientStep → Prop
  | .loop =>
    match s.loop with
    | .lookup f _ => (s.calls f).pc = .opened ∨ s.GivenUp f
    | _ => True
  | _ => True

/-- A push finds room in its channel. -/
def HasRoom (s : ClientState) : ClientStep → Prop
  | .loop =>
    match s.loop with
    | .push f (.data _ _) => (s.objects f).dataCh.length < FramedFlow.dataCap
    | .push f _ => (s.objects f).errCh.length < FramedFlow.errCap
    | _ => True
  | _ => True

instance (s : ClientState) (a : ClientStep) : Decidable (s.LooksUpRegistered a) := by
  unfold LooksUpRegistered
  split
  · split <;> infer_instance
  · infer_instance

instance (s : ClientState) (a : ClientStep) : Decidable (s.HasRoom a) := by
  unfold HasRoom
  split
  · split <;> infer_instance
  · infer_instance

structure Sound (s : ClientState) : Prop where
  registered : ∀ f, (s.calls f).pc = .opened → s.closing f = .live → s.shutdown = .idle →
    f ∈ s.flows
  open_data : ∀ f, (s.objects f).dataClosed = true → s.closing f = .closed
  delivers : s.Delivers

theorem initial_sound : initial.Sound where
  registered f h := by cases h
  open_data f h := by cases h
  delivers f _ := rfl

/-- A step that moves no frame keeps `Delivers` if it revokes no surrender. -/
theorem Delivers.of_quiet (h : s.Delivers) (hup : ∀ f, s.GivenUp f → s'.GivenUp f)
    (hsent : s'.sent = s.sent) (hdelivered : s'.delivered = s.delivered)
    (hflight : ∀ f, ¬s'.GivenUp f → s'.inFlight f = s.inFlight f) : s'.Delivers := by
  intro f hf
  rw [hsent, hdelivered, hflight f hf]
  exact h f fun hgiven => hf (hup f hgiven)

/-- A call moves to another place; what it was is kept for the other calls. -/
theorem Sound.setCall (h : s.Sound) {call : OpenCall}
    (hopened : call.pc = .opened → (s.calls f).pc = .opened)
    (hup : (s.calls f).pc ∈ [.givingUp, .unregistered, .failed] →
      call.pc ∈ [.givingUp, .unregistered, .failed]) : (s.setCall f call).Sound := by
  have hcalls (f' : ℕ) : ((s.setCall f call).calls f') = if f' = f then call else s.calls f' := by
    simp [ClientState.setCall, update_apply]
  refine ⟨fun f' hpc => ?_, h.open_data, h.delivers.of_quiet (fun f' => ?_) rfl rfl fun _ _ => rfl⟩
  · rw [hcalls] at hpc
    split_ifs at hpc with heq
    · exact h.registered f' (heq ▸ hopened hpc)
    · exact h.registered f' hpc
  · rintro (hpc | hrest)
    · refine .inl ?_
      rw [hcalls]
      split_ifs with heq
      · exact hup (heq ▸ hpc)
      · exact hpc
    · exact .inr hrest

theorem Sound.setPc (h : s.Sound) {pc : OpenPc} (hopened : pc ≠ .opened)
    (hup : (s.calls f).pc ∈ [.givingUp, .unregistered, .failed] →
      pc ∈ [.givingUp, .unregistered, .failed]) : (s.setPc f pc).Sound :=
  h.setCall (fun heq => absurd heq hopened) hup

theorem register_sound (h : s.Sound) (hstep : s.register f = some s') : s'.Sound := by
  unfold register at hstep
  split_ifs at hstep with hpc
  cases hstep
  have h' : Sound { s with pendingTCP := insert f s.pendingTCP } :=
    ⟨h.registered, h.open_data, h.delivers⟩
  exact h'.setPc (by simp) (by simp [hpc])

theorem writeOpen_sound {ok : Bool} (h : s.Sound) (hstep : s.writeOpen f ok = some s') :
    s'.Sound := by
  unfold writeOpen at hstep
  split_ifs at hstep with hpc
  · cases hstep
    have h' : Sound { s with requested := insert f s.requested } :=
      ⟨h.registered, h.open_data, h.delivers⟩
    exact h'.setPc (by simp) (by simp [hpc])
  · cases hstep
    exact h.setCall (by simp) (by simp)

theorem receive_sound (h : s.Sound) (hstep : s.receive f = some s') : s'.Sound := by
  unfold receive at hstep
  by_cases hpc : (s.calls f).pc = .waiting
  · rw [if_pos hpc] at hstep
    split at hstep
    · cases hstep
      exact h.setCall (by simp) (by simp [hpc])
    · cases hstep
      exact h.setCall (by simp) (by simp)
    · split_ifs at hstep
      cases hstep
      exact h.setPc (by simp) (by simp)
  · simp [hpc] at hstep

theorem timeout_sound (h : s.Sound) (hstep : s.timeout f = some s') : s'.Sound := by
  unfold timeout at hstep
  split_ifs at hstep
  cases hstep
  exact h.setCall (by simp) (by simp)

theorem unregister_sound (h : s.Sound) (hstep : s.unregister f = some s') : s'.Sound := by
  unfold unregister at hstep
  split_ifs at hstep with hpc
  · cases hstep
    have h' : Sound { s with pendingTCP := s.pendingTCP.erase f } :=
      ⟨h.registered, h.open_data, h.delivers⟩
    exact h'.setPc (by simp) (by simp)
  · cases hstep
    exact h.setCall (by simp) (by simp)

theorem closeReply_sound (h : s.Sound) (hstep : s.closeReply f = some s') : s'.Sound := by
  unfold closeReply at hstep
  split_ifs at hstep
  · cases hstep
    exact ⟨h.registered, h.open_data, h.delivers⟩
  · cases hstep
    exact h.setCall (by simp) (by simp)

theorem insertFlow_sound (h : s.Sound) (hstep : s.insertFlow f = some s') : s'.Sound := by
  unfold insertFlow at hstep
  split_ifs at hstep with hpc
  cases hstep
  refine ⟨fun f' hopened hlive hidle => ?_, fun f' hclosed => ?_, ?_⟩
  · by_cases heq : f' = f
    · exact heq ▸ Finset.mem_insert_self f s.flows
    · refine Finset.mem_insert_of_mem (h.registered f' ?_ hlive hidle)
      simpa [ClientState.setPc, ClientState.setCall, setObject, heq] using hopened
  · by_cases heq : f' = f
    · simp [ClientState.setPc, ClientState.setCall, setObject, heq, FramedFlow.new] at hclosed
    · refine h.open_data f' ?_
      simpa [ClientState.setPc, ClientState.setCall, setObject, heq] using hclosed
  · refine h.delivers.of_quiet (fun f' => ?_) rfl rfl fun _ _ => rfl
    rintro (hgiven | hrest)
    · refine .inl ?_
      have hne : f' ≠ f := by
        rintro rfl
        simp [hpc] at hgiven
      simpa [ClientState.setPc, ClientState.setCall, setObject, hne] using hgiven
    · exact .inr hrest

theorem Sound.setObject (h : s.Sound) {flow : FramedFlow}
    (hclosed : flow.dataClosed = true → s.closing f = .closed) : (s.setObject f flow).Sound := by
  refine ⟨h.registered, fun f' hf' => ?_, h.delivers⟩
  by_cases heq : f' = f
  · subst heq
    exact hclosed (by simpa [ClientState.setObject] using hf')
  · exact h.open_data f' (by simpa [ClientState.setObject, heq] using hf')

theorem readFlow_sound {n : ℕ} {branch : Branch} (h : s.Sound)
    (hstep : s.readFlow f n branch = some s') : s'.Sound := by
  unfold readFlow at hstep
  split_ifs at hstep
  obtain ⟨⟨flow, result⟩, hread, rfl⟩ := Option.map_eq_some_iff.mp hstep
  refine h.setObject fun hclosed => h.open_data f ?_
  cases result with
  | data bytes => rw [← (FramedFlow.read_data hread).2, hclosed]
  | fail err => rw [← (FramedFlow.read_fail hread).2.2.2, hclosed]

theorem closeFlow_sound (h : s.Sound) (hstep : s.closeFlow f = some s') : s'.Sound := by
  have hclosing (pc : FlowClosePc) (hpc : pc ≠ .live)
      (hclosed : s.closing f = .closed → pc = .closed) :
      Sound { s with closing := update s.closing f pc } := by
    refine ⟨fun f' hopened hlive hidle => ?_, fun f' hf' => ?_,
      h.delivers.of_quiet (fun f' => ?_) rfl rfl fun _ _ => rfl⟩
    · by_cases heq : f' = f
      · simp [heq, hpc] at hlive
      · exact h.registered f' hopened (by simpa [heq] using hlive) hidle
    · by_cases heq : f' = f
      · subst heq
        simpa using hclosed (h.open_data f' hf')
      · simpa [heq] using h.open_data f' hf'
    · rintro (hgiven | hlive | hidle)
      · exact .inl hgiven
      · refine .inr (.inl ?_)
        by_cases heq : f' = f
        · simpa [heq] using hpc
        · simpa [heq] using hlive
      · exact .inr (.inr hidle)
  unfold closeFlow at hstep
  split at hstep
  · next hlive =>
    split_ifs at hstep
    cases hstep
    have h' := hclosing .removed (by simp) (by simp [hlive])
    refine ⟨fun f' hopened hlive' hidle => ?_, h'.open_data, h'.delivers⟩
    refine Finset.mem_erase.mpr ⟨?_, h'.registered f' hopened hlive' hidle⟩
    rintro rfl
    simp at hlive'
  · next hremoved =>
    cases hstep
    exact hclosing .written (by simp) (by simp [hremoved])
  · next hwritten =>
    cases hstep
    exact (hclosing .closed (by simp) (by simp)).setObject (by simp)
  · cases hstep

theorem Sound.of_shutdown (h : s.Sound) (hpc : s'.shutdown ≠ .idle)
    (hclosing : s'.closing = s.closing)
    (hobjects : ∀ f, (s'.objects f).dataClosed = (s.objects f).dataClosed) : s'.Sound where
  registered f _ _ hidle := absurd hidle hpc
  open_data f hf := by
    rw [hclosing]
    exact h.open_data f (hobjects f ▸ hf)
  delivers f hf := absurd (.inr (.inr hpc)) hf

theorem shutdownStep_sound {err : FlowError} (h : s.Sound)
    (hstep : s.shutdownStep err = some s') : s'.Sound := by
  unfold shutdownStep at hstep
  split at hstep
  · cases hstep
    exact h.of_shutdown (by simp) rfl fun _ => rfl
  · cases hstep
    exact h.of_shutdown (by simp) rfl fun _ => rfl
  · cases hstep
    exact h.of_shutdown (by simp) rfl fun _ => rfl
  · cases hstep
    refine h.of_shutdown (by simp) rfl fun f => ?_
    dsimp only
    split_ifs
    · exact ((s.objects f).pushErr_data err).2.2
    · rfl
  · cases hstep

theorem readError_sound (h : s.Sound) (hstep : s.readError = some s') : s'.Sound := by
  unfold readError at hstep
  split_ifs at hstep with hreading hidle
  · cases hstep
    exact h.of_shutdown (by simp) rfl fun _ => rfl
  · cases hstep
    exact h.of_shutdown hidle rfl fun _ => rfl

theorem gateway_sound {frame : GatewayFrame} (h : s.Sound)
    (hstep : s.gateway frame = some s') : s'.Sound := by
  have hwire (hnone : frame.flow? = none) : Sound { s with wire := s.wire ++ [frame] } := by
    refine ⟨h.registered, h.open_data, h.delivers.of_quiet (fun _ => id) rfl rfl fun f _ => ?_⟩
    simp [inFlight, hnone]
  have hsent (f : ℕ) (hf : frame.flow? = some f) : Sound { s with
      wire := s.wire ++ [frame], sent := update s.sent f (s.sent f ++ [frame]) } := by
    refine ⟨h.registered, h.open_data, fun f' hf' => ?_⟩
    have hold := h.delivers f' hf'
    by_cases heq : f' = f
    · subst heq
      simp [inFlight, hf, hold]
    · simp [inFlight, hf, heq, Ne.symm heq, hold]
  unfold gateway at hstep
  cases frame with
  | openOK f | openFail f =>
    dsimp only at hstep
    split_ifs at hstep
    cases hstep
    exact ⟨(hwire rfl).registered, h.open_data, (hwire rfl).delivers⟩
  | data f payload | close f =>
    dsimp only at hstep
    split_ifs at hstep
    cases hstep
    exact hsent f rfl
  | control =>
    cases hstep
    exact hwire rfl

end ClientState
end VlfProto.Client
