import VlfProto.Client.Registration

/-! # Delivery of the frames of a flow -/

namespace VlfProto.Client.ClientState
open Platform Transition

variable {s s' : ClientState} {f : ℕ} {a : ClientStep} {as : List ClientStep}

/-- `readLoop` moves between places at which it holds no frame of a flow. -/
theorem Sound.setLoop (h : s.Sound) {loop : LoopPc}
    (hhand : ∀ f, ¬s.GivenUp f → inHand loop f = inHand s.loop f) : Sound { s with loop } := by
  refine ⟨h.registered, h.open_data, h.delivers.of_quiet (fun _ => id) rfl rfl fun f hf => ?_⟩
  rw [inFlight, inFlight, hhand f hf]

theorem readFrame_sound (h : s.Sound) (hloop : s.loop = .reading)
    (hstep : s.readFrame = some s') : s'.Sound := by
  unfold readFrame at hstep
  split at hstep
  · cases hstep
  · next frame wire hwire =>
    cases hstep
    refine ⟨h.registered, h.open_data, h.delivers.of_quiet (fun _ => id) rfl rfl fun f _ => ?_⟩
    cases frame <;> simp [inFlight, inHand, hwire, hloop, GatewayFrame.flow?, List.filter_cons] <;>
      split_ifs <;> rfl

theorem Sound.pushed {frame : GatewayFrame} (h : s.Sound) (hloop : s.loop = .push f frame) :
    (s.pushed f frame true).Sound := by
  refine ⟨h.registered, h.open_data, fun f' hf' => ?_⟩
  have hold := h.delivers f' hf'
  by_cases heq : f' = f
  · subst heq
    simpa [ClientState.pushed, inFlight, inHand, hloop] using hold
  · simpa [ClientState.pushed, inFlight, inHand, hloop, heq, Ne.symm heq] using hold

theorem push_sound {frame : GatewayFrame} (h : s.Sound) (hloop : s.loop = .push f frame)
    (hroom : s.HasRoom .loop) : (s.push f frame).Sound := by
  have herr : ((s.setObject f ((s.objects f).pushErr .eof)).pushed f frame true).Sound := by
    refine Sound.pushed (h.setObject fun hclosed => h.open_data f ?_) hloop
    rwa [← ((s.objects f).pushErr_data .eof).2.2]
  simp only [HasRoom, hloop] at hroom
  unfold push
  cases frame with
  | data f' payload =>
    dsimp only at hroom ⊢
    unfold FramedFlow.pushData
    split
    · exact ⟨h.registered, h.open_data, h.delivers⟩
    · next flow' hpush =>
      split_ifs at hpush with hclosed
      cases hpush
      rw [decide_eq_true hroom]
      exact Sound.pushed (h.setObject fun hc => absurd hc hclosed) hloop
  | _ =>
    dsimp only at hroom ⊢
    rwa [decide_eq_true hroom]

theorem loopStep_sound (h : s.Sound) (hlookup : s.LooksUpRegistered .loop)
    (hroom : s.HasRoom .loop) (hstep : s.loopStep = some s') : s'.Sound := by
  unfold loopStep at hstep
  split at hstep
  · next hloop => exact readFrame_sound h hloop hstep
  · next f ok hloop =>
    split_ifs at hstep
    · cases hstep
      have h' : Sound { s with pendingTCP := s.pendingTCP.erase f } :=
        ⟨h.registered, h.open_data, h.delivers⟩
      exact h'.setLoop (by simp [inHand, hloop])
    · cases hstep
      exact h.setLoop (by simp [inHand, hloop])
  · next f ok hloop =>
    split_ifs at hstep
    · cases hstep
      exact ⟨h.registered, h.open_data, h.delivers⟩
    · cases hstep
      have h' : (s.setCall f { s.calls f with reply := some ok }).Sound := h.setCall id id
      exact h'.setLoop (by simp [inHand, ClientState.setCall, hloop])
  · next f hloop =>
    split_ifs at hstep
    · cases hstep
      exact ⟨h.registered, h.open_data, h.delivers⟩
    · cases hstep
      have h' : (s.setCall f { s.calls f with replyClosed := true }).Sound := h.setCall id id
      exact h'.setLoop (by simp [inHand, ClientState.setCall, hloop])
  · next f frame hloop =>
    cases hstep
    simp only [LooksUpRegistered, hloop] at hlookup
    refine h.setLoop fun f' hf' => ?_
    by_cases heq : f = f'
    · subst heq
      have hlive : s.closing f = .live ∧ s.shutdown = .idle := by
        simpa [GivenUp] using (not_or.mp hf').2
      rw [if_pos (h.registered f (hlookup.resolve_right hf') hlive.1 hlive.2), hloop]
      rfl
    · split_ifs <;> simp [inHand, hloop, heq]
  · next f frame hloop =>
    cases hstep
    exact push_sound h hloop hroom
  · next hloop =>
    split_ifs at hstep
    cases hstep
    exact h.setLoop (by simp [inHand, hloop])
  · cases hstep

theorem step_sound (h : s.Sound) (hlookup : s.LooksUpRegistered a) (hroom : s.HasRoom a)
    (hstep : s.step a = some s') : s'.Sound := by
  unfold step at hstep
  split_ifs at hstep
  cases a with
  | register f => exact register_sound h hstep
  | writeOpen f ok => exact writeOpen_sound h hstep
  | receive f => exact receive_sound h hstep
  | timeout f => exact timeout_sound h hstep
  | unregister f => exact unregister_sound h hstep
  | closeReply f => exact closeReply_sound h hstep
  | insert f => exact insertFlow_sound h hstep
  | gateway frame => exact gateway_sound h hstep
  | loop => exact loopStep_sound h hlookup hroom hstep
  | readError => exact readError_sound h hstep
  | read f n branch => exact readFlow_sound h hstep
  | closeFlow f => exact closeFlow_sound h hstep
  | shutdown err => exact shutdownStep_sound h hstep

/-- In every run in which lookups find a flow registered or given up and pushes
find room, every frame sent for a flow was delivered or is on its way. -/
theorem delivers_of_looksUpRegistered
    (hpath : Path step (fun s a => s.LooksUpRegistered a ∧ s.HasRoom a) initial as s) :
    s.Delivers := by
  have hkeep : ∀ (s : ClientState) a s', s.Sound → (s.LooksUpRegistered a ∧ s.HasRoom a) →
      s.step a = some s' → s'.Sound := fun s a s' h hok hstep => step_sound h hok.1 hok.2 hstep
  exact (hpath.invariant hkeep initial_sound).delivers

/-- Open flow 1, let the gateway accept it and send one byte. -/
def openAndSend : List ClientStep :=
  [.register 1, .writeOpen 1 true, .gateway (.openOK 1), .gateway (.data 1 [7]),
    .loop, .loop, .loop, .loop]

theorem openAndSend_delivers : ∃ s,
    Path step (fun s a => s.LooksUpRegistered a ∧ s.HasRoom a) initial
      (openAndSend ++ [.receive 1, .insert 1, .loop, .loop, .loop]) s ∧
      s.Delivers ∧ s.delivered 1 = [.data 1 [7]] :=
  have hpath := Path.of_run rfl
  ⟨_, hpath, delivers_of_looksUpRegistered hpath, rfl⟩

/-- The frame is looked up before the waiting call runs again, and is gone when
the flow is registered. -/
theorem openAndSend_lost : ∃ s,
    Path step anyLabel initial (openAndSend ++ [.loop, .loop, .receive 1, .insert 1]) s ∧
      (s.calls 1).pc = .opened ∧ ¬s.GivenUp 1 ∧ s.sent 1 = [.data 1 [7]] ∧
      s.delivered 1 = [] ∧ s.inFlight 1 = [] ∧ ¬s.Delivers := by
  refine ⟨_, Path.of_run rfl, rfl, by decide, rfl, rfl, rfl, fun h => ?_⟩
  have := h 1 (by decide)
  revert this
  decide

end VlfProto.Client.ClientState
