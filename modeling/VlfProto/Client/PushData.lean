import VlfProto.Client.Session

/-! # Pushes of the TCP-session client after `Close` -/

namespace VlfProto.Client.ClientState
open Platform Transition Function Option

variable {s s' : ClientState} {f : ℕ}

def Pushing (s : ClientState) (f : ℕ) : Prop := ∃ g payload, s.loop = .push f (.data g payload)

instance (s : ClientState) (f : ℕ) : Decidable (s.Pushing f) :=
  decidable_of_iff ((match s.loop with
      | .push f' (.data _ _) => f' == f
      | _ => false) = true) <| by
    unfold Pushing
    split <;> simp_all

/-- No push of data goes to a closed channel. -/
def PushesOpen (s : ClientState) : Prop := ∀ f, s.Pushing f → (s.objects f).dataClosed = false

/-- The data channel of a flow is closed while `readLoop` has no push to it to do. -/
def ClosesUnheld (s : ClientState) : ClientStep → Prop
  | .closeFlow f => s.closing f = .written → ¬s.Pushing f
  | _ => True

instance (s : ClientState) (a : ClientStep) : Decidable (s.ClosesUnheld a) := by
  unfold ClosesUnheld
  split <;> infer_instance

/-- A flow is closed only after it was opened, is out of the table from then on, and
its channel is closed last. -/
structure Orderly (s : ClientState) : Prop where
  unopened : ∀ f, (s.calls f).pc ≠ .opened → s.closing f = .live
  removed : ∀ f, s.closing f ≠ .live → f ∉ s.flows
  closed : ∀ f, (s.objects f).dataClosed → s.closing f = .closed
  pushes : s.PushesOpen

theorem initial_orderly : initial.Orderly where
  unopened _ _ := rfl
  removed _ h := absurd rfl h
  closed _ h := by cases h
  pushes _ h := by
    obtain ⟨g, payload, hloop⟩ := h
    cases hloop

theorem Orderly.of_same (h : s.Orderly) (hflows : s'.flows = s.flows)
    (hclosing : s'.closing = s.closing) (hobjects : s'.objects = s.objects)
    (hcalls : ∀ f, (s.calls f).pc = .opened → (s'.calls f).pc = .opened)
    (hloop : ∀ f, s'.Pushing f → s.Pushing f) : s'.Orderly where
  unopened f hpc := by
    rw [hclosing]
    exact h.unopened f fun hopened => hpc (hcalls f hopened)
  removed f := by
    rw [hclosing, hflows]
    exact h.removed f
  closed f := by
    rw [hclosing, hobjects]
    exact h.closed f
  pushes f hpush := by
    rw [hobjects]
    exact h.pushes f (hloop f hpush)

theorem Orderly.setCall (h : s.Orderly) {call : OpenCall} (hpc : (s.calls f).pc ≠ .opened) :
    (s.setCall f call).Orderly := by
  refine h.of_same rfl rfl rfl (fun f' hopened => ?_) fun _ hpush => hpush
  have hne : f' ≠ f := by
    rintro rfl
    exact hpc hopened
  simpa [ClientState.setCall, hne] using hopened

theorem Orderly.setPc (h : s.Orderly) {pc : OpenPc} (hpc : (s.calls f).pc ≠ .opened) :
    (s.setPc f pc).Orderly :=
  h.setCall hpc

theorem Orderly.setObject (h : s.Orderly) {flow : FramedFlow}
    (hflow : flow.dataClosed → (s.objects f).dataClosed) : (s.setObject f flow).Orderly where
  unopened := h.unopened
  removed := h.removed
  closed f' hclosed := by
    simp only [ClientState.setObject, update_apply] at hclosed
    split_ifs at hclosed with heq
    · exact heq ▸ h.closed f (hflow hclosed)
    · exact h.closed f' hclosed
  pushes f' hpush := by
    have hopen := h.pushes f' hpush
    simp only [ClientState.setObject, update_apply]
    split_ifs with heq
    · subst heq
      by_contra hclosed
      simp [hflow (by simpa using hclosed)] at hopen
    · exact hopen

theorem register_orderly (h : s.Orderly) (hstep : s.register f = some s') : s'.Orderly := by
  unfold register at hstep
  split_ifs at hstep with hpc
  cases hstep
  have h' : Orderly { s with pendingTCP := insert f s.pendingTCP } :=
    h.of_same rfl rfl rfl (fun _ => id) fun _ => id
  exact h'.setPc (by simp [hpc])

theorem writeOpen_orderly {ok : Bool} (h : s.Orderly) (hstep : s.writeOpen f ok = some s') :
    s'.Orderly := by
  unfold writeOpen at hstep
  split_ifs at hstep with hpc
  · cases hstep
    have h' : Orderly { s with requested := insert f s.requested } :=
      h.of_same rfl rfl rfl (fun _ => id) fun _ => id
    exact h'.setPc (by simp [hpc])
  · cases hstep
    exact h.setPc (by simp [hpc])

theorem receive_orderly (h : s.Orderly) (hstep : s.receive f = some s') : s'.Orderly := by
  unfold receive at hstep
  by_cases hpc : (s.calls f).pc = .waiting
  · have hne : (s.calls f).pc ≠ .opened := by simp [hpc]
    rw [if_pos hpc] at hstep
    split at hstep
    · exact some.inj hstep ▸ h.setCall hne
    · exact some.inj hstep ▸ h.setCall hne
    · obtain ⟨-, hstep⟩ := ite_none_right_eq_some.mp hstep
      exact some.inj hstep ▸ h.setPc hne
  · simp [hpc] at hstep

theorem timeout_orderly (h : s.Orderly) (hstep : s.timeout f = some s') : s'.Orderly := by
  unfold timeout at hstep
  split_ifs at hstep with hpc
  exact some.inj hstep ▸ h.setPc (by simp [hpc])

theorem unregister_orderly (h : s.Orderly) (hstep : s.unregister f = some s') : s'.Orderly := by
  unfold unregister at hstep
  split_ifs at hstep with hpc
  · cases hstep
    have h' : Orderly { s with pendingTCP := s.pendingTCP.erase f } :=
      h.of_same rfl rfl rfl (fun _ => id) fun _ => id
    exact h'.setPc (by simp [hpc])
  · exact some.inj hstep ▸ h.setPc (by simp [hpc])

theorem Orderly.panic (h : s.Orderly) : s.panic.Orderly :=
  h.of_same rfl rfl rfl (fun _ => id) fun _ => id

theorem closeReply_orderly (h : s.Orderly) (hstep : s.closeReply f = some s') : s'.Orderly := by
  unfold closeReply at hstep
  split_ifs at hstep with hpc
  · exact some.inj hstep ▸ h.panic
  · exact some.inj hstep ▸ h.setCall (by simp [hpc])

theorem insertFlow_orderly (h : s.Orderly) (hstep : s.insertFlow f = some s') : s'.Orderly := by
  unfold insertFlow at hstep
  split_ifs at hstep with hpc
  cases hstep
  have hlive := h.unopened f (by simp [hpc])
  have h' : Orderly { s with flows := insert f s.flows } := by
    refine ⟨h.unopened, fun f' hclosing => ?_, h.closed, h.pushes⟩
    have hne : f' ≠ f := by
      rintro rfl
      exact hclosing hlive
    simpa [hne] using h.removed f' hclosing
  have hnew : ({ s with flows := insert f s.flows }.setObject f .new).Orderly :=
    h'.setObject (by simp [FramedFlow.new])
  exact hnew.setPc (by simp [ClientState.setObject, hpc])

theorem Orderly.setLoop (h : s.Orderly) {loop : LoopPc}
    (hloop : ∀ f g payload, loop ≠ .push f (.data g payload)) : { s with loop }.Orderly := by
  refine h.of_same rfl rfl rfl (fun _ => id) fun f hpush => ?_
  obtain ⟨g, payload, hpush⟩ := hpush
  exact absurd hpush (hloop f g payload)

theorem push_orderly {frame : GatewayFrame} (h : s.Orderly) : (s.push f frame).Orderly := by
  have hpushed {s : ClientState} {room : Bool} (h : s.Orderly) :
      (s.pushed f frame room).Orderly := by
    have hread : { s with loop := .reading }.Orderly := h.setLoop (by simp)
    exact hread.of_same rfl rfl rfl (fun _ => id) fun _ => id
  have herr (err : FlowError) : (s.setObject f ((s.objects f).pushErr err)).Orderly :=
    h.setObject (by simp [(FramedFlow.pushErr_data _ err).2.2])
  unfold push
  cases frame with
  | data g payload =>
    dsimp only
    cases hpush : (s.objects f).pushData payload with
    | none => exact h.panic
    | some flow =>
      refine hpushed (h.setObject ?_)
      unfold FramedFlow.pushData at hpush
      split_ifs at hpush with hclosed
      all_goals
        cases hpush
        exact id
  | _ => exact hpushed (herr .eof)

/-- `readLoop` changes a reply channel, which leaves the place of the call alone. -/
theorem Orderly.setReply (h : s.Orderly) (reply : Option Bool) (replyClosed : Bool) :
    (s.setCall f { s.calls f with reply, replyClosed }).Orderly := by
  refine h.of_same rfl rfl rfl (fun f' hopened => ?_) fun _ => id
  by_cases hf : f' = f
  · simpa [ClientState.setCall, hf] using hf ▸ hopened
  · simpa [ClientState.setCall, hf] using hopened

theorem loopStep_orderly (h : s.Orderly) (hstep : s.loopStep = some s') : s'.Orderly := by
  cases hloop : s.loop <;> simp only [loopStep, hloop, readFrame, some.injEq, reduceCtorEq] at hstep
  case reading =>
    split at hstep
    · cases hstep
    · rename_i frame wire _
      cases hstep
      have h' : Orderly { s with wire } := h.of_same rfl rfl rfl (fun _ => id) fun _ => id
      apply h'.setLoop
      cases frame <;> simp
  case resolve f ok =>
    split_ifs at hstep
    · cases hstep
      have h' : Orderly { s with pendingTCP := s.pendingTCP.erase f } :=
        h.of_same rfl rfl rfl (fun _ => id) fun _ => id
      exact h'.setLoop (by simp)
    · exact some.inj hstep ▸ h.setLoop (by simp)
  case reply f ok =>
    split_ifs at hstep
    · exact some.inj hstep ▸ h.panic
    · exact some.inj hstep ▸ (h.setReply (some ok) _).setLoop (by simp)
  case closeReply f =>
    split_ifs at hstep
    · exact some.inj hstep ▸ h.panic
    · exact some.inj hstep ▸ (h.setReply _ true).setLoop (by simp)
  case lookup f frame =>
    cases hstep
    refine ⟨h.unopened, h.removed, h.closed, fun f' hpush => ?_⟩
    obtain ⟨g, payload, hpush⟩ := hpush
    simp only at hpush
    split_ifs at hpush with hmem
    obtain ⟨rfl, rfl⟩ := LoopPc.push.inj hpush
    by_contra hclosed
    have hdone := h.closed f (by simpa using hclosed)
    exact h.removed f (by simp [hdone]) hmem
  case push f frame => exact hstep ▸ push_orderly h
  case closing =>
    obtain ⟨-, hstep⟩ := ite_none_right_eq_some.mp hstep
    exact some.inj hstep ▸ h.setLoop (by simp)

theorem readFlow_orderly {n : ℕ} {branch : Branch} (h : s.Orderly)
    (hstep : s.readFlow f n branch = some s') : s'.Orderly := by
  unfold readFlow at hstep
  obtain ⟨-, hstep⟩ := ite_none_right_eq_some.mp hstep
  obtain ⟨⟨flow, result⟩, hread, rfl⟩ := map_eq_some_iff.mp hstep
  refine h.setObject fun hclosed => ?_
  cases result with
  | data bytes => exact (FramedFlow.read_data hread).2 ▸ hclosed
  | fail err => exact (FramedFlow.read_fail hread).2.2.2 ▸ hclosed

theorem Orderly.setClosing (h : s.Orderly) {pc : FlowClosePc} (hopened : (s.calls f).pc = .opened)
    (hremoved : f ∉ s.flows) (hopen : (s.objects f).dataClosed → pc = .closed) :
    { s with closing := update s.closing f pc }.Orderly where
  unopened f' hpc := by
    have hne : f' ≠ f := by
      rintro rfl
      exact hpc hopened
    simpa [hne] using h.unopened f' hpc
  removed f' hclosing := by
    by_cases hf : f' = f
    · exact hf ▸ hremoved
    · simp only [update_of_ne hf] at hclosing
      exact h.removed f' hclosing
  closed f' hclosed := by
    by_cases hf : f' = f
    · subst hf
      simpa using hopen hclosed
    · simpa [hf] using h.closed f' hclosed
  pushes := h.pushes

theorem closeFlow_orderly (hguard : s.ClosesUnheld (.closeFlow f)) (h : s.Orderly)
    (hstep : s.closeFlow f = some s') : s'.Orderly := by
  have hopened (hne : s.closing f ≠ .live) : (s.calls f).pc = .opened := by
    by_contra hpc
    exact hne (h.unopened f hpc)
  have hopen (hne : s.closing f ≠ .closed) : (s.objects f).dataClosed = false := by
    by_contra hclosed
    exact hne (h.closed f (by simpa using hclosed))
  cases hclosing : s.closing f <;>
    simp only [closeFlow, hclosing, some.injEq, reduceCtorEq] at hstep
  case live =>
    obtain ⟨hpc, rfl⟩ := of_guard hstep
    have h' : Orderly { s with flows := s.flows.erase f } :=
      ⟨h.unopened, fun f' hne hmem => h.removed f' hne (Finset.mem_of_mem_erase hmem), h.closed,
        h.pushes⟩
    exact h'.setClosing hpc (by simp) (by simp [hopen (by simp [hclosing])])
  case removed =>
    have hne : s.closing f ≠ .live := by simp [hclosing]
    exact hstep ▸ h.setClosing (hopened hne) (h.removed f hne)
      (by simp [hopen (by simp [hclosing])])
  case written =>
    cases hstep
    have hne : s.closing f ≠ .live := by simp [hclosing]
    have h' : { s with closing := update s.closing f .closed }.Orderly :=
      h.setClosing (hopened hne) (h.removed f hne) fun _ => rfl
    refine ⟨h'.unopened, h'.removed, fun f' hclosed => ?_, fun f' hpush => ?_⟩
    · by_cases hf : f' = f
      · simp [hf]
      · exact h'.closed f' (by simpa [ClientState.setObject, hf] using hclosed)
    · have hne : f' ≠ f := by
        rintro rfl
        exact hguard hclosing hpush
      simpa [ClientState.setObject, hne] using h.pushes f' hpush

theorem shutdownStep_orderly {err : FlowError} (h : s.Orderly)
    (hstep : s.shutdownStep err = some s') : s'.Orderly := by
  cases hshutdown : s.shutdown <;>
    simp only [shutdownStep, hshutdown, some.injEq, reduceCtorEq] at hstep <;> subst hstep
  case connClosed =>
    refine h.of_same rfl rfl rfl (fun f hopened => ?_) fun _ => id
    simp only
    split_ifs <;> exact hopened
  case pendingFailed =>
    have hsame (f : ℕ) : (if f ∈ s.flows then (s.objects f).pushErr err
        else s.objects f).dataClosed = (s.objects f).dataClosed := by
      split_ifs
      · exact (FramedFlow.pushErr_data _ err).2.2
      · rfl
    refine ⟨h.unopened, fun _ _ => Finset.notMem_empty _, fun f hclosed => ?_, fun f hpush => ?_⟩
    · exact h.closed f ((hsame f).symm.trans hclosed)
    · exact (hsame f).trans (h.pushes f hpush)
  all_goals exact h.of_same rfl rfl rfl (fun _ => id) fun _ => id

theorem gateway_orderly {frame : GatewayFrame} (h : s.Orderly)
    (hstep : s.gateway frame = some s') : s'.Orderly := by
  cases frame <;> simp only [gateway, ite_none_right_eq_some, some.injEq] at hstep
  case control => exact hstep ▸ h.of_same rfl rfl rfl (fun _ => id) fun _ => id
  all_goals exact hstep.2 ▸ h.of_same rfl rfl rfl (fun _ => id) fun _ => id

theorem step_orderly {a : ClientStep} (hguard : s.ClosesUnheld a) (h : s.Orderly)
    (hstep : s.step a = some s') : s'.Orderly := by
  obtain ⟨-, hstep⟩ := ite_none_left_eq_some.mp hstep
  cases a with
  | register f => exact register_orderly h hstep
  | writeOpen f ok => exact writeOpen_orderly h hstep
  | receive f => exact receive_orderly h hstep
  | timeout f => exact timeout_orderly h hstep
  | unregister f => exact unregister_orderly h hstep
  | closeReply f => exact closeReply_orderly h hstep
  | insert f => exact insertFlow_orderly h hstep
  | gateway frame => exact gateway_orderly h hstep
  | loop => exact loopStep_orderly h hstep
  | readError =>
    obtain ⟨-, rfl⟩ := of_guard hstep
    refine h.of_same rfl rfl rfl (fun _ => id) ?_
    rintro f ⟨g, payload, ⟨⟩⟩
  | read f n branch => exact readFlow_orderly h hstep
  | closeFlow f => exact closeFlow_orderly hguard h hstep
  | shutdown err => exact shutdownStep_orderly h hstep

/-- When no data channel is closed between a lookup of `readLoop` and its push, every
push finds the channel open. -/
theorem path_pushesOpen {labels : List ClientStep}
    (hpath : Path step ClosesUnheld initial labels s) : s.PushesOpen := by
  have hkeep : ∀ (s : ClientState) a s', s.Orderly → s.ClosesUnheld a → s.step a = some s' →
      s'.Orderly := fun _ _ _ h hguard hstep => step_orderly hguard h hstep
  exact (hpath.invariant hkeep initial_orderly).pushes

end VlfProto.Client.ClientState
