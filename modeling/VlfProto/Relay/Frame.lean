import VlfProto.Relay.ConnInvariant

/-! # What the steps of a relay connection leave alone -/

namespace VlfProto.Relay.Conn
open Platform Transition Option

variable {c c' : Conn} {i j : ℕ} {ok : Bool} {label : ConnStep}

theorem callerStep_reader {ok : Bool} (h : c.callerStep i ok = some c') :
    c'.reader = c.reader := by
  rcases callerStep_cases h with ⟨-, hm⟩ | ⟨found, r, -, hclose, rfl⟩
  · exact hm.reader
  · split_ifs <;> exact (closeStep_frame hclose).reader

theorem callerStep_other (h : c.callerStep i ok = some c') (hj : j ≠ i) :
    c'.callers j = c.callers j := by
  rcases callerStep_cases h with ⟨-, hm⟩ | ⟨found, r, -, hclose, rfl⟩
  · exact hm.callers j hj
  · split_ifs
    · simp [setCaller, Function.update_of_ne hj, (closeStep_frame hclose).callers]
    · rw [(closeStep_frame hclose).callers]

/-- The loops touch neither the calls nor what has been put on the queue. -/
theorem readerStep_upload {data : Bytes} {err : Option TargetError}
    (h : c.readerStep data err = some c') : c'.callers = c.callers ∧ c'.enqueued = c.enqueued := by
  rcases readerStep_cases h with ⟨-, hm⟩ | ⟨r, -, hclose, rfl⟩
  · exact ⟨hm.callers, hm.enqueued⟩
  · have hframe := closeStep_frame hclose
    split_ifs <;> exact ⟨hframe.callers, hframe.enqueued⟩

theorem Keeps.refl (c : Conn) : c.Keeps c where
  once := rfl
  closed := rfl
  cancelled := id
  targetClosed := id
  downstream := id
  queueClosed := rfl
  eos := id
  registered := rfl

/-- A step leaves what only the body of `Close` changes, or is a step at the
once-cell of `Close`. -/
theorem step_keeps_or_closes (h : c.step label = some c') :
    c.Keeps c' ∨ ∃ g r, c.closeStep g = some r ∧ r.1.Keeps c' := by
  cases label with
  | start =>
    obtain ⟨-, rfl⟩ := of_guard h
    exact .inl (by constructor <;> simp)
  | reader data err =>
    rcases readerStep_cases h with ⟨-, hm⟩ | ⟨r, -, hclose, rfl⟩
    · exact .inl hm.toKeeps
    · refine .inr ⟨_, r, hclose, ?_⟩
      split_ifs
      · constructor <;> simp
      · exact .refl r.1
  | writer ok n => exact .inl (writerStep_moves h).toKeeps
  | call i request =>
    obtain ⟨-, rfl⟩ := of_guard h
    exact .inl (setCaller_moves rfl).toKeeps
  | caller i ok =>
    rcases callerStep_cases h with ⟨-, hm⟩ | ⟨found, r, -, hclose, rfl⟩
    · exact .inl hm.toKeeps
    · refine .inr ⟨_, r, hclose, ?_⟩
      split_ifs
      · exact (setCaller_moves rfl).toKeeps
      · exact .refl r.1
  | collect i =>
    obtain ⟨-, rfl⟩ := collect_cases h
    exact .inl (setCaller_moves rfl).toKeeps

theorem step_closed (h : c.step label = some c') (hclosed : c.closed) : c'.closed := by
  rcases step_keeps_or_closes h with hkeeps | ⟨g, r, hclose, hkeeps⟩
  · rw [hkeeps.closed]
    exact hclosed
  · rw [hkeeps.closed]
    rcases closeStep_cases hclose with ⟨-, rfl⟩ | ⟨stage, c', next, -, hbody, rfl⟩ | ⟨-, rfl⟩
    · exact hclosed
    · exact (bodyStep_moves hbody).closed fun _ => hclosed
    · exact hclosed

theorem registered_of_step (h : c.step label = some c') (hr : c'.registered) : c.registered := by
  rcases step_keeps_or_closes h with hkeeps | ⟨g, r, hclose, hkeeps⟩
  · rwa [hkeeps.registered] at hr
  · rw [hkeeps.registered] at hr
    rcases closeStep_cases hclose with ⟨-, rfl⟩ | ⟨stage, c', next, -, hbody, rfl⟩ | ⟨-, rfl⟩
    · exact hr
    · dsimp only at hr
      rw [(bodyStep_moves hbody).registered] at hr
      split_ifs at hr
      exact hr
    · exact hr

/-- A connection leaves the table when the once-cell of `Close` is done, never to
come back. -/
theorem step_registered (h : c.step label = some c')
    (hc : c.registered = false ↔ c.once = .done) :
    (c'.registered = false ↔ c'.once = .done) ∧ (c.once ≠ .idle → c'.once ≠ .idle) ∧
      (c.once = .done → c'.once = .done) := by
  rcases step_keeps_or_closes h with hkeeps | ⟨g, r, hclose, hkeeps⟩
  · rw [hkeeps.registered, hkeeps.once]
    exact ⟨hc, id, id⟩
  · rw [hkeeps.registered, hkeeps.once]
    rcases closeStep_cases hclose with
      ⟨hidle, rfl⟩ | ⟨stage, c', next, hrun, hbody, rfl⟩ | ⟨hdone, rfl⟩
    · simpa [hidle] using hc
    · have hregistered := (bodyStep_moves hbody).registered
      rw [hrun] at hc ⊢
      cases next with
      | none => simpa using hregistered
      | some next =>
        simp only [isNone_some, Bool.false_eq_true, if_false] at hregistered
        simpa [hregistered] using hc
    · exact ⟨hc, id, id⟩

end VlfProto.Relay.Conn
