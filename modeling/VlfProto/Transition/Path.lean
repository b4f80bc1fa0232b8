import Mathlib.Tactic

/-!
# Labelled runs of a step function

A concurrent program is a step function on states whose label carries every choice the code
does not make itself. A run is a list of labels, each admitted by a side condition on the
state in which it is taken. The two rules below reduce a property of every run to one step,
and the existence of a finishing continuation to one decreasing step.
-/
namespace VlfProto.Transition

variable {σ α : Type*}

/-- A run of `step` in which `ok` admits every label where it is taken. -/
inductive Path (step : σ → α → Option σ) (ok : σ → α → Prop) : σ → List α → σ → Prop
  | nil (s : σ) : Path step ok s [] s
  | cons {s t u : σ} {a : α} {as : List α} (hok : ok s a) (hstep : step s a = some t)
      (rest : Path step ok t as u) : Path step ok s (a :: as) u

/-- The side condition of an unrestricted run. -/
def anyLabel : σ → α → Prop := fun _ _ => True

instance : ∀ (s : σ) (a : α), Decidable (anyLabel s a) :=
  fun _ _ => inferInstanceAs (Decidable True)

/-- Execute a list of labels, stopping at the first one that is refused. -/
def run (step : σ → α → Option σ) (ok : σ → α → Prop) [∀ s a, Decidable (ok s a)] :
    σ → List α → Option σ
  | s, [] => some s
  | s, a :: as => if ok s a then (step s a).bind fun t => run step ok t as else none

/-- What a guarded step has checked and where it has led. -/
theorem of_guard {p : Prop} {_ : Decidable p} {s t : σ}
    (h : (if p then some s else none) = some t) :
    p ∧ s = t := by
  obtain ⟨hp, h⟩ := Option.ite_none_right_eq_some.mp h
  exact ⟨hp, Option.some.inj h⟩

theorem of_guard_not {p : Prop} {_ : Decidable p} {s t : σ}
    (h : (if p then none else some s) = some t) : ¬p ∧ s = t := by
  obtain ⟨hp, h⟩ := Option.ite_none_left_eq_some.mp h
  exact ⟨hp, Option.some.inj h⟩

variable {step : σ → α → Option σ} {ok ok' : σ → α → Prop} {s t u : σ} {a : α} {as bs : List α}
  {inv : σ → Prop}

theorem Path.of_run [∀ s a, Decidable (ok s a)] (h : run step ok s as = some t) :
    Path step ok s as t := by
  induction as generalizing s with
  | nil =>
    obtain rfl : s = t := by simpa [run] using h
    exact .nil s
  | cons a as ih =>
    rw [run] at h
    split_ifs at h with hok
    obtain ⟨u, hu, hrest⟩ := Option.bind_eq_some_iff.mp h
    exact .cons hok hu (ih hrest)

/-- Where given labels lead, checked by execution. -/
theorem Path.exists_of_run [∀ s a, Decidable (ok s a)] {P : σ → Prop} [DecidablePred P]
    (h : (run step ok s as).any (fun t => P t)) : ∃ t, Path step ok s as t ∧ P t := by
  obtain ⟨t, hrun, ht⟩ := (Option.any_eq_true _ _).mp h
  exact ⟨t, .of_run hrun, of_decide_eq_true ht⟩

theorem Path.exists_of_run_imp [∀ s a, Decidable (ok s a)] {P Q : σ → Prop} [DecidablePred P]
    (h : (run step ok s as).any (fun t => P t)) (hQ : ∀ t, Path step ok s as t → P t → Q t) :
    ∃ t, Path step ok s as t ∧ Q t := by
  obtain ⟨t, hpath, ht⟩ := Path.exists_of_run h
  exact ⟨t, hpath, hQ t hpath ht⟩

theorem Path.append (h : Path step ok s as t) (h' : Path step ok t bs u) :
    Path step ok s (as ++ bs) u := by
  induction h with
  | nil => exact h'
  | cons hok hstep _ ih => exact .cons hok hstep (ih h')

theorem Path.mono (himp : ∀ s a, ok s a → ok' s a) (h : Path step ok s as t) :
    Path step ok' s as t := by
  induction h with
  | nil s => exact .nil s
  | cons hok hstep _ ih => exact .cons (himp _ _ hok) hstep ih

/-- A property kept by every admitted step holds wherever a run leads. -/
theorem Path.invariant (hkeep : ∀ s a t, inv s → ok s a → step s a = some t → inv t)
    (h : Path step ok s as t) (hs : inv s) : inv t := by
  induction h with
  | nil => exact hs
  | cons hok hstep _ ih => exact ih (hkeep _ _ _ hs hok hstep)

/-- A run whose steps keep `inv` and lower a measure is no longer than the measure. -/
theorem Path.length_le (μ : σ → ℕ)
    (hlt : ∀ s a t, inv s → ok s a → step s a = some t → inv t ∧ μ t < μ s)
    (h : Path step ok s as t) (hs : inv s) : as.length ≤ μ s := by
  induction h with
  | nil => exact Nat.zero_le _
  | cons hok hstep _ ih =>
    obtain ⟨ht, hless⟩ := hlt _ _ _ hs hok hstep
    exact (ih ht).trans_lt hless

/-- Leave out of a run the labels that `keep` refuses, where `erase` forgets all
that they do and nothing that the other labels read. -/
theorem Path.filter {keep : α → Bool} {erase : σ → σ}
    (hinv : ∀ s a u as, inv s → step s a = some u → Path step ok u as t → inv u)
    (hkept : ∀ s a u as, inv s → keep a = true → step s a = some u → Path step ok u as t →
      step (erase s) a = some (erase u))
    (hdropped : ∀ s a u as, inv s → keep a = false → step s a = some u → Path step ok u as t →
      erase u = erase s)
    (h : Path step ok s as t) (hs : inv s) :
    Path step anyLabel (erase s) (as.filter keep) (erase t) := by
  induction h with
  | nil s => exact .nil _
  | @cons s u t a as hok hstep rest ih =>
    have hu := hinv _ _ _ _ hs hstep rest
    cases hkeep : keep a with
    | true =>
      rw [List.filter_cons_of_pos hkeep]
      exact .cons trivial (hkept _ _ _ _ hs hkeep hstep rest) (ih hinv hkept hdropped hu)
    | false =>
      rw [List.filter_cons_of_neg (by simp [hkeep]), ← hdropped _ _ _ _ hs hkeep hstep rest]
      exact ih hinv hkept hdropped hu

/-- Where each unfinished state has an admitted step that keeps `inv` and lowers
a measure, some continuation finishes. -/
theorem Path.exists_finish {inv goal : σ → Prop} (μ : σ → ℕ)
    (hprog : ∀ s, inv s → goal s ∨ ∃ a t, ok s a ∧ step s a = some t ∧ inv t ∧ μ t < μ s)
    (hs : inv s) : ∃ as t, Path step ok s as t ∧ goal t := by
  induction hn : μ s using Nat.strong_induction_on generalizing s with
  | _ n ih =>
    obtain hgoal | ⟨a, t, hok, hstep, ht, hlt⟩ := hprog s hs
    · exact ⟨[], s, .nil s, hgoal⟩
    · obtain ⟨as, u, hpath, hu⟩ := ih (μ t) (hn ▸ hlt) ht rfl
      exact ⟨a :: as, u, .cons hok hstep hpath, hu⟩

variable {τ ω ρ : Type*}

/-- The state after some operations, and their answers. -/
def answers (step : σ → ω → σ × ρ) : σ → List ω → σ × List ρ
  | s, [] => (s, [])
  | s, o :: ops =>
    let rest := answers step (step s o).1 ops
    (rest.1, (step s o).2 :: rest.2)

/-- Related states give the same answer to an operation and are related after it. -/
def Simulates (step : σ → ω → σ × ρ) (step' : τ → ω → τ × ρ) (R : σ → τ → Prop) : Prop :=
  ∀ s t o, R s t → (step s o).2 = (step' t o).2 ∧ R (step s o).1 (step' t o).1

theorem Simulates.answers {step : σ → ω → σ × ρ} {step' : τ → ω → τ × ρ} {R : σ → τ → Prop}
    (h : Simulates step step' R) (ops : List ω) : ∀ {s t}, R s t →
      (answers step s ops).2 = (answers step' t ops).2 ∧
        R (answers step s ops).1 (answers step' t ops).1 := by
  induction ops with
  | nil => exact fun hrelated => ⟨rfl, hrelated⟩
  | cons o ops ih =>
    intro s t hrelated
    obtain ⟨hanswer, hnext⟩ := h s t o hrelated
    obtain ⟨hanswers, hlast⟩ := ih hnext
    exact ⟨congrArg₂ List.cons hanswer hanswers, hlast⟩

end VlfProto.Transition
