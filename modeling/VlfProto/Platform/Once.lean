import Mathlib.Tactic

/-!
# Once-cells

The goroutine that finds the cell idle runs the body, one action after the other; whoever comes
while it runs waits for it, and whoever comes later returns at once.
-/
namespace VlfProto.Platform

/-- A once-cell, with the goroutine that runs its body and the body's next action. -/
inductive Once (γ ι : Type) where
  | idle
  | running (g : γ) (stage : ι)
  | done
  deriving DecidableEq

namespace Once

variable {γ ι σ : Type} [DecidableEq γ] {body : ι → Option (σ × Option ι)} {r : σ × Once γ ι × Bool}

/-- One action of goroutine `g` at the cell, with `body` the effect of an action
and the action after it; `none` while `g` has to wait. The flag tells whether `g`
returns. -/
def act (cell : Once γ ι) (g : γ) (first : ι) (body : ι → Option (σ × Option ι)) (s : σ) :
    Option (σ × Once γ ι × Bool) :=
  match cell with
  | idle => some (s, running g first, false)
  | running g' stage =>
    if g' = g then (body stage).map fun r => (r.1, r.2.elim done (running g), r.2.isNone)
    else none
  | done => some (s, done, true)

theorem act_cases {cell : Once γ ι} {g : γ} {first : ι} {s : σ}
    (h : cell.act g first body s = some r) : (cell = idle ∧ r = (s, running g first, false)) ∨
    (∃ stage s' next, cell = running g stage ∧ body stage = some (s', next) ∧
      r = (s', next.elim done (running g), next.isNone)) ∨
    (cell = done ∧ r = (s, done, true)) := by
  cases cell with
  | idle => exact .inl ⟨rfl, (Option.some.inj h).symm⟩
  | running g' stage =>
    simp only [act] at h
    split_ifs at h with hg
    obtain ⟨⟨s', next⟩, hbody, rfl⟩ := Option.map_eq_some_iff.mp h
    exact .inr (.inl ⟨stage, s', next, hg ▸ rfl, hbody, rfl⟩)
  | done => exact .inr (.inr ⟨rfl, (Option.some.inj h).symm⟩)

/-- Who returns leaves the cell done. -/
theorem act_returned {cell : Once γ ι} {g : γ} {first : ι} {s : σ}
    (h : cell.act g first body s = some r) (hr : r.2.2 = true) : r.2.1 = done := by
  rcases act_cases h with ⟨-, rfl⟩ | ⟨stage, s', next, -, -, rfl⟩ | ⟨-, rfl⟩
  · cases hr
  · cases next with
    | none => rfl
    | some next => cases hr
  · rfl

end Once
end VlfProto.Platform
