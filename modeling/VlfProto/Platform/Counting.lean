import Mathlib.Algebra.BigOperators.Group.Finset.Basic
import Mathlib.Tactic

/-! # Sums over numbered things -/

namespace VlfProto.Platform
open Function Finset

variable {M α : Type*} [AddCommMonoid M] {n k : ℕ}

theorem sum_range_exchange {f g : ℕ → M} (hk : k < n) (h : ∀ j, j ≠ k → f j = g j) :
    ∑ j ∈ Finset.range n, f j + g k = ∑ j ∈ Finset.range n, g j + f k := by
  rw [← add_sum_erase _ f (mem_range.mpr hk),
    ← add_sum_erase _ g (mem_range.mpr hk),
    sum_congr rfl fun j hj => h j (ne_of_mem_erase hj)]
  abel

theorem sum_range_update (measure : α → M) (things : ℕ → α) (a : α) (hk : k < n) :
    ∑ j ∈ Finset.range n, measure (update things k a j) + measure (things k) =
      ∑ j ∈ Finset.range n, measure (things j) + measure a := by
  have h := sum_range_exchange (f := fun j => measure (update things k a j))
    (g := fun j => measure (things j)) hk fun j hj => by simp only [update_of_ne hj]
  simpa only [update_self] using h

variable {ι : Type*} {live : ι → Bool} {g : ι}

/-- `n` is the number of the things for which `live` holds. -/
def Counts (live : ι → Bool) (n : ℕ) : Prop :=
  ∃ gs : Finset ι, (∀ g, g ∈ gs ↔ live g) ∧ gs.card = n

theorem Counts.eq_false (h : Counts live 0) (g : ι) : live g = false := by
  obtain ⟨gs, hmem, hcard⟩ := h
  rw [card_eq_zero.mp hcard] at hmem
  simpa using hmem g

theorem Counts.eq_zero (h : Counts live n) (hnone : ∀ g, live g = false) : n = 0 := by
  obtain ⟨gs, hmem, rfl⟩ := h
  exact card_eq_zero.mpr
    (eq_empty_of_forall_notMem fun g hg => by simp [hnone] at hmem; exact hmem g hg)

variable [DecidableEq ι]

theorem Counts.start (h : Counts live n) (hg : live g = false) :
    Counts (update live g true) (n + 1) := by
  obtain ⟨gs, hmem, rfl⟩ := h
  refine ⟨insert g gs, fun g' => ?_, card_insert_of_notMem (by simp [hmem, hg])⟩
  by_cases hg' : g' = g <;> simp [hg', hmem]

theorem Counts.stop (h : Counts live n) (hg : live g) : Counts (update live g false) (n - 1) := by
  obtain ⟨gs, hmem, rfl⟩ := h
  refine ⟨gs.erase g, fun g' => ?_, card_erase_of_mem ((hmem g).mpr hg)⟩
  by_cases hg' : g' = g <;> simp [hg', hmem]

end VlfProto.Platform
