import Mathlib.Tactic

/-!
# Windows that are rolled when they are needed

A window takes no more than the limit and no charge after its span, and the next one begins when
the span is over or later. An interval of one span then meets two windows at most.
-/
namespace VlfProto.Platform

/-- What was charged from the instant `a` on; a charge is its instant and its amount. -/
def chargedSince (log : List (ℤ × ℤ)) (a : ℤ) : ℤ :=
  (log.map fun e => if a ≤ e.1 then e.2 else 0).sum

/-- What was charged in the half-open interval from `a` to `b`. -/
def chargedWithin (log : List (ℤ × ℤ)) (a b : ℤ) : ℤ :=
  (log.map fun e => if a ≤ e.1 ∧ e.1 < b then e.2 else 0).sum

/-- A window that began at `start` and has taken `used`, after the charges in `log`. -/
structure Paced (span limit start used : ℤ) (log : List (ℤ × ℤ)) : Prop where
  amounts : ∀ e ∈ log, 0 ≤ e.2
  early : ∀ e ∈ log, e.1 < start + span
  spent : chargedSince log start = used
  bounds : 0 ≤ used ∧ used ≤ limit
  previous : chargedSince log (start - span) ≤ used + limit
  paced : ∀ a, chargedWithin log a (a + span) ≤ 2 * limit

variable {log : List (ℤ × ℤ)} {a b span limit start used t n : ℤ}

theorem chargedSince_concat :
    chargedSince (log ++ [(t, n)]) a = chargedSince log a + if a ≤ t then n else 0 := by
  simp [chargedSince]

theorem chargedWithin_concat : chargedWithin (log ++ [(t, n)]) a b =
    chargedWithin log a b + if a ≤ t ∧ t < b then n else 0 := by
  simp [chargedWithin]

theorem chargedSince_anti (hlog : ∀ e ∈ log, 0 ≤ e.2) (hab : a ≤ b) :
    chargedSince log b ≤ chargedSince log a := by
  refine List.sum_le_sum fun e he => ?_
  have hamount := hlog e he
  split_ifs <;> omega

theorem chargedWithin_le (hlog : ∀ e ∈ log, 0 ≤ e.2) :
    chargedWithin log a b ≤ chargedSince log a := by
  refine List.sum_le_sum fun e he => ?_
  have hamount := hlog e he
  split_ifs <;> omega

theorem paced_nil (hlimit : 0 ≤ limit) : Paced span limit start 0 [] where
  amounts _ he := by cases he
  early _ he := by cases he
  spent := rfl
  bounds := ⟨le_rfl, hlimit⟩
  previous := by simpa [chargedSince] using hlimit
  paced a := by simpa [chargedWithin] using hlimit

/-- The next window begins after the span of this one. -/
theorem Paced.roll (h : Paced span limit start used log) (hspan : 0 ≤ span)
    (ht : start + span ≤ t) : Paced span limit t 0 log where
  amounts := h.amounts
  early e he := by
    have hearly := h.early e he
    omega
  spent := by
    refine List.sum_eq_zero fun x hx => ?_
    obtain ⟨e, he, rfl⟩ := List.mem_map.mp hx
    exact if_neg (not_le.mpr ((h.early e he).trans_le ht))
  bounds := ⟨le_rfl, h.bounds.1.trans h.bounds.2⟩
  previous := by
    have hsince := chargedSince_anti h.amounts (a := start) (b := t - span) (by omega)
    rw [h.spent] at hsince
    exact (hsince.trans h.bounds.2).trans (by omega)
  paced := h.paced

/-- A charge that the current window has room for. -/
theorem Paced.charge (h : Paced span limit start used log) (hn : 0 ≤ n) (hstart : start ≤ t)
    (hearly : t < start + span) (hroom : used + n ≤ limit) :
    Paced span limit start (used + n) (log ++ [(t, n)]) where
  amounts e he := by
    rcases List.mem_append.mp he with he | he
    · exact h.amounts e he
    · rwa [List.mem_singleton.mp he]
  early e he := by
    rcases List.mem_append.mp he with he | he
    · exact h.early e he
    · rwa [List.mem_singleton.mp he]
  spent := by rw [chargedSince_concat, if_pos hstart, h.spent]
  bounds := ⟨by have := h.bounds; omega, hroom⟩
  previous := by
    rw [chargedSince_concat]
    have hprevious := h.previous
    split_ifs <;> omega
  paced a := by
    rw [chargedWithin_concat]
    split_ifs with hin
    · have hwithin := chargedWithin_le h.amounts (a := a) (b := a + span)
      have hsince := chargedSince_anti h.amounts (a := start - span) (b := a) (by omega)
      have hprevious := h.previous
      omega
    · have hpaced := h.paced a
      omega

end VlfProto.Platform
