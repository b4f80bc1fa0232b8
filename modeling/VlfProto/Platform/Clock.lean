import Mathlib.Tactic

/-!
# Clock readings and durations

An instant is an integer number of nanoseconds since the epoch. Durations are
signed 64-bit nanosecond counts, so the difference of two instants saturates
at the two ends of that range; all other instant arithmetic is exact.
-/
namespace VlfProto.Platform

abbrev Duration := Int64

def minDuration : ℤ := -2 ^ 63
def maxDuration : ℤ := 2 ^ 63 - 1

/-- `t.Sub(u)`: exact when representable, otherwise the nearest end of the range. -/
def instantSub (t u : ℤ) : ℤ := max minDuration (min maxDuration (t - u))

/-- The instant of a millisecond count. -/
def unixMilli (ms : ℤ) : ℤ := ms * 1000000

/-- Conversion of an unsigned 64-bit word to a signed one keeps the bit pattern. -/
def toInt64 (n : ℕ) : ℤ := if n < 2 ^ 63 then n else n - 2 ^ 64

/-- Signed 64-bit arithmetic wraps around. -/
def wrapInt64 (n : ℤ) : ℤ := n.bmod (2 ^ 64)

theorem duration_bounds (d : Duration) : minDuration ≤ d.toInt ∧ d.toInt ≤ maxDuration := by
  have hlo := d.le_toInt
  have hhi := d.toInt_lt
  unfold minDuration maxDuration
  omega

theorem instantSub_of_mem {t u : ℤ} (hlo : minDuration ≤ t - u) (hhi : t - u ≤ maxDuration) :
    instantSub t u = t - u := by
  unfold instantSub
  omega

/-- An upper bound below the end of the range is a bound on the true difference. -/
theorem sub_le_of_instantSub_le {t u d : ℤ} (hd : d < maxDuration) (h : instantSub t u ≤ d) :
    t - u ≤ d := by
  unfold instantSub at h
  omega

theorem le_sub_of_le_instantSub {t u d : ℤ} (hd : minDuration < d) (h : d ≤ instantSub t u) :
    d ≤ t - u := by
  unfold instantSub at h
  omega

theorem wrapInt64_of_mem {n : ℤ} (hlo : minDuration ≤ n) (hhi : n ≤ maxDuration) :
    wrapInt64 n = n := by
  unfold minDuration maxDuration at *
  exact Int.bmod_eq_of_le (by omega) (by omega)

/-- A sum of two non-negative words that overflows comes out one range lower. -/
theorem wrapInt64_of_overflow {n : ℤ} (hlo : maxDuration < n) (hhi : n < 2 ^ 64) :
    wrapInt64 n = n - 2 ^ 64 := by
  unfold maxDuration at hlo
  have hshift : wrapInt64 n = wrapInt64 (n - 2 ^ 64) := by
    unfold wrapInt64
    rw [show n = n - 2 ^ 64 + (2 ^ 64 : ℕ) by norm_num, Int.add_bmod_right]
    norm_num
  rw [hshift]
  exact wrapInt64_of_mem (by unfold minDuration; omega) (by unfold maxDuration; omega)

end VlfProto.Platform
