import VlfProto.Store.Expiry
import Mathlib.Data.Rat.Floor

/-! # The wait that the placement arithmetic produces -/

namespace VlfProto.Store
open Platform Transition

variable {κ : Type*}

/-- Truncated division, corrected upwards when there is a remainder, is the ceiling. -/
theorem ceil_div_eq {a b : ℤ} (ha : 0 ≤ a) (hb : 0 < b) :
    ⌈(a : ℚ) / b⌉ = if a.tmod b ≠ 0 then a.tdiv b + 1 else a.tdiv b := by
  have hb' : (0 : ℚ) < b := by exact_mod_cast hb
  rw [Int.tdiv_eq_ediv_of_nonneg ha, Int.tmod_eq_emod_of_nonneg ha, Int.ceil_eq_iff,
    lt_div_iff₀ hb', div_le_iff₀ hb']
  have hdiv := Int.mul_ediv_add_emod a b
  have hlo := Int.emod_nonneg a hb.ne'
  have hhi := Int.emod_lt_of_pos a hb
  split_ifs with hmod
  · have hpos : 0 < a % b := by omega
    constructor <;> norm_cast <;> nlinarith
  · have hzero : a % b = 0 := by omega
    constructor <;> norm_cast <;> nlinarith

namespace Wheel

variable {w w' : Wheel κ} {key : Bytes} {ttl : Duration} {callback : Option κ}

/-- The tick on which an entry with this ttl should fire: the ttl in intervals,
rounded up and at least one. -/
def expectedTicks (w : Wheel κ) (ttl : Duration) : ℤ :=
  max 1 ⌈(ttl.toInt : ℚ) / w.interval.toInt⌉

theorem steps_eq_expectedTicks (hw : w.WellFormed) (ttl : Duration) :
    w.steps ttl = w.expectedTicks ttl := by
  have hinterval := hw.interval_pos
  have hmax (n : ℤ) : (if n < 1 then 1 else n) = max 1 n := by
    split_ifs <;> omega
  unfold steps expectedTicks
  dsimp only
  rw [hmax]
  split_ifs with hle hmod hmod
  · simp at hmod
  · have hceil : ⌈(ttl.toInt : ℚ) / w.interval.toInt⌉ ≤ 0 := by
      have hle' : ttl.toInt ≤ 0 := by simpa [Int64.le_iff_toInt_le] using hle
      rw [Int.ceil_le, Int.cast_zero]
      exact div_nonpos_of_nonpos_of_nonneg (by exact_mod_cast hle') (by exact_mod_cast hinterval.le)
    rw [Int.tdiv_self hinterval.ne']
    omega
  · rw [ceil_div_eq (by simp [Int64.le_iff_toInt_le] at hle; omega) hinterval, if_pos hmod]
  · rw [ceil_div_eq (by simp [Int64.le_iff_toInt_le] at hle; omega) hinterval, if_neg hmod]

theorem expectedTicks_bounds (hw : w.WellFormed) (ttl : Duration) :
    1 ≤ w.expectedTicks ttl ∧ w.expectedTicks ttl ≤ maxDuration := by
  have hinterval := hw.interval_pos
  refine ⟨le_max_left _ _, max_le (by decide) ?_⟩
  have hbound := (duration_bounds ttl).2
  have hinterval' : (1 : ℚ) ≤ w.interval.toInt := by exact_mod_cast hinterval
  have hmax : (0 : ℚ) ≤ maxDuration := by norm_num [maxDuration]
  rw [Int.ceil_le, div_le_iff₀ (by linarith)]
  calc (ttl.toInt : ℚ) ≤ maxDuration := by exact_mod_cast hbound
    _ ≤ maxDuration * w.interval.toInt := le_mul_of_one_le_right hmax hinterval'

theorem targetSlot_eq (hw : w.WellFormed) (hsum : w.cursor + w.expectedTicks ttl ≤ maxDuration) :
    w.targetSlot ttl = (w.cursor + w.expectedTicks ttl) % w.slotCount := by
  have hk := (expectedTicks_bounds hw ttl).1
  rw [targetSlot, steps_eq_expectedTicks hw, wrapInt64_of_mem (by unfold minDuration; omega) hsum,
    Int.tmod_eq_emod_of_nonneg (by omega)]

/-- The placement neither overflows the slot index nor loses a lap: the steps
fit in one lap, are whole laps, or their remainder does not carry the index
around the end of the wheel. -/
def KeepsLaps (w : Wheel κ) (k : ℤ) : Prop :=
  w.cursor + k ≤ maxDuration ∧
    (k < w.slotCount ∨ k % w.slotCount = 0 ∨ w.cursor + k % w.slotCount < w.slotCount)

instance (w : Wheel κ) (k : ℤ) : Decidable (w.KeepsLaps k) := by
  unfold KeepsLaps
  infer_instance

/-- The lap arithmetic of a placement whose slot index does not overflow. -/
private theorem laps_iff {N c k : ℤ} (hc : 0 ≤ c) (hcN : c < N) (hk : 1 ≤ k) :
    (if c < (c + k) % N then (c + k) % N - c else (c + k) % N + N - c) +
      (if (if (c + k) % N ≤ c then k / N - 1 else k / N) < 0 then 0
        else if (c + k) % N ≤ c then k / N - 1 else k / N) * N = k ↔
      k < N ∨ k % N = 0 ∨ c + k % N < N := by
  have hN : 0 < N := by omega
  have hdiv := Int.mul_ediv_add_emod k N
  have hlo := Int.emod_nonneg k hN.ne'
  have hhi := Int.emod_lt_of_pos k hN
  have hslot : (c + k) % N = if c + k % N < N then c + k % N else c + k % N - N := by
    rw [← Int.add_emod_emod]
    split_ifs with h
    · exact Int.emod_eq_of_lt (by omega) h
    · rw [← Int.sub_emod_right]
      exact Int.emod_eq_of_lt (by omega) (by omega)
  rw [hslot]
  have hq : 0 ≤ k / N := Int.ediv_nonneg (by omega) hN.le
  generalize k % N = m at *
  generalize k / N = q at *
  obtain rfl | hq : q = 0 ∨ 1 ≤ q := by omega
  · split_ifs <;> omega
  · obtain ⟨p, rfl⟩ : ∃ p, q = p + 1 := ⟨q - 1, by ring⟩
    have hlaps : 0 ≤ N * p := by nlinarith
    have hlap : N * (p + 1) = N * p + N := by ring
    have hcomm : (p + 1) * N = N * p + N := by ring
    rw [add_sub_cancel_right]
    split_ifs <;> simp only [hcomm, mul_comm p N, zero_mul] <;> omega

/-- A slot index that overflows is negative or zero, and zero is not the slot
the steps lead to. -/
private theorem overflow_wait_ne {N c k : ℤ} (hc : 0 ≤ c) (hcN : c < N) (hkmax : k ≤ maxDuration)
    (hN : N ≤ maxDuration) (hsum : maxDuration < c + k) :
    0 + N - c + (if k / N - 1 < 0 then 0 else k / N - 1) * N ≠ k := by
  have hdiv := Int.mul_ediv_add_emod k N
  have hlo := Int.emod_nonneg k (show N ≠ 0 by omega)
  have hlaps : (k / N - 1) * N = N * (k / N) - N := by ring
  split_ifs <;> omega

theorem wait_armed_iff (hw : w.WellFormed) (key : Bytes) (ttl : Duration) (callback : Option κ) :
    0 ≤ w.targetSlot ttl ∧ w.wait (w.armed key ttl callback) = w.expectedTicks ttl ↔
      w.KeepsLaps (w.expectedTicks ttl) := by
  obtain ⟨hk, hkmax⟩ := expectedTicks_bounds hw ttl
  have hcursor := hw.cursor_lt
  have hN : (w.slotCount : ℤ) ≤ maxDuration := by
    have := hw.slotCount_lt
    unfold maxDuration
    omega
  have hsteps := steps_eq_expectedTicks hw ttl
  have hrounds : (w.steps ttl).tdiv w.slotCount = w.expectedTicks ttl / w.slotCount := by
    rw [hsteps, Int.tdiv_eq_ediv_of_nonneg (by omega)]
  unfold wait gap armed KeepsLaps
  dsimp only
  by_cases hsum : w.cursor + w.expectedTicks ttl ≤ maxDuration
  · have htarget := targetSlot_eq hw hsum
    have hpos : 0 ≤ w.targetSlot ttl := by
      rw [htarget]
      exact Int.emod_nonneg _ (by omega)
    have hcast : ((w.targetSlot ttl).toNat : ℤ) = w.targetSlot ttl := Int.toNat_of_nonneg hpos
    have hahead : w.cursor < (w.targetSlot ttl).toNat ↔ (w.cursor : ℤ) < w.targetSlot ttl := by
      omega
    rw [rounds, hrounds, hcast]
    simp only [hahead]
    rw [htarget, laps_iff (by omega) (by omega) hk]
    simp [hsum, Int.emod_nonneg _ (show (w.slotCount : ℤ) ≠ 0 by omega)]
  · have htarget : w.targetSlot ttl ≤ 0 := by
      unfold targetSlot
      have hwrap := wrapInt64_of_overflow (not_le.mp hsum) (by unfold maxDuration at *; omega)
      rw [hsteps, hwrap, ← neg_nonneg, ← Int.neg_tmod]
      exact Int.tmod_nonneg _ (by unfold maxDuration at *; omega)
    simp only [hsum, false_and, iff_false]
    rintro ⟨hpos, hwait⟩
    have hzero : w.targetSlot ttl = 0 := le_antisymm htarget hpos
    rw [rounds, hrounds, hzero] at hwait
    refine overflow_wait_ne (by omega) (by omega) hkmax hN (not_le.mp hsum) ?_
    simpa using hwait

theorem rearm_exactExpiry_iff (hw : w.WellFormed) (key : Bytes) (ttl : Duration)
    (callback : Option κ) :
    (∃ w', (w.removeLocked key).arm key ttl callback = some w' ∧
      w'.ExactExpiry key callback (w.expectedTicks ttl)) ↔
      w.KeepsLaps (w.expectedTicks ttl) := by
  obtain ⟨hinterval, hcount, hcursor⟩ := w.removeLocked_settings key
  have hexpected : (w.removeLocked key).expectedTicks ttl = w.expectedTicks ttl := by
    rw [expectedTicks, hinterval, expectedTicks]
  have hkeeps : (w.removeLocked key).KeepsLaps (w.expectedTicks ttl) ↔
      w.KeepsLaps (w.expectedTicks ttl) := by
    rw [KeepsLaps, hcount, hcursor, KeepsLaps]
  have hplace := wait_armed_iff (removeLocked_wellFormed hw key) key ttl callback
  rw [hexpected, hkeeps] at hplace
  rw [← hplace]
  have hexact {w'} (harm : (w.removeLocked key).arm key ttl callback = some w') :
      w'.ExactExpiry key callback (w.expectedTicks ttl) ↔
        (w.removeLocked key).wait ((w.removeLocked key).armed key ttl callback) =
          w.expectedTicks ttl := by
    obtain ⟨-, -, hcount', hcursor', hentries, -⟩ := arm_cases harm
    have hentry : w'.entries.lookup key = some ((w.removeLocked key).armed key ttl callback) := by
      rw [hentries, if_pos rfl]
    have hiff := exactExpiry_iff (rearm_wellFormed hw harm) hentry (w.expectedTicks ttl)
    rwa [wait, gap, hcount', hcursor'] at hiff
  constructor
  · rintro ⟨w', harm, hexpiry⟩
    exact ⟨(arm_cases harm).1, (hexact harm).mp hexpiry⟩
  · rintro ⟨hpos, hwait⟩
    obtain ⟨w', harm⟩ : ∃ w', (w.removeLocked key).arm key ttl callback = some w' :=
      ⟨_, if_neg (not_lt.mpr hpos)⟩
    exact ⟨w', harm, (hexact harm).mpr hwait⟩

/-- Arming `key` with this ttl, by `Upsert` or by `Touch` of an armed key, makes
it fire on exactly the expected tick. -/
def ArmsExactly (w : Wheel κ) (key : Bytes) (ttl : Duration) : Prop :=
  (∀ callback, ∃ w', w.upsert key ttl callback = some w' ∧
    w'.ExactExpiry key callback (w.expectedTicks ttl)) ∧
  (∀ entry, w.entries.lookup key = some entry → ∃ w', w.touch key ttl = some (true, w') ∧
    w'.ExactExpiry key entry.callback (w.expectedTicks ttl))

theorem armsExactly_iff (hw : w.Reachable) (key : Bytes) (ttl : Duration) :
    w.ArmsExactly key ttl ↔ w.KeepsLaps (w.expectedTicks ttl) := by
  have hrearm := rearm_exactExpiry_iff hw.wellFormed key ttl
  constructor
  · rintro ⟨hupsert, -⟩
    exact (hrearm none).mp (hupsert none)
  · intro hkeeps
    refine ⟨fun callback => (hrearm callback).mpr hkeeps, fun entry hentry => ?_⟩
    obtain ⟨w', harm, hexpiry⟩ := (hrearm entry.callback).mpr hkeeps
    refine ⟨w', ?_, hexpiry⟩
    rw [touch, hentry]
    exact congrArg (Option.map (Prod.mk true)) harm

/-- A wheel of four one-second slots after three ticks. -/
def threeTicks : Wheel Unit := (newWheel Unit 1000000000 4).tick.tick.tick

theorem threeTicks_reachable : threeTicks.Reachable :=
  ⟨1000000000, 4, [.tick, .tick, .tick], .cons trivial rfl (.cons trivial rfl
    (.cons trivial rfl (.nil _)))⟩

theorem threeTicks_expectedTicks (ttl : Duration) :
    threeTicks.expectedTicks ttl = threeTicks.steps ttl :=
  (steps_eq_expectedTicks threeTicks_reachable.wellFormed ttl).symm

theorem threeTicks_armsExactly : threeTicks.Reachable ∧ threeTicks.ArmsExactly [] 3000000000 :=
  ⟨threeTicks_reachable, (armsExactly_iff threeTicks_reachable [] 3000000000).mpr
    (by rw [threeTicks_expectedTicks]; decide)⟩

/-- Five seconds are a lap and one slot; the index wraps and the entry fires on
the next tick, a lap early. -/
theorem threeTicks_fires_early :
    threeTicks.Reachable ∧ threeTicks.expectedTicks 5000000000 = 5 ∧
      (∃ w', threeTicks.upsert [] 5000000000 (some ()) = some w' ∧
        w'.fired [] = some (some ())) ∧
      ¬threeTicks.ArmsExactly [] 5000000000 := by
  refine ⟨threeTicks_reachable, ?_, ⟨_, rfl, by decide⟩, ?_⟩
  · rw [threeTicks_expectedTicks]
    decide
  · rintro ⟨hupsert, -⟩
    have hkeeps := (rearm_exactExpiry_iff threeTicks_reachable.wellFormed _ _ none).mp
      (hupsert none)
    rw [threeTicks_expectedTicks] at hkeeps
    revert hkeeps
    decide

end Wheel
end VlfProto.Store
