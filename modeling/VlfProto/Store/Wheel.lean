import VlfProto.Platform.Table
import VlfProto.Platform.Text
import VlfProto.Platform.Clock
import VlfProto.Transition.Path

/-!
# The timing wheel

An entry sits in the slot it records, with the number of laps it still has to wait; a tick
advances the cursor, lowers the lap counts in the slot it reaches and fires the entries that
have none left. The slot index of a placement is a machine integer, which can overflow and
then makes the placement fail.
-/
namespace VlfProto.Store
open Platform Transition Function

/-- An armed entry; both tables of the wheel hold the same object. -/
structure WheelEntry (κ : Type*) where
  key : Bytes
  slot : ℕ
  rounds : ℤ
  callback : Option κ

structure Wheel (κ : Type*) where
  interval : Duration
  slotCount : ℕ
  slots : ℕ → Table Bytes (WheelEntry κ)
  entries : Table Bytes (WheelEntry κ)
  cursor : ℕ

variable {κ : Type*}

def newWheel (κ : Type*) (interval : Duration) (slotCount : Int64) : Wheel κ where
  interval := if interval ≤ 0 then 1000000000 else interval
  slotCount := if slotCount < 4 then 4 else slotCount.toInt.toNat
  slots := fun _ => ∅
  entries := ∅
  cursor := 0

namespace Wheel

/-- The number of ticks a ttl stands for, rounded up and at least one. -/
def steps (w : Wheel κ) (ttl : Duration) : ℤ :=
  let ttl := if ttl ≤ 0 then w.interval.toInt else ttl.toInt
  let steps := ttl.tdiv w.interval.toInt
  let steps := if ttl.tmod w.interval.toInt ≠ 0 then steps + 1 else steps
  if steps < 1 then 1 else steps

def targetSlot (w : Wheel κ) (ttl : Duration) : ℤ :=
  (wrapInt64 (w.cursor + w.steps ttl)).tmod w.slotCount

def rounds (w : Wheel κ) (ttl : Duration) : ℤ :=
  let rounds := (w.steps ttl).tdiv w.slotCount
  let rounds := if w.targetSlot ttl ≤ w.cursor then rounds - 1 else rounds
  if rounds < 0 then 0 else rounds

/-- Place an entry; a negative slot index makes the code panic. -/
def arm (w : Wheel κ) (key : Bytes) (ttl : Duration) (callback : Option κ) : Option (Wheel κ) :=
  if w.targetSlot ttl < 0 then none
  else
    let slot := (w.targetSlot ttl).toNat
    let entry : WheelEntry κ := ⟨key, slot, w.rounds ttl, callback⟩
    some { w with
      entries := w.entries.insert key entry
      slots := update w.slots slot ((w.slots slot).insert key entry) }

def removeLocked (w : Wheel κ) (key : Bytes) : Wheel κ :=
  match w.entries.lookup key with
  | none => w
  | some entry =>
    { w with
      slots := update w.slots entry.slot ((w.slots entry.slot).erase key)
      entries := w.entries.erase key }

def upsert (w : Wheel κ) (key : Bytes) (ttl : Duration) (callback : Option κ) :
    Option (Wheel κ) :=
  (w.removeLocked key).arm key ttl callback

/-- The returned flag tells whether the key was armed. -/
def touch (w : Wheel κ) (key : Bytes) (ttl : Duration) : Option (Bool × Wheel κ) :=
  match w.entries.lookup key with
  | none => some (false, w)
  | some entry => ((w.removeLocked key).arm key ttl entry.callback).map fun w => (true, w)

def remove (w : Wheel κ) (key : Bytes) : Wheel κ := w.removeLocked key

/-- The slot index the next tick looks at. -/
def nextCursor (w : Wheel κ) : ℕ := (w.cursor + 1) % w.slotCount

/-- What a tick makes of an entry it meets: one lap less, or gone. -/
def lapse (entry : WheelEntry κ) : Option (WheelEntry κ) :=
  if 0 < entry.rounds then some { entry with rounds := entry.rounds - 1 } else none

/-- The entries the next tick fires. -/
def due (w : Wheel κ) : Table Bytes (WheelEntry κ) :=
  (w.slots w.nextCursor).filterMap fun _ entry => if 0 < entry.rounds then none else some entry

/-- The callbacks the next tick runs, in no particular order. -/
def callbacks (w : Wheel κ) : Multiset κ := w.due.entries.filterMap fun e => e.2.callback

def tick (w : Wheel κ) : Wheel κ :=
  { w with
    cursor := w.nextCursor
    slots := update w.slots w.nextCursor
      ((w.slots w.nextCursor).filterMap fun _ entry => lapse entry)
    entries := w.entries.filterMap fun key entry =>
      match (w.slots w.nextCursor).lookup key with
      | none => some entry
      | some shared => lapse shared }

end Wheel

/-- The operations on one wheel, each atomic under its lock. -/
inductive WheelOp (κ : Type*) where
  | upsert (key : Bytes) (ttl : Duration) (callback : Option κ)
  | touch (key : Bytes) (ttl : Duration)
  | remove (key : Bytes)
  | tick

namespace WheelOp

def apply (w : Wheel κ) : WheelOp κ → Option (Wheel κ)
  | .upsert key ttl callback => w.upsert key ttl callback
  | .touch key ttl => (w.touch key ttl).map Prod.snd
  | .remove key => some (w.remove key)
  | .tick => some w.tick

/-- The key an operation names. -/
def key? : WheelOp κ → Option Bytes
  | .upsert key _ _ => some key
  | .touch key _ => some key
  | .remove key => some key
  | .tick => none

def isTick : WheelOp κ → Bool
  | .tick => true
  | _ => false

end WheelOp

/-- The wheels that some sequence of operations makes of a fresh one. -/
def Wheel.Reachable (w : Wheel κ) : Prop :=
  ∃ interval slotCount ops, Path WheelOp.apply anyLabel (newWheel κ interval slotCount) ops w

/-! ### The two tables of the wheel agree -/

open Option Table

structure Wheel.WellFormed (w : Wheel κ) : Prop where
  interval_pos : 0 < w.interval.toInt
  slotCount_ge : 4 ≤ w.slotCount
  slotCount_lt : w.slotCount < 2 ^ 63
  cursor_lt : w.cursor < w.slotCount
  entry_of_slot : ∀ i key entry, (w.slots i).lookup key = some entry →
    w.entries.lookup key = some entry ∧ entry.slot = i
  entry_bounds : ∀ key entry, w.entries.lookup key = some entry →
    entry.slot < w.slotCount ∧ 0 ≤ entry.rounds
  slot_of_entry : ∀ key entry, w.entries.lookup key = some entry →
    (w.slots entry.slot).lookup key = some entry

namespace Wheel

variable {w w' : Wheel κ} {key key' : Bytes} {ttl : Duration} {callback : Option κ}

theorem WellFormed.slot_lookup (hw : w.WellFormed) (i : ℕ) (key : Bytes) :
    (w.slots i).lookup key = (w.entries.lookup key).bind
      fun entry => if entry.slot = i then some entry else none := by
  cases hentry : w.entries.lookup key with
  | none =>
    cases hslot : (w.slots i).lookup key with
    | none => rfl
    | some entry => simp [(hw.entry_of_slot i key entry hslot).1] at hentry
  | some entry =>
    rw [bind_some]
    split_ifs with hi
    · rw [← hi, hw.slot_of_entry key entry hentry]
    · cases hslot : (w.slots i).lookup key with
      | none => rfl
      | some entry' =>
        obtain ⟨hentry', hi'⟩ := hw.entry_of_slot i key entry' hslot
        rw [hentry, some.injEq] at hentry'
        exact absurd (hentry' ▸ hi') hi

theorem newWheel_wellFormed (interval : Duration) (slotCount : Int64) :
    (newWheel κ interval slotCount).WellFormed where
  interval_pos := by
    unfold newWheel
    dsimp only
    split_ifs with h
    · decide
    · simpa [Int64.le_iff_toInt_le] using h
  slotCount_ge := by
    unfold newWheel
    dsimp only
    split_ifs with h
    · exact le_rfl
    · have : (4 : Int64).toInt ≤ slotCount.toInt := by simpa [Int64.lt_iff_toInt_lt] using h
      have hfour : (4 : Int64).toInt = 4 := rfl
      omega
  slotCount_lt := by
    unfold newWheel
    dsimp only
    have := slotCount.toInt_lt
    split_ifs
    · decide
    · omega
  cursor_lt := by
    unfold newWheel
    dsimp only
    split_ifs with h
    · decide
    · have : (4 : Int64).toInt ≤ slotCount.toInt := by simpa [Int64.lt_iff_toInt_lt] using h
      have hfour : (4 : Int64).toInt = 4 := rfl
      omega
  entry_of_slot i key entry h := by simp [newWheel] at h
  entry_bounds key entry h := by simp [newWheel] at h
  slot_of_entry key entry h := by simp [newWheel] at h

theorem removeLocked_settings (w : Wheel κ) (key : Bytes) :
    (w.removeLocked key).interval = w.interval ∧
      (w.removeLocked key).slotCount = w.slotCount ∧
      (w.removeLocked key).cursor = w.cursor := by
  unfold removeLocked
  split <;> exact ⟨rfl, rfl, rfl⟩

theorem removeLocked_entries (w : Wheel κ) (key key' : Bytes) :
    (w.removeLocked key).entries.lookup key' =
      if key' = key then none else w.entries.lookup key' := by
  unfold removeLocked
  cases hentry : w.entries.lookup key with
  | none =>
    dsimp only
    split_ifs with h
    · rw [h, hentry]
    · rfl
  | some entry => exact lookup_erase_eq _ _ _

theorem removeLocked_slots (hw : w.WellFormed) (key key' : Bytes) (i : ℕ) :
    ((w.removeLocked key).slots i).lookup key' =
      if key' = key then none else (w.slots i).lookup key' := by
  unfold removeLocked
  cases hentry : w.entries.lookup key with
  | none =>
    dsimp only
    split_ifs with h
    · rw [h, hw.slot_lookup, hentry, bind_none]
    · rfl
  | some entry =>
    dsimp only
    by_cases hi : i = entry.slot
    · rw [hi, update_self, lookup_erase_eq]
    · rw [update_of_ne hi]
      split_ifs with h
      · rw [h, hw.slot_lookup, hentry, bind_some, if_neg (Ne.symm hi)]
      · rfl

theorem removeLocked_wellFormed (hw : w.WellFormed) (key : Bytes) :
    (w.removeLocked key).WellFormed := by
  obtain ⟨hinterval, hcount, hcursor⟩ := w.removeLocked_settings key
  constructor
  · rw [hinterval]; exact hw.interval_pos
  · rw [hcount]; exact hw.slotCount_ge
  · rw [hcount]; exact hw.slotCount_lt
  · rw [hcount, hcursor]; exact hw.cursor_lt
  · intro i key' entry h
    rw [removeLocked_slots hw] at h
    split_ifs at h with hne
    rw [removeLocked_entries, if_neg hne]
    exact hw.entry_of_slot i key' entry h
  · intro key' entry h
    rw [removeLocked_entries] at h
    split_ifs at h
    rw [hcount]
    exact hw.entry_bounds key' entry h
  · intro key' entry h
    rw [removeLocked_entries] at h
    split_ifs at h with hne
    rw [removeLocked_slots hw, if_neg hne]
    exact hw.slot_of_entry key' entry h

theorem rounds_nonneg (w : Wheel κ) (ttl : Duration) : 0 ≤ w.rounds ttl := by
  unfold rounds
  dsimp only
  split_ifs <;> omega

theorem targetSlot_toNat_lt (w : Wheel κ) (hw : w.WellFormed) (ttl : Duration) :
    (w.targetSlot ttl).toNat < w.slotCount := by
  have hcount := hw.slotCount_ge
  have hlt : w.targetSlot ttl < w.slotCount := Int.tmod_lt_of_pos _ (by omega)
  omega

/-- The entry a placement creates. -/
def armed (w : Wheel κ) (key : Bytes) (ttl : Duration) (callback : Option κ) : WheelEntry κ :=
  ⟨key, (w.targetSlot ttl).toNat, w.rounds ttl, callback⟩

theorem arm_cases (h : w.arm key ttl callback = some w') :
    0 ≤ w.targetSlot ttl ∧ w'.interval = w.interval ∧ w'.slotCount = w.slotCount ∧
      w'.cursor = w.cursor ∧
      (∀ key', w'.entries.lookup key' =
        if key' = key then some (w.armed key ttl callback) else w.entries.lookup key') ∧
      (∀ i key', (w'.slots i).lookup key' =
        if key' = key ∧ i = (w.targetSlot ttl).toNat then some (w.armed key ttl callback)
        else (w.slots i).lookup key') := by
  unfold arm at h
  split_ifs at h with hneg
  cases h
  refine ⟨not_lt.mp hneg, rfl, rfl, rfl, fun key' => lookup_insert_eq _ _ _ _,
    fun i key' => ?_⟩
  dsimp only
  by_cases hi : i = (w.targetSlot ttl).toNat
  · subst hi
    rw [update_self, lookup_insert_eq]
    simp [armed]
  · rw [update_of_ne hi, if_neg (fun hc => hi hc.2)]

theorem arm_wellFormed (hw : w.WellFormed) (habsent : w.entries.lookup key = none)
    (h : w.arm key ttl callback = some w') : w'.WellFormed := by
  obtain ⟨-, hinterval, hcount, hcursor, hentries, hslots⟩ := arm_cases h
  constructor
  · rw [hinterval]; exact hw.interval_pos
  · rw [hcount]; exact hw.slotCount_ge
  · rw [hcount]; exact hw.slotCount_lt
  · rw [hcount, hcursor]; exact hw.cursor_lt
  · intro i key' entry hlookup
    rw [hslots] at hlookup
    rw [hentries]
    split_ifs at hlookup with hnew
    · cases hlookup
      exact ⟨if_pos hnew.1, hnew.2.symm⟩
    · obtain ⟨hentry, hslot⟩ := hw.entry_of_slot i key' entry hlookup
      have hne : key' ≠ key := by
        rintro rfl
        simp [habsent] at hentry
      exact ⟨by rw [if_neg hne, hentry], hslot⟩
  · intro key' entry hlookup
    rw [hentries] at hlookup
    rw [hcount]
    split_ifs at hlookup
    · cases hlookup
      exact ⟨w.targetSlot_toNat_lt hw ttl, w.rounds_nonneg ttl⟩
    · exact hw.entry_bounds key' entry hlookup
  · intro key' entry hlookup
    rw [hentries] at hlookup
    rw [hslots]
    split_ifs at hlookup with hkey
    · cases hlookup
      exact if_pos ⟨hkey, rfl⟩
    · rw [if_neg (fun hc => hkey hc.1)]
      exact hw.slot_of_entry key' entry hlookup

/-- Both armings clear the key first, so its old entry never survives. -/
theorem rearm_wellFormed (hw : w.WellFormed)
    (h : (w.removeLocked key).arm key ttl callback = some w') : w'.WellFormed :=
  arm_wellFormed (removeLocked_wellFormed hw key) (by rw [removeLocked_entries, if_pos rfl]) h

theorem tick_slots (w : Wheel κ) (i : ℕ) (key : Bytes) :
    (w.tick.slots i).lookup key =
      if i = w.nextCursor then ((w.slots i).lookup key).bind lapse
      else (w.slots i).lookup key := by
  unfold tick
  dsimp only
  by_cases hi : i = w.nextCursor
  · rw [hi, update_self, lookup_filterMap, if_pos rfl]
  · rw [update_of_ne hi, if_neg hi]

theorem tick_entries (hw : w.WellFormed) (key : Bytes) :
    w.tick.entries.lookup key = (w.entries.lookup key).bind
      fun entry => if entry.slot = w.nextCursor then lapse entry else some entry := by
  unfold tick
  dsimp only
  rw [lookup_filterMap]
  cases hentry : w.entries.lookup key with
  | none => rfl
  | some entry =>
    rw [bind_some, bind_some, hw.slot_lookup, hentry, bind_some]
    split_ifs <;> rfl

theorem lapse_slot {entry entry' : WheelEntry κ} (h : lapse entry = some entry') :
    entry'.slot = entry.slot ∧ entry'.callback = entry.callback ∧ 0 < entry.rounds ∧
      entry'.rounds = entry.rounds - 1 := by
  unfold lapse at h
  split_ifs at h with hpos
  cases h
  exact ⟨rfl, rfl, hpos, rfl⟩

theorem tick_wellFormed (hw : w.WellFormed) : w.tick.WellFormed := by
  constructor
  · exact hw.interval_pos
  · exact hw.slotCount_ge
  · exact hw.slotCount_lt
  · exact Nat.mod_lt _ (by have := hw.slotCount_ge; omega)
  · intro i key entry h
    rw [tick_slots] at h
    rw [tick_entries hw]
    split_ifs at h with hi
    · obtain ⟨old, hold, hlapse⟩ := bind_eq_some_iff.mp h
      obtain ⟨hentry, hslot⟩ := hw.entry_of_slot i key old hold
      refine ⟨?_, (lapse_slot hlapse).1.trans hslot⟩
      rw [hentry, bind_some, if_pos (hslot.trans hi), hlapse]
    · obtain ⟨hentry, hslot⟩ := hw.entry_of_slot i key entry h
      refine ⟨?_, hslot⟩
      rw [hentry, bind_some, if_neg (by rw [hslot]; exact hi)]
  · intro key entry h
    rw [tick_entries hw] at h
    obtain ⟨old, hold, hkeep⟩ := bind_eq_some_iff.mp h
    obtain ⟨hslot, hrounds⟩ := hw.entry_bounds key old hold
    split_ifs at hkeep
    · obtain ⟨hsame, -, hpos, hless⟩ := lapse_slot hkeep
      exact ⟨hsame.trans_lt hslot, by omega⟩
    · cases hkeep
      exact ⟨hslot, hrounds⟩
  · intro key entry h
    rw [tick_entries hw] at h
    obtain ⟨old, hold, hkeep⟩ := bind_eq_some_iff.mp h
    have hslot := hw.slot_of_entry key old hold
    rw [tick_slots]
    split_ifs at hkeep with hnext
    · obtain ⟨hsame, -⟩ := lapse_slot hkeep
      rw [hsame, if_pos hnext, hslot, bind_some, hkeep]
    · cases hkeep
      rw [if_neg hnext, hslot]

theorem touch_cases {armed : Bool} (h : w.touch key ttl = some (armed, w')) :
    (armed = false ∧ w.entries.lookup key = none ∧ w' = w) ∨
      (armed = true ∧ ∃ entry, w.entries.lookup key = some entry ∧
        (w.removeLocked key).arm key ttl entry.callback = some w') := by
  unfold touch at h
  cases hentry : w.entries.lookup key with
  | none =>
    rw [hentry] at h
    cases h
    exact .inl ⟨rfl, rfl, rfl⟩
  | some entry =>
    rw [hentry] at h
    obtain ⟨w'', harm, hpair⟩ := map_eq_some_iff.mp h
    cases hpair
    exact .inr ⟨rfl, entry, rfl, harm⟩

theorem apply_wellFormed {op : WheelOp κ} (hw : w.WellFormed) (h : op.apply w = some w') :
    w'.WellFormed := by
  cases op with
  | upsert key ttl callback => exact rearm_wellFormed hw h
  | touch key ttl =>
    obtain ⟨⟨armed, w''⟩, htouch, rfl⟩ := map_eq_some_iff.mp h
    obtain ⟨-, -, rfl⟩ | ⟨-, entry, -, harm⟩ := touch_cases htouch
    · exact hw
    · exact rearm_wellFormed hw harm
  | remove key =>
    cases h
    exact removeLocked_wellFormed hw key
  | tick =>
    cases h
    exact tick_wellFormed hw

theorem Reachable.wellFormed (hw : w.Reachable) : w.WellFormed := by
  obtain ⟨interval, slotCount, ops, hpath⟩ := hw
  exact hpath.invariant (fun _ _ _ hinv _ h => apply_wellFormed hinv h)
    (newWheel_wellFormed interval slotCount)

end Wheel
end VlfProto.Store
