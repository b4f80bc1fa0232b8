import VlfProto.Store.Wheel

/-! # When an armed entry fires -/

namespace VlfProto.Store
open Platform Transition Option List

variable {κ : Type*}

namespace Wheel

variable {w w' : Wheel κ} {key : Bytes} {callback : Option κ}
  {entry : WheelEntry κ} {ops : List (WheelOp κ)}

/-- The number of ticks until the cursor is at a slot, a full lap when it is there. -/
def gap (w : Wheel κ) (slot : ℕ) : ℤ :=
  if w.cursor < slot then slot - w.cursor else slot + w.slotCount - w.cursor

/-- The tick, counted from the next one, at which an entry fires. -/
def wait (w : Wheel κ) (entry : WheelEntry κ) : ℤ :=
  w.gap entry.slot + entry.rounds * w.slotCount

theorem WellFormed.nextCursor_eq (hw : w.WellFormed) :
    w.nextCursor = if w.cursor + 1 = w.slotCount then 0 else w.cursor + 1 := by
  have hcursor := hw.cursor_lt
  unfold nextCursor
  split_ifs with h
  · rw [h, Nat.mod_self]
  · exact Nat.mod_eq_of_lt (by omega)

theorem gap_pos (hw : w.WellFormed) (slot : ℕ) : 0 < w.gap slot := by
  have hcursor := hw.cursor_lt
  unfold gap
  split_ifs <;> omega

theorem gap_eq_one_iff (hw : w.WellFormed) {slot : ℕ} (hslot : slot < w.slotCount) :
    w.gap slot = 1 ↔ slot = w.nextCursor := by
  have hcursor := hw.cursor_lt
  rw [hw.nextCursor_eq]
  unfold gap
  split_ifs <;> omega

theorem gap_tick (hw : w.WellFormed) {slot : ℕ} (hslot : slot < w.slotCount) :
    w.tick.gap slot = if slot = w.nextCursor then (w.slotCount : ℤ) else w.gap slot - 1 := by
  have hcursor := hw.cursor_lt
  change (if w.nextCursor < slot then (slot : ℤ) - w.nextCursor
    else slot + w.slotCount - w.nextCursor) = _
  rw [hw.nextCursor_eq]
  unfold gap
  split_ifs <;> omega

theorem wait_eq_one_iff (hw : w.WellFormed) (hentry : w.entries.lookup key = some entry) :
    w.wait entry = 1 ↔ entry.slot = w.nextCursor ∧ ¬0 < entry.rounds := by
  obtain ⟨hslot, hrounds⟩ := hw.entry_bounds key entry hentry
  rw [← gap_eq_one_iff hw hslot]
  have hcount := hw.slotCount_ge
  have hpos := gap_pos hw entry.slot
  unfold wait
  obtain hzero | hmore : entry.rounds = 0 ∨ 0 < entry.rounds := by omega
  · simp [hzero]
  · have hlap : (w.slotCount : ℤ) ≤ entry.rounds * w.slotCount :=
      le_mul_of_one_le_left (by omega) hmore
    omega

theorem wait_pos (hw : w.WellFormed) (hentry : w.entries.lookup key = some entry) :
    0 < w.wait entry := by
  have hrounds := (hw.entry_bounds key entry hentry).2
  exact add_pos_of_pos_of_nonneg (gap_pos hw entry.slot) (by positivity)

theorem due_lookup (hw : w.WellFormed) (key : Bytes) :
    w.due.lookup key = (w.entries.lookup key).bind
      fun entry => if w.wait entry = 1 then some entry else none := by
  unfold due
  rw [Table.lookup_filterMap, hw.slot_lookup, bind_assoc]
  refine bind_congr fun entry hentry => ?_
  simp only [wait_eq_one_iff hw hentry]
  by_cases hnext : entry.slot = w.nextCursor <;> by_cases hmore : 0 < entry.rounds <;>
    simp [hnext, hmore]

/-- A tick removes the entries it fires and brings every other one a tick closer. -/
theorem tick_lookup (hw : w.WellFormed) (hentry : w.entries.lookup key = some entry) :
    if w.wait entry = 1 then w.tick.entries.lookup key = none
    else ∃ entry' : WheelEntry κ, w.tick.entries.lookup key = some entry' ∧
      entry'.callback = entry.callback ∧ w.tick.wait entry' = w.wait entry - 1 := by
  obtain ⟨hslot, -⟩ := hw.entry_bounds key entry hentry
  rw [tick_entries hw, hentry, bind_some]
  simp only [wait_eq_one_iff hw hentry]
  by_cases hnext : entry.slot = w.nextCursor
  · by_cases hmore : 0 < entry.rounds
    · have hgap := (gap_eq_one_iff hw hslot).mpr hnext
      rw [if_neg (fun h => h.2 hmore), if_pos hnext]
      refine ⟨{ entry with rounds := entry.rounds - 1 }, if_pos hmore, rfl, ?_⟩
      change w.tick.gap entry.slot + (entry.rounds - 1) * w.slotCount = _
      rw [gap_tick hw hslot, if_pos hnext, wait, hgap]
      ring
    · rw [if_pos ⟨hnext, hmore⟩, if_pos hnext]
      exact if_neg hmore
  · rw [if_neg (fun h => hnext h.1), if_neg hnext]
    refine ⟨entry, rfl, rfl, ?_⟩
    change w.tick.gap entry.slot + entry.rounds * w.slotCount = _
    rw [gap_tick hw hslot, if_neg hnext, wait]
    ring

theorem apply_other {op : WheelOp κ} (h : op.apply w = some w') (hkey : op.key? ≠ some key)
    (htick : op.isTick = false) :
    w'.entries.lookup key = w.entries.lookup key ∧ w'.wait = w.wait := by
  have hwait (w₁ w₂ : Wheel κ) (hcount : w₁.slotCount = w₂.slotCount)
      (hcursor : w₁.cursor = w₂.cursor) : w₁.wait = w₂.wait := by
    funext entry
    unfold wait gap
    rw [hcount, hcursor]
  have hrearm {key' ttl callback} (hne : key' ≠ key)
      (harm : (w.removeLocked key').arm key' ttl callback = some w') :
      w'.entries.lookup key = w.entries.lookup key ∧ w'.wait = w.wait := by
    obtain ⟨-, -, hcount, hcursor, hentries, -⟩ := arm_cases harm
    obtain ⟨-, hcount', hcursor'⟩ := w.removeLocked_settings key'
    refine ⟨?_, hwait _ _ (hcount.trans hcount') (hcursor.trans hcursor')⟩
    rw [hentries, if_neg (Ne.symm hne), removeLocked_entries, if_neg (Ne.symm hne)]
  cases op with
  | upsert key' ttl callback => exact hrearm (fun he => hkey (by rw [he]; rfl)) h
  | touch key' ttl =>
    obtain ⟨⟨armed, w''⟩, htouch, rfl⟩ := map_eq_some_iff.mp h
    obtain ⟨-, -, rfl⟩ | ⟨-, entry, -, harm⟩ := touch_cases htouch
    · exact ⟨rfl, rfl⟩
    · exact hrearm (fun he => hkey (by rw [he]; rfl)) harm
  | remove key' =>
    cases h
    obtain ⟨-, hcount, hcursor⟩ := w.removeLocked_settings key'
    refine ⟨?_, hwait _ _ hcount hcursor⟩
    rw [remove, removeLocked_entries, if_neg (fun he => hkey (by rw [he]; rfl))]
  | tick => cases htick

end Wheel

/-- The number of ticks among some operations. -/
def tickCount (ops : List (WheelOp κ)) : ℕ := ops.countP WheelOp.isTick

namespace Wheel

variable {w w' : Wheel κ} {key : Bytes} {callback : Option κ}
  {entry : WheelEntry κ} {ops : List (WheelOp κ)}

theorem path_lookup_none (hw : w.WellFormed) (habsent : w.entries.lookup key = none)
    (hpath : Path WheelOp.apply anyLabel w ops w') (hkeys : ∀ op ∈ ops, op.key? ≠ some key) :
    w'.entries.lookup key = none := by
  induction hpath with
  | nil => exact habsent
  | @cons w w₁ w' op ops _ hstep _ ih =>
    refine ih (apply_wellFormed hw hstep) ?_ fun op' h => hkeys op' (mem_cons_of_mem _ h)
    cases htick : op.isTick with
    | false => rw [(apply_other hstep (hkeys op mem_cons_self) htick).1, habsent]
    | true =>
      cases op <;> cases htick
      cases hstep
      rw [tick_entries hw, habsent, bind_none]

/-- The wait of an entry counts down with the ticks of a run, and the entry is
gone once it is over. -/
theorem path_lookup (hw : w.WellFormed) (hentry : w.entries.lookup key = some entry)
    (hpath : Path WheelOp.apply anyLabel w ops w') (hkeys : ∀ op ∈ ops, op.key? ≠ some key) :
    if tickCount ops < w.wait entry then
      ∃ entry' : WheelEntry κ, w'.entries.lookup key = some entry' ∧
        entry'.callback = entry.callback ∧ w'.wait entry' = w.wait entry - tickCount ops
    else w'.entries.lookup key = none := by
  induction hpath generalizing entry with
  | nil w =>
    rw [if_pos (by simpa [tickCount] using wait_pos hw hentry)]
    exact ⟨entry, hentry, rfl, by simp [tickCount]⟩
  | @cons w w₁ w' op ops _ hstep hrest ih =>
    have hw₁ := apply_wellFormed hw hstep
    have hkeys' : ∀ op' ∈ ops, op'.key? ≠ some key :=
      fun op' h => hkeys op' (mem_cons_of_mem _ h)
    cases htick : op.isTick with
    | false =>
      obtain ⟨hsame, hwait⟩ := apply_other hstep (hkeys op mem_cons_self) htick
      have := ih hw₁ (hsame.trans hentry) hkeys'
      rwa [hwait, show tickCount ops = tickCount (op :: ops) by simp [tickCount, htick]] at this
    | true =>
      have hcount : (tickCount (op :: ops) : ℤ) = tickCount ops + 1 := by
        simp [tickCount, htick]
      cases op <;> cases htick
      cases hstep
      have hnext := tick_lookup hw hentry
      split_ifs at hnext with hone
      · rw [if_neg (by omega)]
        exact path_lookup_none hw₁ hnext hrest hkeys'
      · obtain ⟨entry', hentry', hcallback, hwait⟩ := hnext
        have := ih hw₁ hentry' hkeys'
        rw [hwait, hcallback] at this
        split_ifs at this ⊢ with hlt hlt'
        · obtain ⟨entry'', h, hsame, hrest⟩ := this
          exact ⟨entry'', h, hsame, by omega⟩
        · omega
        · omega
        · exact this

def fired (w : Wheel κ) (key : Bytes) : Option (Option κ) :=
  (w.due.lookup key).map WheelEntry.callback

/-- Left alone, `key` fires with `callback` on the `k`-th following tick and on
no other. -/
def ExactExpiry (w : Wheel κ) (key : Bytes) (callback : Option κ) (k : ℤ) : Prop :=
  ∀ ops w', Path WheelOp.apply anyLabel w ops w' → (∀ op ∈ ops, op.key? ≠ some key) →
    w'.fired key = if (tickCount ops : ℤ) + 1 = k then some callback else none

theorem exactExpiry_wait (hw : w.WellFormed) (hentry : w.entries.lookup key = some entry) :
    w.ExactExpiry key entry.callback (w.wait entry) := by
  intro ops w' hpath hkeys
  have hw' : w'.WellFormed := hpath.invariant (fun _ _ _ h _ hstep => apply_wellFormed h hstep) hw
  have hrun := path_lookup hw hentry hpath hkeys
  unfold fired
  rw [due_lookup hw']
  split_ifs at hrun with hlt
  · obtain ⟨entry', hentry', hcallback, hwait⟩ := hrun
    rw [hentry', bind_some, hwait, ← hcallback]
    split_ifs <;> first | rfl | omega
  · rw [hrun, if_neg (by omega)]
    rfl

theorem exists_ticks (w : Wheel κ) (n : ℕ) :
    ∃ w', Path WheelOp.apply anyLabel w (List.replicate n .tick) w' := by
  induction n generalizing w with
  | zero => exact ⟨w, .nil w⟩
  | succ n ih =>
    obtain ⟨w', hpath⟩ := ih w.tick
    exact ⟨w', .cons trivial rfl hpath⟩

theorem exactExpiry_iff (hw : w.WellFormed) (hentry : w.entries.lookup key = some entry) (k : ℤ) :
    w.ExactExpiry key entry.callback k ↔ w.wait entry = k := by
  constructor
  · intro h
    have hpos := wait_pos hw hentry
    obtain ⟨w', hpath⟩ := w.exists_ticks (w.wait entry - 1).toNat
    have hkeys : ∀ op ∈ List.replicate (w.wait entry - 1).toNat (WheelOp.tick : WheelOp κ),
        op.key? ≠ some key := by
      intro op hop
      simp [eq_of_mem_replicate hop, WheelOp.key?]
    have hcount : ((tickCount (List.replicate (w.wait entry - 1).toNat
        (WheelOp.tick : WheelOp κ)) : ℕ) : ℤ) = w.wait entry - 1 := by
      simp [tickCount, countP_replicate, WheelOp.isTick]
      omega
    have hfired := exactExpiry_wait hw hentry _ _ hpath hkeys
    rw [h _ _ hpath hkeys, hcount, sub_add_cancel, if_pos rfl] at hfired
    by_contra hne
    rw [if_neg hne] at hfired
    cases hfired
  · rintro rfl
    exact exactExpiry_wait hw hentry

end Wheel
end VlfProto.Store
