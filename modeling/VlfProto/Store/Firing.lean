import VlfProto.Store.Placement
import VlfProto.Store.RelayStore

/-! # What ends an arming -/

namespace VlfProto.Store
open Platform Transition Option

variable {κ : Type*} {w w' : Wheel κ} {key : Bytes}

/-- What an operation leaves armed under the key it names. -/
def WheelOp.arming (w : Wheel κ) : WheelOp κ → Option (Option κ)
  | .upsert _ _ callback => some callback
  | .touch key _ => w.armedFor key
  | _ => none

namespace Wheel

/-- No slot index overflows: ticks are two nanoseconds apart or more, and of the slots there
are few enough. -/
structure Roomy (w : Wheel κ) : Prop extends w.WellFormed where
  interval_ge : 2 ≤ w.interval.toInt
  slotCount_le : w.slotCount ≤ 2 ^ 62

theorem newWheel_roomy {interval : Duration} {slotCount : Int64} (hinterval : interval ≠ 1)
    (hcount : slotCount.toInt ≤ 2 ^ 62) : (newWheel κ interval slotCount).Roomy where
  toWellFormed := newWheel_wellFormed interval slotCount
  interval_ge := by
    have hpos : 0 < (newWheel κ interval slotCount).interval.toInt :=
      (newWheel_wellFormed interval slotCount).interval_pos
    unfold newWheel at hpos ⊢
    dsimp only at hpos ⊢
    split_ifs at hpos ⊢
    · decide
    · have hne : interval.toInt ≠ 1 := fun h => hinterval (Int64.toInt_inj.mp h)
      omega
  slotCount_le := by
    unfold newWheel
    dsimp only
    split_ifs <;> omega

theorem Roomy.slots_room (hw : w.Roomy) (ttl : Duration) :
    w.cursor + w.expectedTicks ttl ≤ maxDuration := by
  have hcursor := hw.cursor_lt
  have hcount := hw.slotCount_le
  have hticks : w.expectedTicks ttl ≤ 2 ^ 62 := by
    have httl := (duration_bounds ttl).2
    have hinterval := hw.interval_ge
    have hpos : (0 : ℚ) < w.interval.toInt := by exact_mod_cast hw.interval_pos
    refine max_le (by decide) ?_
    rw [Int.ceil_le, div_le_iff₀ hpos]
    norm_cast
    unfold maxDuration at httl
    omega
  unfold maxDuration
  omega

theorem Roomy.rearm (hw : w.Roomy) (key : Bytes) (ttl : Duration) (callback : Option κ) :
    ∃ w', (w.removeLocked key).arm key ttl callback = some w' ∧ w'.Roomy := by
  obtain ⟨hinterval, hcount, -⟩ := w.removeLocked_settings key
  have hremoved : (w.removeLocked key).Roomy :=
    ⟨removeLocked_wellFormed hw.toWellFormed key, hinterval ▸ hw.interval_ge,
      hcount ▸ hw.slotCount_le⟩
  have hslot : ¬(w.removeLocked key).targetSlot ttl < 0 := by
    have hcount := hremoved.slotCount_ge
    rw [targetSlot_eq hremoved.toWellFormed (hremoved.slots_room ttl), not_lt]
    exact Int.emod_nonneg _ (by omega)
  refine ⟨_, if_neg hslot, rearm_wellFormed hw.toWellFormed (if_neg hslot), ?_, ?_⟩
  · exact hremoved.interval_ge
  · exact hremoved.slotCount_le

/-- Every operation returns. -/
theorem Roomy.apply (hw : w.Roomy) (op : WheelOp κ) : ∃ w', op.apply w = some w' ∧ w'.Roomy := by
  cases op with
  | upsert key ttl callback => exact hw.rearm key ttl callback
  | touch key ttl =>
    cases hentry : w.entries.lookup key with
    | none => exact ⟨w, by simp [WheelOp.apply, touch, hentry], hw⟩
    | some entry =>
      obtain ⟨w', harm, hroomy⟩ := hw.rearm key ttl entry.callback
      exact ⟨w', by simp [WheelOp.apply, touch, hentry, harm], hroomy⟩
  | remove key =>
    obtain ⟨hinterval, hcount, -⟩ := w.removeLocked_settings key
    exact ⟨_, rfl, removeLocked_wellFormed hw.toWellFormed key, hinterval ▸ hw.interval_ge,
      hcount ▸ hw.slotCount_le⟩
  | tick => exact ⟨_, rfl, tick_wellFormed hw.toWellFormed, hw.interval_ge, hw.slotCount_le⟩

theorem Roomy.path (hw : w.Roomy) (ops : List (WheelOp κ)) :
    ∃ w', Path WheelOp.apply anyLabel w ops w' ∧ w'.Roomy := by
  induction ops generalizing w with
  | nil => exact ⟨w, .nil w, hw⟩
  | cons op ops ih =>
    obtain ⟨w₁, hstep, hw₁⟩ := hw.apply op
    obtain ⟨w', hpath, hw'⟩ := ih hw₁
    exact ⟨w', .cons trivial hstep hpath, hw'⟩

/-- Left alone, the key stays armed for some ticks, the last of which fires it. -/
def FiresOnce (w : Wheel κ) (key : Bytes) (arming : Option (Option κ)) : Prop :=
  ∃ n, 0 < n ∧ ∀ ops, (∀ op ∈ ops, op.key? ≠ some key) →
    ∃ w', Path WheelOp.apply anyLabel w ops w' ∧
      w'.armedFor key = (if tickCount ops < n then arming else none) ∧
      w'.fired key = if tickCount ops + 1 = n then arming else none

theorem Roomy.firesOnce (hw : w.Roomy) : w.FiresOnce key (w.armedFor key) := by
  have hwell := hw.toWellFormed
  cases hentry : w.entries.lookup key with
  | none =>
    refine ⟨1, one_pos, fun ops hkeys => ?_⟩
    obtain ⟨w', hpath, hw'⟩ := hw.path ops
    have hnone := path_lookup_none hwell hentry hpath hkeys
    refine ⟨w', hpath, ?_⟩
    simp [armedFor, fired, due_lookup hw'.toWellFormed, hentry, hnone]
  | some entry =>
    have hpos := wait_pos hwell hentry
    refine ⟨(w.wait entry).toNat, by omega, fun ops hkeys => ?_⟩
    obtain ⟨w', hpath, -⟩ := hw.path ops
    refine ⟨w', hpath, ?_, ?_⟩
    · have hrun := path_lookup hwell hentry hpath hkeys
      split_ifs at hrun with hlt
      · obtain ⟨entry', hentry', hcallback, -⟩ := hrun
        rw [if_pos (by omega), armedFor, armedFor, hentry, hentry', map_some, map_some, hcallback]
      · rw [if_neg (by omega), armedFor_eq_none.mpr hrun]
    · rw [exactExpiry_wait hwell hentry ops w' hpath hkeys, armedFor, hentry]
      split_ifs <;> first | rfl | omega

theorem armedFor_apply {op : WheelOp κ} (hkey : op.key? = some key) (h : op.apply w = some w') :
    w'.armedFor key = op.arming w := by
  cases op <;> cases hkey
  case upsert => exact (armedFor_rearm h key).trans (if_pos rfl)
  case touch =>
    obtain ⟨⟨armed, w''⟩, htouch, rfl⟩ := map_eq_some_iff.mp h
    exact armedFor_touch htouch key
  case remove =>
    cases h
    exact (armedFor_removeLocked w key key).trans (if_pos rfl)

/-- Every operation returns, the tables agree, and the last operation that names a key decides
what fires for it: what it armed, and once. -/
theorem last_operation_fires {interval : Duration} {slotCount : Int64} (hinterval : interval ≠ 1)
    (hcount : slotCount.toInt ≤ 2 ^ 62) (ops : List (WheelOp κ)) :
    ∃ w, Path WheelOp.apply anyLabel (newWheel κ interval slotCount) ops w ∧
      (∀ i key entry, (w.slots i).lookup key = some entry ↔
        w.entries.lookup key = some entry ∧ entry.slot = i) ∧
      (∀ key entry, w.entries.lookup key = some entry →
        entry.slot < w.slotCount ∧ 0 ≤ entry.rounds) ∧
      (∀ key, (∀ op ∈ ops, op.key? ≠ some key) → w.armedFor key = none ∧ w.fired key = none) ∧
      ∀ (op : WheelOp κ) key, op.key? = some key →
        ∃ w', op.apply w = some w' ∧ w'.FiresOnce key (op.arming w) := by
  have hnew : (newWheel κ interval slotCount).Roomy := newWheel_roomy hinterval hcount
  obtain ⟨w, hpath, hw⟩ := hnew.path ops
  refine ⟨w, hpath, fun i key entry => ⟨hw.entry_of_slot i key entry, ?_⟩, hw.entry_bounds,
    fun key hkeys => ?_, fun op key hkey => ?_⟩
  · rintro ⟨hentry, rfl⟩
    exact hw.slot_of_entry key entry hentry
  · have hnone := path_lookup_none hnew.toWellFormed rfl hpath hkeys
    simp [armedFor, fired, due_lookup hw.toWellFormed, hnone]
  · obtain ⟨w', hstep, hw'⟩ := hw.apply op
    exact ⟨w', hstep, armedFor_apply hkey hstep ▸ hw'.firesOnce⟩

/-- The wheel of the relay store. -/
theorem upsert_fires_once :
    ∃ w, Path WheelOp.apply anyLabel (newWheel Unit 1000000000 256) [.tick] w ∧
      ∃ w', w.upsert [] 300000000000 (some ()) = some w' ∧ w'.FiresOnce [] (some (some ())) := by
  obtain ⟨w, hpath, -, -, -, hfires⟩ := @last_operation_fires Unit 1000000000 256 (by decide)
    (by decide) [.tick]
  exact ⟨w, hpath, hfires (.upsert [] 300000000000 (some ())) [] rfl⟩

end Wheel
end VlfProto.Store
