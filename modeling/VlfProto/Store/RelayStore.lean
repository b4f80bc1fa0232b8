import VlfProto.Store.Expiry

/-! # The relay store -/

namespace VlfProto.Store
open Platform Option

structure RelayState where
  connID : Bytes
  clientID : Bytes
  lastActive : ℤ

structure RelayStore (κ : Type*) where
  byID : Table Bytes RelayState
  byClient : Table Bytes (Finset Bytes)
  wheel : Wheel κ

variable {κ : Type*}

def newRelayStore (wheel : Wheel κ) : RelayStore κ := ⟨∅, ∅, wheel⟩

def relayKey (connID : Bytes) : Bytes := ascii "relay:" ++ connID

theorem relayKey_inj {connID connID' : Bytes} :
    relayKey connID = relayKey connID' ↔ connID = connID' :=
  List.append_right_inj _

namespace RelayStore

def add (s : RelayStore κ) (st : RelayState) (ttl : Duration) (onExpire : κ) :
    Option (RelayStore κ) :=
  (s.wheel.upsert (relayKey st.connID) ttl (some onExpire)).map fun wheel => {
    byID := s.byID.insert st.connID st
    byClient := s.byClient.insert st.clientID
      (insert st.connID ((s.byClient.lookup st.clientID).getD ∅))
    wheel }

/-- The returned flag tells whether a timer was armed again. -/
def touch (s : RelayStore κ) (connID : Bytes) (ttl : Duration) (now : ℤ) :
    Option (Bool × RelayStore κ) :=
  match s.byID.lookup connID with
  | none => some (false, s)
  | some st => (s.wheel.touch (relayKey connID) ttl).map fun r =>
    (r.1, { s with byID := s.byID.insert connID { st with lastActive := now }, wheel := r.2 })

/-- A client's set of connections goes with its last member. -/
def unlist (byClient : Table Bytes (Finset Bytes)) (clientID connID : Bytes) :
    Table Bytes (Finset Bytes) :=
  match byClient.lookup clientID with
  | none => byClient
  | some set =>
    if set.erase connID = ∅ then byClient.erase clientID
    else byClient.insert clientID (set.erase connID)

def delete (s : RelayStore κ) (connID : Bytes) : Option RelayState × RelayStore κ :=
  match s.byID.lookup connID with
  | none => (none, s)
  | some st => (some st, {
      byID := s.byID.erase connID
      byClient := unlist s.byClient st.clientID connID
      wheel := s.wheel.remove (relayKey connID) })

def tick (s : RelayStore κ) : RelayStore κ := { s with wheel := s.wheel.tick }

end RelayStore

namespace Wheel

variable {w w' : Wheel κ} {key : Bytes} {ttl : Duration} {callback : Option κ}

/-- The callback armed under a key, which may be a nil function. -/
def armedFor (w : Wheel κ) (key : Bytes) : Option (Option κ) :=
  (w.entries.lookup key).map WheelEntry.callback

theorem armedFor_eq_none : w.armedFor key = none ↔ w.entries.lookup key = none :=
  map_eq_none_iff

theorem armedFor_removeLocked (w : Wheel κ) (key key' : Bytes) :
    (w.removeLocked key).armedFor key' = if key' = key then none else w.armedFor key' := by
  unfold armedFor
  rw [removeLocked_entries]
  split_ifs <;> rfl

theorem armedFor_rearm (h : (w.removeLocked key).arm key ttl callback = some w') (key' : Bytes) :
    w'.armedFor key' = if key' = key then some callback else w.armedFor key' := by
  obtain ⟨-, -, -, -, hentries, -⟩ := arm_cases h
  unfold armedFor
  rw [hentries, removeLocked_entries]
  split_ifs <;> rfl

theorem armedFor_touch {armed : Bool} (h : w.touch key ttl = some (armed, w')) (key' : Bytes) :
    w'.armedFor key' = w.armedFor key' := by
  obtain ⟨-, -, rfl⟩ | ⟨-, entry, hentry, harm⟩ := touch_cases h
  · rfl
  · rw [armedFor_rearm harm]
    split_ifs with hkey
    · rw [armedFor, hkey, hentry, map_some]
    · rfl

theorem touch_wellFormed {armed : Bool} (hw : w.WellFormed)
    (h : w.touch key ttl = some (armed, w')) : w'.WellFormed := by
  obtain ⟨-, -, rfl⟩ | ⟨-, entry, -, harm⟩ := touch_cases h
  · exact hw
  · exact rearm_wellFormed hw harm

theorem armedFor_tick (hw : w.WellFormed) (key : Bytes) :
    w.tick.armedFor key = w.armedFor key ∨
      w.tick.armedFor key = none ∧
        ∀ callback, w.armedFor key = some (some callback) → callback ∈ w.callbacks := by
  cases hentry : w.entries.lookup key with
  | none =>
    left
    rw [armedFor, armedFor, tick_entries hw, hentry, bind_none]
  | some entry =>
    have htick := tick_lookup hw hentry
    split_ifs at htick with hwait
    · right
      refine ⟨armedFor_eq_none.mpr htick, fun callback hcallback => ?_⟩
      have hdue : w.due.lookup key = some entry := by
        rw [due_lookup hw, hentry, bind_some, if_pos hwait]
      rw [armedFor, hentry, map_some, some.injEq] at hcallback
      rw [callbacks, Multiset.mem_filterMap]
      exact ⟨⟨key, entry⟩, Finmap.lookup_eq_some_iff.mp hdue, hcallback⟩
    · obtain ⟨entry', hentry', hcallback, -⟩ := htick
      left
      rw [armedFor, armedFor, hentry, hentry', map_some, map_some, hcallback]

theorem exists_armedFor_of_mem_callbacks (hw : w.WellFormed) {callback : κ}
    (h : callback ∈ w.callbacks) : ∃ key, w.armedFor key = some (some callback) := by
  rw [callbacks, Multiset.mem_filterMap] at h
  obtain ⟨⟨key, entry⟩, hmem, hcallback⟩ := h
  have hdue : w.due.lookup key = some entry := Finmap.lookup_eq_some_iff.mpr hmem
  rw [due_lookup hw] at hdue
  obtain ⟨entry', hentry, hsame⟩ := bind_eq_some_iff.mp hdue
  obtain rfl : entry' = entry := by
    split_ifs at hsame
    exact some.inj hsame
  exact ⟨key, by rw [armedFor, hentry, map_some, hcallback]⟩

end Wheel

namespace RelayStore

variable {s s' : RelayStore κ} {connID : Bytes} {ttl : Duration}

theorem add_spec {st : RelayState} {onExpire : κ} (hw : s.wheel.WellFormed)
    (h : s.add st ttl onExpire = some s') :
    s'.wheel.WellFormed ∧
    (∀ key, s'.wheel.armedFor key =
      if key = relayKey st.connID then some (some onExpire) else s.wheel.armedFor key) ∧
    ∀ id, s'.byID.lookup id = if id = st.connID then some st else s.byID.lookup id := by
  obtain ⟨wheel, hupsert, rfl⟩ := map_eq_some_iff.mp h
  exact ⟨Wheel.rearm_wellFormed hw hupsert, Wheel.armedFor_rearm hupsert,
    fun id => Table.lookup_insert_eq _ _ _ _⟩

theorem touch_spec {armed : Bool} {now : ℤ} (hw : s.wheel.WellFormed)
    (h : s.touch connID ttl now = some (armed, s')) :
    s'.wheel.WellFormed ∧ (∀ key, s'.wheel.armedFor key = s.wheel.armedFor key) ∧
    ∀ id, (s'.byID.lookup id).isSome = (s.byID.lookup id).isSome := by
  unfold touch at h
  cases hst : s.byID.lookup connID with
  | none =>
    rw [hst] at h
    cases h
    exact ⟨hw, fun _ => rfl, fun _ => rfl⟩
  | some st =>
    rw [hst] at h
    obtain ⟨r, htouch, hpair⟩ := map_eq_some_iff.mp h
    cases hpair
    refine ⟨Wheel.touch_wellFormed hw htouch, Wheel.armedFor_touch htouch, fun id => ?_⟩
    dsimp only
    rw [Table.lookup_insert_eq]
    split_ifs with hid
    · rw [hid, hst]
      rfl
    · rfl

theorem delete_spec (hw : s.wheel.WellFormed) (connID : Bytes) :
    (s.delete connID).2.wheel.WellFormed ∧
    (∀ key, (s.delete connID).2.wheel.armedFor key =
      if key = relayKey connID ∧ (s.byID.lookup connID).isSome then none
      else s.wheel.armedFor key) ∧
    ∀ id, (s.delete connID).2.byID.lookup id = if id = connID then none else s.byID.lookup id := by
  unfold delete
  cases hst : s.byID.lookup connID with
  | none =>
    refine ⟨hw, fun key => by simp, fun id => ?_⟩
    dsimp only
    split_ifs with hid
    · rw [hid, hst]
    · rfl
  | some st =>
    refine ⟨Wheel.removeLocked_wellFormed hw _, fun key => ?_,
      fun id => Table.lookup_erase_eq _ _ _⟩
    simpa [Wheel.remove] using Wheel.armedFor_removeLocked s.wheel (relayKey connID) key

end RelayStore
end VlfProto.Store
