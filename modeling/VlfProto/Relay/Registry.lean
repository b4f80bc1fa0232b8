import VlfProto.Relay.Ownership

/-! # The table and the connections agree -/

namespace VlfProto.Relay
open Platform Transition

def OpenPc.draws : OpenPc → Bool
  | .newConnID => true
  | _ => false

namespace Lane

variable {l l' : Lane} {label : LaneStep} {m m' : Manager} {opens : ℕ → OpenCall} {opened k : ℕ}
  {step : ConnStep} {g : Goroutine}

/-- An id that is drawn has not been drawn before. -/
def FreshIDs (l : Lane) : LaneStep → Prop
  | .opener k true raw _ => (l.opens k).pc.draws → ∀ j < l.opened, (l.opens j).pc.created →
      (l.manager.relayConns j).id ≠ newConnID raw
  | _ => True

instance (l : Lane) (label : LaneStep) : Decidable (l.FreshIDs label) := by
  unfold FreshIDs
  split <;> infer_instance

structure Sound (m : Manager) (opens : ℕ → OpenCall) (opened : ℕ) : Prop
    extends Filed m opens opened where
  distinct : ∀ j k, (opens j).pc.created → (opens k).pc.created →
    (m.relayConns j).id = (m.relayConns k).id → j = k
  owner : ∀ k, (opens k).pc.created → (m.relayConns k).clientID = (opens k).clientID
  listed : ∀ k, (opens k).pc.inserted → (m.relayConns k).onClosed = .notCalled →
    m.conns.lookup (m.relayConns k).id = some k
  unlisted : ∀ connID k, m.conns.lookup connID = some k → (m.relayConns k).onClosed = .notCalled
  registered : ∀ k, (m.relayConns k).conn.registered ↔ (m.relayConns k).onClosed = .notCalled
  untouched : ∀ k, (opens k).pc.inserted = false → (m.relayConns k).conn.reader = .notStarted ∧
    (m.relayConns k).conn.writer = .notStarted ∧ (m.relayConns k).onClosed = .notCalled

theorem new_sound (cfg : ManagerConfig) (limits : Limits.Config) :
    Sound (new cfg limits).manager (new cfg limits).opens (new cfg limits).opened where
  toFiled := new_filed cfg limits
  distinct j k hj := by cases hj
  owner k hk := by cases hk
  listed k hk := by cases hk
  unlisted connID k hk := by simp [new, Manager.new] at hk
  registered k := by simp [new, Manager.new, RelayConn.new, Conn.new]
  untouched k _ := ⟨rfl, rfl, rfl⟩

/-- The table and what it depends on are the same. -/
structure SameRegistry (m m' : Manager) (opens : ℕ → OpenCall) : Prop where
  conns : m'.conns = m.conns
  names : ∀ j, m.SameNames m' j
  onClosed : ∀ j, (m'.relayConns j).onClosed = .notCalled ↔ (m.relayConns j).onClosed = .notCalled
  registered : ∀ j, (m'.relayConns j).conn.registered = (m.relayConns j).conn.registered
  untouched : ∀ j, (opens j).pc.inserted = false →
    (m'.relayConns j).conn.reader = (m.relayConns j).conn.reader ∧
      (m'.relayConns j).conn.writer = (m.relayConns j).conn.writer

theorem SameRegistry.sound (h : SameRegistry m m' opens) (hm : Sound m opens opened) :
    Sound m' opens opened where
  called := hm.called
  entry connID k hk := by
    rw [h.conns] at hk
    rw [(h.names k).1]
    exact hm.entry connID k hk
  distinct j k hj hk hid := by
    rw [(h.names j).1, (h.names k).1] at hid
    exact hm.distinct j k hj hk hid
  owner k hk := (h.names k).2.trans (hm.owner k hk)
  listed k hk hclosed := by
    rw [h.conns, (h.names k).1]
    exact hm.listed k hk ((h.onClosed k).mp hclosed)
  unlisted connID k hk := by
    rw [h.conns] at hk
    exact (h.onClosed k).mpr (hm.unlisted connID k hk)
  registered k := by
    rw [h.registered, h.onClosed]
    exact hm.registered k
  untouched k hk := by
    obtain ⟨hreader, hwriter, hclosed⟩ := hm.untouched k hk
    obtain ⟨hreader', hwriter'⟩ := h.untouched k hk
    exact ⟨hreader'.trans hreader, hwriter'.trans hwriter, (h.onClosed k).mpr hclosed⟩

theorem sameRegistry_note (m : Manager) (j : ℕ) (time : ℤ) :
    SameRegistry m (m.setRelayConn j { m.relayConns j with lastActive := time }) opens where
  conns := rfl
  names k := ⟨(m.note_fields j k time).1, (m.note_fields j k time).2.1⟩
  onClosed k := by rw [(m.note_fields j k time).2.2.2]
  registered k := by rw [(m.note_fields j k time).2.2.1]
  untouched k _ := by simp only [(m.note_fields j k time).2.2.1, and_self]

theorem sameRegistry_onClosedStep (h : m.onClosedStep k = some m') : SameRegistry m m' opens where
  conns := Manager.onClosedStep_conns h
  names := Manager.onClosedStep_sameNames h
  onClosed j := by
    rcases Manager.onClosedStep_cases h with ⟨g, hpc, rfl⟩ | ⟨g, hpc, rfl⟩ <;> by_cases hj : j = k
    all_goals simp [Manager.setRelayConn, hj, hpc]
  registered j := by
    rcases Manager.onClosedStep_cases h with ⟨g, -, rfl⟩ | ⟨g, -, rfl⟩ <;> by_cases hj : j = k
    all_goals simp [Manager.setRelayConn, hj]
  untouched j _ := by
    rcases Manager.onClosedStep_cases h with ⟨g, -, rfl⟩ | ⟨g, -, rfl⟩ <;> by_cases hj : j = k
    all_goals simp [Manager.setRelayConn, hj]

/-- A step of an inserted connection that does not take it out of the table. -/
theorem sameRegistry_connMoves (hk : (opens k).pc.inserted) (h : m.ConnMoves m' k g step)
    (hstays : (m.relayConns k).conn.registered → (m'.relayConns k).conn.registered) :
    SameRegistry m m' opens where
  conns := (h.stays hstays).1
  names := h.sameNames
  onClosed j := by
    by_cases hj : j = k
    · rw [hj, (h.stays hstays).2]
    · rw [h.others j hj]
  registered j := by
    by_cases hj : j = k
    · rw [hj, Bool.eq_iff_iff]
      exact ⟨Conn.registered_of_step h.conn, hstays⟩
    · rw [h.others j hj]
  untouched j hj := by
    have hne : j ≠ k := by
      rintro rfl
      simp [hk] at hj
    rw [h.others j hne]
    exact ⟨rfl, rfl⟩

theorem Sound.inserted_of_onClosedStep (hm : Sound m opens opened)
    (h : m.onClosedStep k = some m') : (opens k).pc.inserted := by
  by_contra hnot
  have hclosed := (hm.untouched k (by simpa using hnot)).2.2
  rcases Manager.onClosedStep_cases h with ⟨g, hpc, -⟩ | ⟨g, hpc, -⟩ <;> simp [hclosed] at hpc

/-- The body of `Close` finds the connection in the table and takes it out. -/
theorem Sound.leaves (hm : Sound m opens opened) (hk : (opens k).pc.inserted)
    (h : m.ConnMoves m' k g step) (hbefore : (m.relayConns k).conn.registered)
    (hafter : (m'.relayConns k).conn.registered = false) :
    m'.conns = m.conns.erase (m.relayConns k).id ∧
      (m'.relayConns k).onClosed = .deleteTimer g := by
  have hlisted := hm.listed k hk ((hm.registered k).mp hbefore)
  rcases h.leaves hbefore hafter with ⟨hnone, -⟩ | ⟨-, hconns, hclosed⟩
  · simp [hlisted] at hnone
  · exact ⟨hconns, hclosed⟩

theorem Sound.connMoves (hm : Sound m opens opened) (hk : (opens k).pc.inserted)
    (h : m.ConnMoves m' k g step) : Sound m' opens opened := by
  by_cases hstays : (m.relayConns k).conn.registered → (m'.relayConns k).conn.registered
  · exact (sameRegistry_connMoves hk h hstays).sound hm
  obtain ⟨hbefore, hafter⟩ := Classical.not_imp.mp hstays
  rw [Bool.not_eq_true] at hafter
  obtain ⟨hconns, hclosed⟩ := hm.leaves hk h hbefore hafter
  have hentry : ∀ connID j, m'.conns.lookup connID = some j →
      j ≠ k ∧ m.conns.lookup connID = some j := by
    intro connID j hj
    rw [hconns, Table.lookup_erase_eq] at hj
    split_ifs at hj with hid
    refine ⟨?_, hj⟩
    rintro rfl
    exact hid (hm.entry connID j hj).2.symm
  constructor
  · refine ⟨hm.called, fun connID j hj => ?_⟩
    rw [(h.sameNames j).1]
    exact hm.entry connID j (hentry connID j hj).2
  · intro i j hi hj hid
    rw [(h.sameNames i).1, (h.sameNames j).1] at hid
    exact hm.distinct i j hi hj hid
  · exact fun j hj => (h.sameNames j).2.trans (hm.owner j hj)
  · intro j hj hopen
    have hne : j ≠ k := by
      rintro rfl
      simp [hclosed] at hopen
    have hids : (m.relayConns j).id ≠ (m.relayConns k).id := fun hid =>
      hne (hm.distinct j k (OpenPc.created_of_inserted hj) (OpenPc.created_of_inserted hk) hid)
    rw [h.others j hne] at hopen ⊢
    rw [hconns, Table.lookup_erase_eq, if_neg hids]
    exact hm.listed j hj hopen
  · intro connID j hj
    obtain ⟨hne, hlookup⟩ := hentry connID j hj
    rw [h.others j hne]
    exact hm.unlisted connID j hlookup
  · intro j
    by_cases hj : j = k
    · rw [hj, hafter, hclosed]
      simp
    · rw [h.others j hj]
      exact hm.registered j
  · intro j hj
    have hne : j ≠ k := by
      rintro rfl
      simp [hk] at hj
    rw [h.others j hne]
    exact hm.untouched j hj

end Lane
end VlfProto.Relay
