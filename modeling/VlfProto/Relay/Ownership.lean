import VlfProto.Relay.LaneMoves

/-! # Who owns a connection -/

namespace VlfProto.Relay
open Platform Transition Function

namespace Manager

variable {m m' : Manager} {k : ℕ} {o : OpenCall} {ok : Bool} {raw : Bytes}
  {pc : OpenPc}

/-- Connection objects keep their ids and their clients. -/
def SameNames (m m' : Manager) (j : ℕ) : Prop :=
  (m'.relayConns j).id = (m.relayConns j).id ∧
    (m'.relayConns j).clientID = (m.relayConns j).clientID

theorem ConnMoves.sameNames {g : Goroutine} {label : ConnStep} (h : m.ConnMoves m' k g label)
    (j : ℕ) : m.SameNames m' j := by
  by_cases hj : j = k
  · rw [hj]
    exact ⟨h.id, h.clientID⟩
  · rw [SameNames, h.others j hj]
    exact ⟨rfl, rfl⟩

theorem onClosedStep_sameNames (h : m.onClosedStep k = some m') (j : ℕ) : m.SameNames m' j := by
  rcases onClosedStep_cases h with ⟨g, -, rfl⟩ | ⟨g, -, rfl⟩ <;> by_cases hj : j = k
  all_goals simp [SameNames, setRelayConn, hj]

theorem onClosedStep_conns (h : m.onClosedStep k = some m') : m'.conns = m.conns := by
  rcases onClosedStep_cases h with ⟨g, -, rfl⟩ | ⟨g, -, rfl⟩ <;> rfl

theorem ConnMoves.lookup {g : Goroutine} {label : ConnStep} (h : m.ConnMoves m' k g label)
    {connID : Bytes} {j : ℕ} (hj : m'.conns.lookup connID = some j) :
    m.conns.lookup connID = some j := by
  by_cases hstays : (m.relayConns k).conn.registered → (m'.relayConns k).conn.registered
  · rwa [(h.stays hstays).1] at hj
  · obtain ⟨hbefore, hafter⟩ := Classical.not_imp.mp hstays
    rcases h.leaves hbefore (by simpa using hafter) with ⟨-, hconns, -⟩ | ⟨-, hconns, -⟩
    · rwa [hconns] at hj
    · rw [hconns, Table.lookup_erase_eq] at hj
      split_ifs at hj
      exact hj

/-- An `Open` names its connection when it creates it, and never again. -/
theorem OpenMove.sameNames (h : m.OpenMove k o ok raw m' pc) {j : ℕ} (hj : j ≠ k ∨ o.pc.created) :
    m.SameNames m' j := by
  cases h with
  | creates now hpc hok =>
    have hne : j ≠ k := hj.resolve_right (by rw [hpc]; decide)
    rw [SameNames, setRelayConn_of_ne _ _ hne]
    exact ⟨rfl, rfl⟩
  | starts m' now response hpc hconn => exact (connStep_moves hconn).sameNames j
  | _ => exact ⟨rfl, rfl⟩

theorem OpenMove.created (h : m.OpenMove k o ok raw m' pc) (hc : o.pc.created) : pc.created := by
  cases h with
  | stays pc hcalled hreserved hbefore hafter => simp [hbefore] at hc
  | reserves limits hpc hlimits => simp [hpc, OpenPc.created] at hc
  | creates now hpc hok | inserts hpc | adds ttlStore now hpc hadd
  | starts m' now response hpc hconn => rfl
  | releases err hpc => simp [hpc, OpenPc.created] at hc

theorem OpenMove.inserted (h : m.OpenMove k o ok raw m' pc) (hi : o.pc.inserted) : pc.inserted := by
  cases h with
  | stays pc hcalled hreserved hbefore hafter =>
    simp [OpenPc.created_of_inserted hi] at hbefore
  | reserves limits hpc hlimits | creates now hpc hok | releases err hpc =>
    simp [hpc, OpenPc.inserted] at hi
  | inserts hpc | adds ttlStore now hpc hadd | starts m' now response hpc hconn => rfl

theorem OpenMove.called (h : m.OpenMove k o ok raw m' pc) : o.pc ≠ .notCalled := by
  cases h <;> simp_all

end Manager

namespace Lane

variable {l l' : Lane} {label : LaneStep} {labels : List LaneStep} {clientID connID : Bytes}

def owns (l : Lane) (clientID connID : Bytes) : Bool :=
  (List.range l.opened).any fun k => (l.opens k).pc.created &&
    (l.manager.relayConns k).id == connID && (l.manager.relayConns k).clientID == clientID

theorem owns_iff : l.owns clientID connID ↔ ∃ k < l.opened, (l.opens k).pc.created ∧
    (l.manager.relayConns k).id = connID ∧ (l.manager.relayConns k).clientID = clientID := by
  simp [owns, and_assoc]

/-- An `Open` that has created or inserted its connection stays so, and the
connection keeps its names. -/
theorem step_named (h : l.step label = some l') {k : ℕ} (hk : k < l.opened)
    (hc : (l.opens k).pc.created) :
    k < l'.opened ∧ (l'.opens k).pc.created ∧
      ((l.opens k).pc.inserted → (l'.opens k).pc.inserted) ∧
      l.manager.SameNames l'.manager k := by
  apply step_rule (P := fun m opens opened => k < opened ∧ (opens k).pc.created ∧
    ((l.opens k).pc.inserted → (opens k).pc.inserted) ∧ l.manager.SameNames m k) h
  · exact ⟨hk, hc, id, rfl, rfl⟩
  · intro clientID request
    rw [update_of_ne hk.ne]
    exact ⟨hk.trans (Nat.lt_succ_self _), hc, id, rfl, rfl⟩
  · intro j ok raw now m pc _ hmove
    by_cases hj : k = j
    · subst hj
      rw [update_self]
      exact ⟨hk, hmove.created hc, hmove.inserted, hmove.sameNames (.inr hc)⟩
    · rw [update_of_ne hj]
      exact ⟨hk, hc, id, hmove.sameNames (.inl hj)⟩
  · rintro j g step now m₁ m₂ - ⟨-, -, -, hid, hclient⟩ hconn
    obtain ⟨hid', hclient'⟩ := (Manager.connStep_moves hconn).sameNames k
    exact ⟨hk, hc, id, hid'.trans hid, hclient'.trans hclient⟩
  · intro j m honClosed
    exact ⟨hk, hc, id, Manager.onClosedStep_sameNames honClosed k⟩
  · exact fun m clientID n now hm => hm
  · rintro m j now ⟨-, -, -, hid, hclient⟩
    obtain ⟨hid', hclient', -⟩ := m.note_fields j k now
    exact ⟨hk, hc, id, hid'.trans hid, hclient'.trans hclient⟩
  · rintro m m' connID now hm htouch
    obtain ⟨r, -, rfl⟩ := Option.map_eq_some_iff.mp htouch
    exact hm
  · exact fun _ _ _ => ⟨hk, hc, id, rfl, rfl⟩

theorem step_owns (h : l.step label = some l') (ho : l.owns clientID connID) :
    l'.owns clientID connID := by
  obtain ⟨k, hk, hc, hid, hclient⟩ := owns_iff.mp ho
  obtain ⟨hk', hc', -, hid', hclient'⟩ := step_named h hk hc
  exact owns_iff.mpr ⟨k, hk', hc', hid'.trans hid, hclient'.trans hclient⟩

/-- What the table holds under an id is a connection of that id, entered by one of
the `Open` calls made so far. -/
structure Filed (m : Manager) (opens : ℕ → OpenCall) (opened : ℕ) : Prop where
  called : ∀ k, (opens k).pc ≠ .notCalled → k < opened
  entry : ∀ connID k, m.conns.lookup connID = some k →
    (opens k).pc.inserted ∧ (m.relayConns k).id = connID

theorem new_filed (cfg : ManagerConfig) (limits : Limits.Config) :
    Filed (new cfg limits).manager (new cfg limits).opens (new cfg limits).opened where
  called k hk := absurd rfl hk
  entry connID k hk := by simp [new, Manager.new] at hk

theorem Filed.openMove {m : Manager} {opens : ℕ → OpenCall} {opened j : ℕ} {ok : Bool}
    {raw : Bytes} {m' : Manager} {pc : OpenPc} (hm : Filed m opens opened)
    (hmove : m.OpenMove j (opens j) ok raw m' pc) :
    Filed m' (update opens j { opens j with pc }) opened where
  called k hk := by
    by_cases hj : k = j
    · rw [hj]
      exact hm.called j hmove.called
    · rw [update_of_ne hj] at hk
      exact hm.called k hk
  entry connID k hk := by
    have hentry : ∀ id i, m.conns.lookup id = some i →
        (update opens j { opens j with pc } i).pc.inserted ∧
          (m'.relayConns i).id = id := by
      intro id i hi
      obtain ⟨hinserted, hid⟩ := hm.entry id i hi
      have hcreated := OpenPc.created_of_inserted hinserted
      by_cases hj : i = j
      · subst hj
        rw [update_self]
        exact ⟨hmove.inserted hinserted, (hmove.sameNames (.inr hcreated)).1.trans hid⟩
      · rw [update_of_ne hj]
        exact ⟨hinserted, (hmove.sameNames (.inl hj)).1.trans hid⟩
    cases hmove with
    | inserts hpc =>
      dsimp only at hk
      rw [Table.lookup_insert_eq] at hk
      split_ifs at hk with heq
      · cases hk
        rw [update_self]
        exact ⟨rfl, heq.symm⟩
      · exact hentry connID k hk
    | starts m' now response hpc hconn =>
      exact hentry connID k ((Manager.connStep_moves hconn).lookup hk)
    | _ => exact hentry connID k hk

theorem step_filed (h : l.step label = some l') (hl : Filed l.manager l.opens l.opened) :
    Filed l'.manager l'.opens l'.opened := by
  apply step_rule (P := Filed) h hl
  · intro clientID request
    have hfresh : ∀ k, (l.opens k).pc.inserted → k ≠ l.opened := by
      intro k hk heq
      exact (hl.called k (fun hpc => by simp [hpc, OpenPc.inserted] at hk)).ne heq
    constructor
    · intro k hk
      by_cases hnew : k = l.opened
      · omega
      · rw [update_of_ne hnew] at hk
        exact (hl.called k hk).trans (Nat.lt_succ_self _)
    · intro connID k hk
      obtain ⟨hinserted, hid⟩ := hl.entry connID k hk
      rw [update_of_ne (hfresh k hinserted)]
      exact ⟨hinserted, hid⟩
  · intro j ok raw now m pc _ hmove
    exact hl.openMove hmove
  · intro j g step now m₁ m₂ _ hm hconn
    refine ⟨hm.called, fun connID k hk => ?_⟩
    have hmoves := Manager.connStep_moves hconn
    obtain ⟨hinserted, hid⟩ := hm.entry connID k (hmoves.lookup hk)
    exact ⟨hinserted, (hmoves.sameNames k).1.trans hid⟩
  · intro j m honClosed
    refine ⟨hl.called, fun connID k hk => ?_⟩
    rw [Manager.onClosedStep_conns honClosed] at hk
    obtain ⟨hinserted, hid⟩ := hl.entry connID k hk
    exact ⟨hinserted, (Manager.onClosedStep_sameNames honClosed k).1.trans hid⟩
  · exact fun m clientID n now hm => ⟨hm.called, hm.entry⟩
  · intro m j now hm
    refine ⟨hm.called, fun connID k hk => ?_⟩
    obtain ⟨hinserted, hid⟩ := hm.entry connID k hk
    exact ⟨hinserted, (m.note_fields j k now).1.trans hid⟩
  · intro m m' connID now hm htouch
    obtain ⟨r, -, rfl⟩ := Option.map_eq_some_iff.mp htouch
    exact ⟨hm.called, hm.entry⟩
  · exact fun _ _ _ => ⟨hl.called, hl.entry⟩

end Lane
end VlfProto.Relay
