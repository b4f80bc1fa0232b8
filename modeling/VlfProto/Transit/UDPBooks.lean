import VlfProto.Platform.Counting
import VlfProto.Transit.UDPLane

/-! # The sessions of a transit UDP lane, their table and their gauge -/

namespace VlfProto.Transit
open Platform Transition Function Option Finset

instance : Fintype CloseReason where
  elems := {.shutdown, .idleTimeout, .backendReadError, .clientWriteError, .backendWriteError}
  complete reason := by cases reason <;> decide

namespace FinalizeStage

/-- How often `finalizeSession` has been called before this action. -/
def finalized : FinalizeStage → ℕ
  | .delete _ _ => 0
  | .closeConn _ => 0
  | .decActive _ => 1
  | .incClosed _ => 1

/-- The gauge has been lowered and the closing not been counted. -/
def owed : FinalizeStage → ℤ
  | .incClosed _ => 1
  | _ => 0

end FinalizeStage

/-- What the `closeOnce` of a session says about its closing. -/
def onceFinalized : Once LaneGoroutine FinalizeStage → ℕ
  | .idle => 0
  | .running _ stage => stage.finalized
  | .done => 1

def onceOwed : Once LaneGoroutine FinalizeStage → ℤ
  | .running _ stage => stage.owed
  | _ => 0

/-- The table entry of the session has not been deleted. -/
def OnceStored : Once LaneGoroutine FinalizeStage → Prop
  | .idle => True
  | .running _ (.delete _ _) => True
  | _ => False

theorem onceFinalized_le (cell : Once LaneGoroutine FinalizeStage) : onceFinalized cell ≤ 1 := by
  cases cell with
  | running g stage => cases stage <;> simp [onceFinalized, FinalizeStage.finalized]
  | _ => simp [onceFinalized]

namespace LaneRunPc

/-- The gauge has been raised and the opening not been counted. -/
def owed : LaneRunPc → ℤ
  | .incOpened _ _ _ => 1
  | _ => 0

def Holds : LaneRunPc → String → ℕ → Prop
  | .incActive a j _, addr, i => a = addr ∧ j = i
  | .incOpened a j _, addr, i => a = addr ∧ j = i
  | .spawn a j _, addr, i => a = addr ∧ j = i
  | .touch a j _, addr, i => a = addr ∧ j = i
  | .write a j _, addr, i => a = addr ∧ j = i
  | .closing a j, addr, i => a = addr ∧ j = i
  | _, _, _ => False

end LaneRunPc

def LaneCloserPc.taken : LaneCloserPc → List ℕ
  | .finalize pending => pending
  | .closing i pending => i :: pending
  | _ => []

namespace UDPLane

variable {s s' : UDPLane} {i j : ℕ} {session : UDPSession} {g : LaneGoroutine}
  {first : FinalizeStage} {r : UDPLane × Bool}

def closedTotal (s : UDPLane) : ℤ := ∑ reason, (s.closedBy reason : ℤ)

def owed (s : UDPLane) : ℤ := ∑ i ∈ Finset.range s.created, onceOwed (s.sessions i).closeOnce

/-- The gauge and the counters agree but for the updates under way. -/
def Balanced (s : UDPLane) : Prop := s.active + s.closedTotal + s.owed = s.opened + s.run.owed

structure Sound (s : UDPLane) : Prop where
  finalized : ∀ i, (s.sessions i).finalized = onceFinalized (s.sessions i).closeOnce
  table : ∀ addr i, s.table.lookup addr = some i →
    i < s.created ∧ (s.sessions i).clientAddr = addr
  held : ∀ addr i, s.run.Holds addr i → i < s.created ∧ (s.sessions i).clientAddr = addr ∧
    (s.closed = false → ∀ j, s.table.lookup addr = some j → j = i)
  dialing : ∀ addr data, s.run = .dial addr data → s.table.lookup addr = none
  piped : ∀ i, (s.sessions i).pipe ≠ .notStarted → i < s.created
  taken : ∀ i ∈ s.closer.taken, i < s.created
  closer : s.closed = false → s.closer = .idle
  deleting : ∀ i g key reason, (s.sessions i).closeOnce = .running g (.delete key reason) →
    key = (s.sessions i).clientAddr
  stored : s.closed = false → ∀ i < s.created, OnceStored (s.sessions i).closeOnce →
    s.table.lookup (s.sessions i).clientAddr = some i

theorem new_sound (idleTimeout : ℤ) : (new idleTimeout).Sound where
  finalized _ := rfl
  table addr i h := by simp [new] at h
  held _ _ h := by cases h
  dialing _ _ h := by cases h
  piped _ h := absurd rfl h
  taken _ h := by cases h
  closer _ := rfl
  deleting _ _ _ _ h := by cases h
  stored _ i h := by cases h

theorem new_balanced (idleTimeout : ℤ) : (new idleTimeout).Balanced := by
  simp [Balanced, new, closedTotal, owed, LaneRunPc.owed]

theorem setSession_self : (s.setSession i session).sessions i = session :=
  update_self _ _ _

theorem setSession_of_ne (h : j ≠ i) : (s.setSession i session).sessions j = s.sessions j :=
  update_of_ne h _ _

theorem setSession_setSession (session' : UDPSession) :
    (s.setSession i session).setSession i session' = s.setSession i session' := by
  simp [setSession]

theorem forall_setSession {P : ℕ → UDPSession → Prop} (hs : ∀ j, P j (s.sessions j))
    (hi : P i session) (j : ℕ) : P j ((s.setSession i session).sessions j) := by
  by_cases hj : j = i
  · subst hj
    rwa [setSession_self]
  · rw [setSession_of_ne hj]
    exact hs j

theorem owed_setSession (session : UDPSession) (hi : i < s.created) :
    (s.setSession i session).owed + onceOwed (s.sessions i).closeOnce =
      s.owed + onceOwed session.closeOnce :=
  sum_range_update (fun session : UDPSession => onceOwed session.closeOnce) s.sessions session hi

theorem Sound.setSession (hs : s.Sound) (hi : i < s.created)
    (haddr : session.clientAddr = (s.sessions i).clientAddr)
    (hfinalized : session.finalized = onceFinalized session.closeOnce)
    (hdeleting : ∀ g key reason, session.closeOnce = .running g (.delete key reason) →
      key = session.clientAddr)
    (hstored : OnceStored session.closeOnce → OnceStored (s.sessions i).closeOnce) :
    (s.setSession i session).Sound := by
  have hsame : ∀ j, ((s.setSession i session).sessions j).clientAddr = (s.sessions j).clientAddr :=
    forall_setSession (P := fun j session => session.clientAddr = (s.sessions j).clientAddr)
      (fun _ => rfl) haddr
  refine { hs with
    finalized := forall_setSession (P := fun _ session => session.finalized = onceFinalized
      session.closeOnce) hs.finalized hfinalized
    table := fun addr j hj => ?_
    held := fun addr j hj => ?_
    piped := forall_setSession (P := fun j session => session.pipe ≠ .notStarted → j < s.created)
      hs.piped fun _ => hi
    deleting := forall_setSession (P := fun _ session => ∀ g key reason,
      session.closeOnce = .running g (.delete key reason) → key = session.clientAddr)
      hs.deleting hdeleting
    stored := fun hclosed j hj hcell => ?_ }
  · rw [hsame j]
    exact hs.table addr j hj
  · rw [hsame j]
    exact hs.held addr j hj
  · rw [hsame j]
    refine hs.stored hclosed j hj ?_
    by_cases hji : j = i
    · subst hji
      rw [setSession_self] at hcell
      exact hstored hcell
    · rwa [setSession_of_ne hji] at hcell

theorem Sound.setOther (hs : s.Sound) (hi : i < s.created)
    (haddr : session.clientAddr = (s.sessions i).clientAddr)
    (hcell : session.closeOnce = (s.sessions i).closeOnce)
    (hfinalized : session.finalized = (s.sessions i).finalized) :
      (s.setSession i session).Sound := by
  refine hs.setSession hi haddr ?_ ?_ ?_
  · rw [hfinalized, hcell]
    exact hs.finalized i
  · rw [hcell, haddr]
    exact hs.deleting i
  · rw [hcell]
    exact id

theorem Balanced.setOther (hb : s.Balanced) (hi : i < s.created)
    (hcell : session.closeOnce = (s.sessions i).closeOnce) : (s.setSession i session).Balanced := by
  have hsum := owed_setSession session hi
  rw [hcell] at hsum
  have howed : (s.setSession i session).owed = s.owed := add_right_cancel hsum
  rw [Balanced, howed]
  exact hb

theorem Sound.deleteEntry {key : String} {reason : CloseReason} (hs : s.Sound)
    (hi : i < s.created)
    (hcell : (s.sessions i).closeOnce = .running g (.delete key reason)) :
    ({ s with table := s.table.erase key }.setSession i
      { s.sessions i with closeOnce := .running g (.closeConn reason) }).Sound := by
  obtain rfl := hs.deleting i g key reason hcell
  have hfinalized := hs.finalized i
  rw [hcell] at hfinalized
  have hset : (s.setSession i
      { s.sessions i with closeOnce := .running g (.closeConn reason) }).Sound :=
    hs.setSession hi rfl hfinalized nofun nofun
  have herase : ∀ addr j, (s.table.erase (s.sessions i).clientAddr).lookup addr = some j →
      s.table.lookup addr = some j := by
    intro addr j h
    rw [Table.lookup_erase_eq] at h
    split_ifs at h
    exact h
  refine { hset with
    table := fun addr j h => hset.table addr j (herase addr j h)
    held := fun addr j h => ?_
    dialing := fun addr data h => ?_
    stored := fun hclosed j hj hcell' => ?_ }
  · obtain ⟨hlt, haddr, hown⟩ := hset.held addr j h
    exact ⟨hlt, haddr, fun hclosed k hk => hown hclosed k (herase addr k hk)⟩
  · refine (Table.lookup_erase_eq _ _ _).trans ?_
    rw [hs.dialing addr data h]
    exact ite_self _
  · have hji : j ≠ i := by
      rintro rfl
      rw [setSession_self] at hcell'
      exact hcell'
    have hlookup := hset.stored hclosed j hj hcell'
    have hi' := hs.stored hclosed i hi (by rw [hcell]; trivial)
    rw [setSession_of_ne hji] at hlookup ⊢
    refine (Table.lookup_erase_eq _ _ _).trans ?_
    rw [if_neg]
    · exact hlookup
    · intro haddr
      rw [haddr] at hlookup
      exact hji (some.inj (hlookup.symm.trans hi'))

theorem closedTotal_update (closedBy : CloseReason → ℕ) (reason : CloseReason) :
    ∑ x, (update closedBy reason (closedBy reason + 1) x : ℤ) =
      ∑ x, (closedBy x : ℤ) + 1 := by
  have hmem := mem_univ reason
  have hrest : ∀ x ∈ Finset.univ.erase reason,
      (update closedBy reason (closedBy reason + 1) x : ℤ) = closedBy x := by
    intro x hx
    rw [update_of_ne (ne_of_mem_erase hx)]
  rw [← add_sum_erase _ _ hmem, ← add_sum_erase _ (fun x => (closedBy x : ℤ)) hmem,
    sum_congr rfl hrest, update_self]
  push_cast
  ring

/-- What one action at a `closeOnce` leaves alone. -/
structure ClosingFrame (s s' : UDPLane) : Prop where
  run : s'.run = s.run
  closer : s'.closer = s.closer
  closed : s'.closed = s.closed
  created : s'.created = s.created

/-- The first action of who closes session `i`. Only `Close` does not delete the entry. -/
inductive Closes (s : UDPLane) (i : ℕ) : FinalizeStage → Prop
  | delete (reason : CloseReason) : Closes s i (.delete (s.sessions i).clientAddr reason)
  | shutdown (reason : CloseReason) (hclosed : s.closed = true) : Closes s i (.closeConn reason)

theorem closeOnceStep_frame (h : s.closeOnceStep g i first = some r) : s.ClosingFrame r.1 := by
  obtain ⟨t, hact, rfl⟩ := map_eq_some_iff.mp h
  rcases Once.act_cases hact with ⟨-, rfl⟩ | ⟨stage, s', next, -, hbody, rfl⟩ | ⟨-, rfl⟩
  · exact ⟨rfl, rfl, rfl, rfl⟩
  · cases stage with
    | delete key reason =>
      obtain ⟨-, h⟩ := ite_none_left_eq_some.mp hbody
      cases h
      exact ⟨rfl, rfl, rfl, rfl⟩
    | closeConn | decActive | incClosed =>
      cases hbody
      exact ⟨rfl, rfl, rfl, rfl⟩
  · exact ⟨rfl, rfl, rfl, rfl⟩

theorem closeOnceStep_sound (hs : s.Sound) (hi : i < s.created) (hfirst : s.Closes i first)
    (h : s.closeOnceStep g i first = some r) : r.1.Sound := by
  obtain ⟨t, hact, rfl⟩ := map_eq_some_iff.mp h
  have hfinalized := hs.finalized i
  rcases Once.act_cases hact with ⟨hcell, rfl⟩ | ⟨stage, s', next, hcell, hbody, rfl⟩ |
    ⟨hcell, rfl⟩ <;> rw [hcell] at hfinalized
  · cases hfirst with
    | delete reason =>
      refine hs.setSession hi rfl hfinalized ?_ fun _ => by rw [hcell]; trivial
      rintro g key reason ⟨⟩
      rfl
    | shutdown reason => exact hs.setSession hi rfl hfinalized nofun nofun
  · cases stage with
    | delete key reason =>
      obtain ⟨-, h⟩ := ite_none_left_eq_some.mp hbody
      cases h
      exact hs.deleteEntry hi hcell
    | closeConn reason =>
      cases hbody
      dsimp only
      rw [setSession_setSession, setSession_self]
      refine hs.setSession hi rfl ?_ nofun nofun
      rw [hfinalized]
      rfl
    | decActive reason =>
      cases hbody
      have hset : (s.setSession i
          { s.sessions i with closeOnce := .running g (.incClosed reason) }).Sound :=
        hs.setSession hi rfl hfinalized nofun nofun
      exact { hset with }
    | incClosed reason =>
      cases hbody
      have hset : (s.setSession i { s.sessions i with closeOnce := .done }).Sound :=
        hs.setSession hi rfl hfinalized nofun nofun
      exact { hset with }
  · exact hs.setSession hi rfl hfinalized nofun nofun

/-- A step of a closing moves what is owed between the gauge and the counters. -/
theorem Balanced.setCell {table : Table String ℕ} {active : ℤ} {closedBy : CloseReason → ℕ}
    (hb : s.Balanced) (hi : i < s.created)
    (h : active + ∑ reason, (closedBy reason : ℤ) + onceOwed session.closeOnce =
      s.active + s.closedTotal + onceOwed (s.sessions i).closeOnce) :
    ({ s with table := table, active := active, closedBy := closedBy }.setSession i
      session).Balanced := by
  have hsum := owed_setSession session hi
  unfold Balanced at hb ⊢
  change active + ∑ reason, (closedBy reason : ℤ) + (s.setSession i session).owed =
    s.opened + s.run.owed
  linarith

theorem closeOnceStep_balanced (hb : s.Balanced) (hi : i < s.created) (hfirst : first.owed = 0)
    (h : s.closeOnceStep g i first = some r) : r.1.Balanced := by
  obtain ⟨t, hact, rfl⟩ := map_eq_some_iff.mp h
  rcases Once.act_cases hact with ⟨hcell, rfl⟩ | ⟨stage, s', next, hcell, hbody, rfl⟩ | ⟨hcell, rfl⟩
  · refine hb.setCell hi ?_
    rw [hcell]
    simp [onceOwed, hfirst, closedTotal]
  · cases stage with
    | delete key reason =>
      obtain ⟨-, h⟩ := ite_none_left_eq_some.mp hbody
      cases h
      refine hb.setCell hi ?_
      rw [hcell]
      rfl
    | closeConn reason =>
      cases hbody
      dsimp only
      rw [setSession_setSession, setSession_self]
      refine hb.setCell hi ?_
      rw [hcell]
      rfl
    | decActive reason =>
      cases hbody
      refine hb.setCell hi ?_
      rw [hcell]
      change s.active - 1 + s.closedTotal + 1 = s.active + s.closedTotal + 0
      ring
    | incClosed reason =>
      cases hbody
      refine hb.setCell hi ?_
      rw [hcell, closedTotal_update]
      change s.active + (s.closedTotal + 1) + 0 = s.active + s.closedTotal + 1
      ring
  · refine hb.setCell hi ?_
    rw [hcell]
    rfl

end UDPLane
end VlfProto.Transit
