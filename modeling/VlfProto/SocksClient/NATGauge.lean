import VlfProto.SocksClient.AssociationClosed
import VlfProto.Platform.Counting

/-! # What an association adds to the gauge of NAT entries -/

namespace VlfProto.SocksClient
open Platform Transition Option

namespace Association

variable {a b : Association} {g : Goroutine} {i : ℕ}

/-- How much more an association has added to the gauge than it has entries. -/
def excess (a : Association) : ℤ := a.natAdded - a.nat.keys.card

structure SameBooks (a b : Association) : Prop where
  excess : b.excess = a.excess
  dropped : b.dropped = a.dropped

theorem entryBody_books {stage : EntryStage} {next : Option EntryStage}
    (h : a.entryBody i stage = some (b, next)) : a.SameBooks b := by
  cases stage with
  | unlist =>
    rw [entryBody] at h
    split_ifs at h with hlisted
    · cases h
      have hcard := Table.card_keys_erase hlisted
      refine ⟨?_, rfl⟩
      simp only [excess]
      omega
    · cases h
      exact ⟨rfl, rfl⟩
  | _ => cases h; exact ⟨rfl, rfl⟩

theorem closeEntry_books {returns : Bool} (h : a.closeEntry g i = some (b, returns)) :
    a.SameBooks b := by
  obtain ⟨r, hact, hr⟩ := map_eq_some_iff.mp h
  cases hr
  rcases Once.act_cases hact with ⟨-, rfl⟩ | ⟨stage, c, next, -, hbody, rfl⟩ | ⟨-, rfl⟩
  · exact ⟨rfl, rfl⟩
  · obtain ⟨hexcess, hdropped⟩ := entryBody_books hbody
    exact ⟨hexcess, hdropped⟩
  · exact ⟨rfl, rfl⟩

theorem closeBody_books {stage : CloseStage} {next : Option CloseStage}
    (h : a.closeBody g stage = some (b, next)) : a.SameBooks b := by
  cases stage with
  | empty => cases h
  | entries todo =>
    cases todo with
    | nil => cases h; exact ⟨rfl, rfl⟩
    | cons i todo =>
      obtain ⟨⟨c, returns⟩, hclose, hr⟩ := map_eq_some_iff.mp h
      cases hr
      exact closeEntry_books hclose
  | _ => cases h; exact ⟨rfl, rfl⟩

theorem close_books {returns : Bool} (h : a.close g = some (b, returns)) : a.SameBooks b := by
  obtain ⟨r, hact, hr⟩ := map_eq_some_iff.mp h
  cases hr
  rcases Once.act_cases hact with ⟨-, rfl⟩ | ⟨stage, c, next, -, hbody, rfl⟩ | ⟨-, rfl⟩
  · exact ⟨rfl, rfl⟩
  · obtain ⟨hexcess, hdropped⟩ := closeBody_books hbody
    exact ⟨hexcess, hdropped⟩
  · exact ⟨rfl, rfl⟩

theorem readerStep_books {ok : Bool} (h : a.readerStep ok = some b) : a.SameBooks b := by
  cases hreader : a.reader
  case idle | returned => rw [readerStep, hreader] at h; cases h
  all_goals rw [readerStep, hreader] at h
  case lookup key =>
    dsimp only at h
    split at h
    · cases h; exact ⟨rfl, rfl⟩
    · split_ifs at h <;> cases h <;> exact ⟨rfl, rfl⟩
  case insert i =>
    dsimp only at h
    split at h
    · cases h; exact ⟨rfl, rfl⟩
    · rename_i hnone
      cases h
      have hcard := Table.card_keys_insert hnone i
      refine ⟨?_, rfl⟩
      simp only [excess]
      omega
  case closeDuplicate i j | closeEntry i =>
    obtain ⟨⟨c, returns⟩, hclose, rfl⟩ := map_eq_some_iff.mp h
    obtain ⟨hexcess, hdropped⟩ := closeEntry_books hclose
    exact ⟨hexcess, hdropped⟩
  case close =>
    obtain ⟨⟨c, returns⟩, hclose, rfl⟩ := map_eq_some_iff.mp h
    obtain ⟨hexcess, hdropped⟩ := close_books hclose
    exact ⟨hexcess, hdropped⟩
  all_goals
    cases h
    exact ⟨rfl, rfl⟩

theorem janitorStep_books (h : a.janitorStep = some b) : a.SameBooks b := by
  rw [janitorStep] at h
  split at h
  · split_ifs at h
    cases h
    exact ⟨rfl, rfl⟩
  · cases h
    exact ⟨rfl, rfl⟩
  · obtain ⟨⟨c, returns⟩, hclose, rfl⟩ := map_eq_some_iff.mp h
    obtain ⟨hexcess, hdropped⟩ := closeEntry_books hclose
    exact ⟨hexcess, hdropped⟩
  · cases h

theorem controlStep_books (h : a.controlStep = some b) : a.SameBooks b := by
  rw [controlStep] at h
  split at h
  · cases h
    exact ⟨rfl, rfl⟩
  · obtain ⟨⟨c, returns⟩, hclose, rfl⟩ := map_eq_some_iff.mp h
    obtain ⟨hexcess, hdropped⟩ := close_books hclose
    exact ⟨hexcess, hdropped⟩
  · cases h

theorem reverseStep_books {ok : Bool} (h : a.reverseStep i ok = some b) : a.SameBooks b := by
  rw [reverseStep] at h
  split at h
  · split_ifs at h <;> cases h <;> exact ⟨rfl, rfl⟩
  · obtain ⟨⟨c, returns⟩, hclose, rfl⟩ := map_eq_some_iff.mp h
    obtain ⟨hexcess, hdropped⟩ := closeEntry_books hclose
    exact ⟨hexcess, hdropped⟩
  · cases h

theorem outsideStep_books {k : ℕ} (h : a.outsideStep k = some b) : a.SameBooks b := by
  rw [outsideStep] at h
  split_ifs at h
  · obtain ⟨⟨c, returns⟩, hclose, rfl⟩ := map_eq_some_iff.mp h
    obtain ⟨hexcess, hdropped⟩ := close_books hclose
    exact ⟨hexcess, hdropped⟩
  · cases h
    exact ⟨rfl, rfl⟩

/-- When `Close` makes a new table, the entries of the old one stay in the gauge. -/
theorem emptyStep_books {order : List ℕ} (h : a.emptyStep order = some b) :
    b.excess = a.excess + a.nat.keys.card ∧ b.dropped = a.dropped + a.nat.keys.card := by
  rw [emptyStep] at h
  split at h
  · split_ifs at h
    cases h
    refine ⟨?_, rfl⟩
    simp [excess]
  · cases h

/-- An association has added its entries and those that `Close` has dropped. -/
def Counted (a : Association) : Prop := a.excess = a.dropped

theorem Counted.step_counted (ha : a.Counted) {action : AssociationAction}
    (h : a.step action = some b) : b.Counted := by
  have hsame : a.SameBooks b → b.Counted := by
    rintro ⟨hexcess, hdropped⟩
    rw [Counted, hexcess, hdropped]
    exact ha
  cases action with
  | serve =>
    simp only [step, serveStep] at h
    split_ifs at h
    cases h
    exact ha
  | datagram key =>
    simp only [step, datagramStep] at h
    split_ifs at h
    cases h
    exact ha
  | tick stale =>
    simp only [step, tickStep] at h
    split_ifs at h
    cases h
    exact ha
  | reader ok => exact hsame (readerStep_books h)
  | janitor => exact hsame (janitorStep_books h)
  | control => exact hsame (controlStep_books h)
  | reverse i ok => exact hsame (reverseStep_books h)
  | outside k => exact hsame (outsideStep_books h)
  | empty order =>
    obtain ⟨hexcess, hdropped⟩ := emptyStep_books h
    rw [Counted, hexcess, hdropped, ha]
    push_cast
    rfl

theorem Counted.natAdded_eq (ha : a.Counted) : a.natAdded = a.nat.keys.card + a.dropped := by
  rw [Counted, excess] at ha
  omega

end Association

/-! ### The gauge of NAT entries

The gauge is the number of entries of the open associations where every `Close` has found an
empty table and no entry was inserted after it.
-/

open Function Finset

/-- The manager of the associations, which it numbers in the order of their creation, and
the gauge `activeNATEntries` that they share. -/
structure UDPAssociationManager where
  maxAssoc : ℕ
  maxNAT : ℕ
  nextID : ℕ := 0
  associations : ℕ → Association := fun _ => .new maxNAT
  activeNATEntries : ℤ := 0

inductive ManagerAction where
  | create
  | association (i : ℕ) (action : AssociationAction)

namespace UDPAssociationManager

variable {m m' : UDPAssociationManager}

def new (maxAssoc maxNAT : ℕ) : UDPAssociationManager := { maxAssoc, maxNAT }

def items (m : UDPAssociationManager) : Finset ℕ :=
  (Finset.range m.nextID).filter fun i => (m.associations i).inItems

/-- A client asks for an association, which it does not get while there are too many. -/
def create (m : UDPAssociationManager) : UDPAssociationManager :=
  if m.maxAssoc ≤ m.items.card then m
  else
    { m with
      nextID := m.nextID + 1
      associations := update m.associations m.nextID (.new m.maxNAT) }

/-- One action of an association. What it adds to the gauge is added to the one that all
share. -/
def associationStep (m : UDPAssociationManager) (i : ℕ) (action : AssociationAction) :
    Option UDPAssociationManager :=
  if i < m.nextID then
    ((m.associations i).step action).map fun a =>
      { m with
        associations := update m.associations i a
        activeNATEntries := m.activeNATEntries + (a.natAdded - (m.associations i).natAdded) }
  else none

def step (m : UDPAssociationManager) : ManagerAction → Option UDPAssociationManager
  | .create => some m.create
  | .association i action => m.associationStep i action

def openAssociations (m : UDPAssociationManager) : Finset ℕ :=
  (Finset.range m.nextID).filter fun i => (m.associations i).closeOnce ≠ .done

structure Counted (m : UDPAssociationManager) : Prop where
  gauge : m.activeNATEntries = ∑ i ∈ Finset.range m.nextID, (m.associations i).natAdded
  association : ∀ i < m.nextID, (m.associations i).Counted

theorem Counted.create_counted (hm : m.Counted) : m.create.Counted := by
  rw [create]
  split_ifs
  · exact hm
  · have hold : ∀ i < m.nextID,
        update m.associations m.nextID (.new m.maxNAT) i = m.associations i :=
      fun i hi => update_of_ne hi.ne ..
    refine ⟨?_, fun i hi => ?_⟩
    · rw [hm.gauge]
      change _ = ∑ i ∈ Finset.range (m.nextID + 1),
        (update m.associations m.nextID (.new m.maxNAT) i).natAdded
      rw [sum_range_succ, update_self]
      refine (sum_congr rfl fun i hi => ?_).trans (add_zero _).symm
      rw [hold i (mem_range.mp hi)]
    · rcases Nat.lt_succ_iff_lt_or_eq.mp hi with hlt | rfl
      · exact (hold i hlt ▸ hm.association i hlt :)
      · change Association.Counted (update m.associations m.nextID _ m.nextID)
        rw [update_self]
        rfl

theorem Counted.associationStep_counted (hm : m.Counted) {i : ℕ} {action : AssociationAction}
    (h : m.associationStep i action = some m') : m'.Counted := by
  rw [associationStep] at h
  split_ifs at h with hi
  obtain ⟨a, ha, rfl⟩ := Option.map_eq_some_iff.mp h
  refine ⟨?_, fun j hj => ?_⟩
  · have hsum := sum_range_update Association.natAdded m.associations a hi
    have hgauge := hm.gauge
    dsimp only
    omega
  · by_cases hji : j = i
    · subst hji
      change Association.Counted (update m.associations j a j)
      rw [update_self]
      exact (hm.association j hi).step_counted ha
    · change Association.Counted (update m.associations i a j)
      rw [update_of_ne hji]
      exact hm.association j hj

theorem Counted.step_counted (hm : m.Counted) {action : ManagerAction}
    (h : m.step action = some m') : m'.Counted := by
  cases action with
  | create =>
    cases h
    exact hm.create_counted
  | association i action => exact hm.associationStep_counted h

theorem new_counted (maxAssoc maxNAT : ℕ) : (new maxAssoc maxNAT).Counted :=
  ⟨rfl, fun i hi => absurd hi (Nat.not_lt_zero i)⟩

theorem Counted.gauge_eq (hm : m.Counted) : m.activeNATEntries =
    ∑ i ∈ Finset.range m.nextID,
      ((m.associations i).nat.keys.card + ((m.associations i).dropped : ℤ)) := by
  rw [hm.gauge]
  exact sum_congr rfl fun i hi =>
    (hm.association i (mem_range.mp hi)).natAdded_eq

/-- The gauge is the number of entries of the open associations in exactly those states in which
no `Close` has dropped an entry and no closed association has one. -/
theorem gauge_eq_open_entries {maxAssoc maxNAT : ℕ} {as : List ManagerAction}
    (hpath : Path step anyLabel (new maxAssoc maxNAT) as m) :
    m.activeNATEntries = ∑ i ∈ m.openAssociations, ((m.associations i).nat.keys.card : ℤ) ↔
    ∀ i < m.nextID, (m.associations i).dropped = 0 ∧
      ((m.associations i).closeOnce = .done → (m.associations i).nat = ∅) := by
  have hm : m.Counted :=
    hpath.invariant (fun _ _ _ hs _ h => hs.step_counted h) (new_counted maxAssoc maxNAT)
  -- no association has more open entries than it has counted, so the sums are equal term by term
  rw [hm.gauge_eq, openAssociations, sum_filter, eq_comm, sum_eq_sum_iff_of_le]
  · refine forall_congr' fun i => imp_congr mem_range ?_
    split_ifs with hopen
    · simp [hopen]
    · rw [not_not] at hopen
      rw [← Table.card_keys_eq_zero]
      simp only [hopen, forall_const]
      omega
  · intro i _
    split_ifs <;> omega

/-- Two associations make an entry each; the receiver of the first one's fails and closes
it, and then its control connection ends. -/
def twoRun : List ManagerAction :=
  .create :: .create :: entryRun 0 ++ entryRun 1 ++
    [.reverse 0 false, .reverse 0 true, .reverse 0 true, .reverse 0 true, .reverse 0 true,
      .reverse 0 true, .control, .control, .control, .control, .empty [], .control,
      .control].map (.association 0)
where
  entryRun (i : ℕ) : List ManagerAction :=
    [.serve, .datagram "a:53", .reader true, .reader true, .reader true, .reader true,
      .reader true, .reader true, .reader true, .reader true].map (.association i)

theorem twoRun_gauge : ∃ m, Path step anyLabel (new 4 8) twoRun m ∧ m.openAssociations = {1} ∧
    m.activeNATEntries = (m.associations 1).nat.keys.card ∧
    (m.associations 1).nat.keys.card = 1 := by
  refine Path.exists_of_run_imp (P := fun m => (∀ i < m.nextID, (m.associations i).dropped = 0 ∧
      ((m.associations i).closeOnce = .done → (m.associations i).nat = ∅)) ∧
      m.openAssociations = {1} ∧ (m.associations 1).nat.keys.card = 1)
    (by decide +kernel) fun m hpath ⟨hkept, hopen, hcard⟩ => ?_
  refine ⟨hopen, ?_, hcard⟩
  rw [(gauge_eq_open_entries hpath).mpr hkept, hopen, sum_singleton]

/-- An association that is closed with an entry in its table leaves the gauge at one, when
no association is open any more and no goroutine is left. -/
theorem closed_with_entry : ∃ m,
    Path step anyLabel (new 4 8)
      (.create :: Association.servedRun.map (.association 0)) m ∧
    (m.associations 0).Finished ∧ m.openAssociations = ∅ ∧ m.activeNATEntries = 1 :=
  Path.exists_of_run (by decide +kernel)

end UDPAssociationManager
end VlfProto.SocksClient
