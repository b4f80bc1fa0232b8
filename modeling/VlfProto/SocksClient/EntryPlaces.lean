import VlfProto.SocksClient.Association

/-! # Where the NAT entries of an association are -/

namespace VlfProto.SocksClient
open Platform Transition Function

/-- What an entry has given back, by how far it has been closed. -/
def NATEntry.Torn (e : NATEntry) : Prop :=
  match e.closeOnce with
  | .running _ .closeClient => e.flow ≠ .held
  | .running _ .unregister => e.flow ≠ .held ∧ e.client ≠ .held
  | .done => e.HoldsNothing
  | _ => True

def tableEmptied : Once Goroutine CloseStage → Bool
  | .running _ (.entries _) => true
  | .running _ .onClose => true
  | .done => true
  | _ => false

/-- The entry that `getOrCreateEntry` makes has neither a flow nor a registration until its
flow is open. -/
def ReaderPc.Drafting : ReaderPc → Prop
  | .openFlow e => e.flow ≠ .held ∧ e.state ≠ .held ∧ e.closeOnce = .idle
  | .closeClient e => e.flow ≠ .held ∧ e.state ≠ .held
  | .register e => e.closeOnce = .idle
  | _ => True

/-- The new entry that the reader is about to list or to start receiving for. -/
def ReaderPc.placing : ReaderPc → Option ℕ
  | .insert i => some i
  | .startReverse i => some i
  | _ => none

namespace Association

variable {a b : Association} {g : Goroutine} {returns : Bool} {i : ℕ} {next : Option EntryStage}

inductive ClosingAt (a : Association) : Goroutine → ℕ → Prop
  | duplicate {i j : ℕ} (h : a.reader = .closeDuplicate i j) : a.ClosingAt .reader i
  | reader {i : ℕ} (h : a.reader = .closeEntry i) : a.ClosingAt .reader i
  | janitor {i : ℕ} {stale : List ℕ} (h : a.janitor = .sweep (i :: stale)) :
      a.ClosingAt .janitor i
  | reverse {i : ℕ} (h : a.reverse i = .closeEntry) : a.ClosingAt (.reverse i) i
  | association {g : Goroutine} {i : ℕ} {todo : List ℕ}
      (h : a.closeOnce = .running g (.entries (i :: todo))) : a.ClosingAt g i

inductive Placed (a : Association) (i : ℕ) : Prop
  | inserting (h : a.reader = .insert i)
  | listed (h : a.Listed i)
  | collected {g : Goroutine} {todo : List ℕ} (h : a.closeOnce = .running g (.entries todo))
      (hi : i ∈ todo)
  | duplicate {j : ℕ} (h : a.reader = .closeDuplicate i j)
  | closing {g : Goroutine} {stage : EntryStage} (h : (a.entries i).closeOnce = .running g stage)
  | finished (h : (a.entries i).HoldsNothing)

/-- The goroutine that receives for an entry is started after the entry is listed. -/
structure Started (a : Association) : Prop where
  reverse : ∀ i, a.reverse i ≠ .idle → i < a.entryCount ∧ a.reader.placing ≠ some i
  reader : ∀ i, a.reader.placing = some i → i < a.entryCount

structure Kept (a : Association) : Prop where
  placed : ∀ i < a.entryCount, a.Placed i
  torn : ∀ i, (a.entries i).Torn
  closer : ∀ i g stage, (a.entries i).closeOnce = .running g stage → a.ClosingAt g i
  drafting : a.reader.Drafting
  started : a.Started
  discarded : ∀ e ∈ a.discarded, e.HoldsNothing
  emptied : tableEmptied a.closeOnce = true → a.nat = ∅

theorem Started.of_eq (ha : a.Started) (hcount : b.entryCount = a.entryCount)
    (hreverse : ∀ i, b.reverse i ≠ .idle → a.reverse i ≠ .idle)
    (hreader : ∀ i, b.reader.placing = some i → a.reader.placing = some i) : b.Started where
  reverse i hi := by
    obtain ⟨hlt, hplacing⟩ := ha.reverse i (hreverse i hi)
    exact ⟨hcount ▸ hlt, fun h => hplacing (hreader i h)⟩
  reader i hi := hcount ▸ ha.reader i (hreader i hi)

/-- What an action of goroutine `g` in `closeEntry` does: only entry `i` and, where it is
taken out, the table are changed. -/
structure EntryStep (a b : Association) (g : Goroutine) (i : ℕ) (returns : Bool) : Prop where
  others : b = { a with
    nat := b.nat, natAdded := b.natAdded, entries := update a.entries i (b.entries i) }
  table : b.nat = a.nat ∨ a.Listed i ∧ b.nat = a.nat.erase (a.entries i).key
  key : (b.entries i).key = (a.entries i).key
  torn : (a.entries i).Torn → (b.entries i).Torn
  once : (b.entries i).closeOnce = .done ∨ ∃ stage, (b.entries i).closeOnce = .running g stage
  returned : returns = true → (b.entries i).closeOnce = .done

theorem entryBody_others {stage : EntryStage} (h : a.entryBody i stage = some (b, next)) :
    b = { a with
      nat := b.nat, natAdded := b.natAdded
      entries := update a.entries i (b.entries i) } ∧
    (b.nat = a.nat ∨ a.Listed i ∧ b.nat = a.nat.erase (a.entries i).key) ∧
    (b.entries i).key = (a.entries i).key := by
  cases stage with
  | unlist =>
    rw [entryBody] at h
    split_ifs at h with hlisted
    · cases h
      exact ⟨by simp, .inr ⟨hlisted, rfl⟩, rfl⟩
    · cases h
      exact ⟨by simp, .inl rfl, rfl⟩
  | _ =>
    cases h
    exact ⟨by simp [setEntry], .inl rfl, by simp [setEntry]⟩

theorem entryBody_torn {stage : EntryStage} (honce : (a.entries i).closeOnce = .running g stage)
    (ha : (a.entries i).Torn) (h : a.entryBody i stage = some (b, next)) :
    ({ b.entries i with closeOnce := next.elim .done (.running g) } : NATEntry).Torn := by
  cases stage with
  | unlist =>
    rw [entryBody] at h
    split_ifs at h <;> cases h <;> trivial
  | closeFlow =>
    cases h
    simp [setEntry, NATEntry.Torn]
  | closeClient =>
    cases h
    simp only [NATEntry.Torn, honce] at ha
    simpa [setEntry, NATEntry.Torn] using ha
  | unregister =>
    cases h
    simp only [NATEntry.Torn, honce] at ha
    exact ⟨by simpa [setEntry] using ha.2, by simpa [setEntry] using ha.1, by simp [setEntry]⟩

theorem closeEntry_step (h : a.closeEntry g i = some (b, returns)) : a.EntryStep b g i returns := by
  obtain ⟨r, hact, hr⟩ := Option.map_eq_some_iff.mp h
  cases hr
  rcases Once.act_cases hact with ⟨hidle, rfl⟩ | ⟨stage, c, next, honce, hbody, rfl⟩ | ⟨hdone, rfl⟩
  · refine ⟨by simp [setEntry], .inl rfl, by simp [setEntry], fun _ => ?_, .inr ⟨.unlist, ?_⟩, ?_⟩
    · simp [setEntry, NATEntry.Torn]
    · simp [setEntry]
    · simp
  · obtain ⟨hothers, htable, hkey⟩ := entryBody_others hbody
    refine ⟨?_, htable, by simpa [setEntry] using hkey, fun ha => ?_, ?_, fun hreturns => ?_⟩
    · rw [hothers]
      simp [setEntry]
    · simpa [setEntry] using entryBody_torn honce ha hbody
    · cases next with
      | none => exact .inl (by simp [setEntry])
      | some next => exact .inr ⟨next, by simp [setEntry]⟩
    · cases next with
      | none => simp [setEntry]
      | some next => cases hreturns
  · refine ⟨by simp [setEntry], .inl rfl, by simp [setEntry], fun ha => ?_, .inl ?_, fun _ => ?_⟩
    · simpa [setEntry, ← hdone] using ha
    · simp [setEntry]
    · simp [setEntry]

theorem EntryStep.entries_of_ne {i j : ℕ} (h : a.EntryStep b g i returns) (hne : j ≠ i) :
    b.entries j = a.entries j := by
  rw [h.others]
  exact update_of_ne hne _ _

theorem EntryStep.listed_of_ne {i j : ℕ} (h : a.EntryStep b g i returns) (hne : j ≠ i)
    (hj : a.Listed j) : b.Listed j := by
  rw [Listed, h.entries_of_ne hne]
  rcases h.table with hnat | ⟨hi, hnat⟩
  · rw [hnat]
    exact hj
  · have hkey : (a.entries j).key ≠ (a.entries i).key := by
      intro heq
      rw [Listed, heq] at hj
      exact hne (Option.some.inj (hj.symm.trans hi))
    rw [hnat, Table.lookup_erase_eq, if_neg hkey]
    exact hj

/-- An action of `closeEntry` keeps the places, where the goroutine goes on with the entry
until it returns and all else goes on where it is. -/
theorem Kept.entryStep (ha : a.Kept) (h : a.EntryStep b g i returns) (hg : a.ClosingAt g i)
    {c : Association} (hentries : c.entries = b.entries) (hnat : c.nat = b.nat)
    (hcount : c.entryCount = a.entryCount) (hdiscarded : c.discarded = a.discarded)
    (hemptied : tableEmptied c.closeOnce = tableEmptied a.closeOnce) (hdrafting : c.reader.Drafting)
    (hstarted : c.Started) (hinsert : ∀ j, a.reader = .insert j → c.reader = .insert j)
    (hduplicate : ∀ j k, j ≠ i → a.reader = .closeDuplicate j k → c.reader = .closeDuplicate j k)
    (hcollected : ∀ g' todo j, j ≠ i → a.closeOnce = .running g' (.entries todo) → j ∈ todo →
      ∃ todo', c.closeOnce = .running g' (.entries todo') ∧ j ∈ todo')
    (hat : ∀ g' j, j ≠ i ∨ returns = false → a.ClosingAt g' j → c.ClosingAt g' j) : c.Kept where
  placed j hj := by
    by_cases hji : j = i
    · subst hji
      rcases h.once with hdone | ⟨stage, hstage⟩
      · have htorn := h.torn (ha.torn j)
        rw [NATEntry.Torn, hdone] at htorn
        exact .finished (hentries ▸ htorn)
      · exact .closing (hentries ▸ hstage)
    · have hentry : c.entries j = a.entries j := by rw [hentries, h.entries_of_ne hji]
      cases ha.placed j (hcount ▸ hj) with
      | inserting hinserting => exact .inserting (hinsert j hinserting)
      | listed hlisted =>
        refine .listed ?_
        rw [Listed, hnat, hentries]
        exact h.listed_of_ne hji hlisted
      | collected hclose hmem =>
        obtain ⟨todo, hclose, hmem⟩ := hcollected _ _ j hji hclose hmem
        exact .collected hclose hmem
      | duplicate hreader => exact .duplicate (hduplicate j _ hji hreader)
      | closing honce => exact .closing (hentry ▸ honce)
      | finished hnothing => exact .finished (hentry ▸ hnothing)
  torn j := by
    rw [hentries]
    by_cases hji : j = i
    · subst hji
      exact h.torn (ha.torn j)
    · rw [h.entries_of_ne hji]
      exact ha.torn j
  closer j g' stage honce := by
    rw [hentries] at honce
    by_cases hji : j = i
    · subst hji
      rcases h.once with hdone | ⟨stage', hstage⟩
      · cases hdone.symm.trans honce
      · cases hstage.symm.trans honce
        refine hat _ j (.inr ?_) hg
        cases returns with
        | false => rfl
        | true => cases (h.returned rfl).symm.trans honce
    · rw [h.entries_of_ne hji] at honce
      exact hat g' j (.inl hji) (ha.closer j g' stage honce)
  drafting := hdrafting
  started := hstarted
  discarded := hdiscarded ▸ ha.discarded
  emptied hc := by
    have hempty := ha.emptied (hemptied ▸ hc)
    rw [hnat]
    rcases h.table with htable | ⟨-, htable⟩
    · rw [htable, hempty]
    · rw [htable, hempty]
      exact Finmap.ext_lookup fun key => by simp [Table.lookup_erase_eq]

/-- A step that changes none of the entries keeps the places, where no goroutine leaves an
entry. -/
theorem Kept.frame (ha : a.Kept) (hentries : b.entries = a.entries)
    (hcount : b.entryCount = a.entryCount) (hnat : b.nat = a.nat)
    (hdiscarded : ∀ e ∈ b.discarded, e.HoldsNothing)
    (hemptied : tableEmptied b.closeOnce = true → tableEmptied a.closeOnce = true)
    (hdrafting : b.reader.Drafting) (hstarted : b.Started)
    (hinsert : ∀ j, a.reader = .insert j → b.reader = .insert j)
    (hduplicate : ∀ j k, a.reader = .closeDuplicate j k → b.reader = .closeDuplicate j k)
    (hcollected : ∀ g todo j, a.closeOnce = .running g (.entries todo) → j ∈ todo →
      b.closeOnce = .running g (.entries todo))
    (hat : ∀ g j, a.ClosingAt g j → b.ClosingAt g j) : b.Kept where
  placed j hj := by
    cases ha.placed j (hcount ▸ hj) with
    | inserting hinserting => exact .inserting (hinsert j hinserting)
    | listed hlisted => exact .listed (by rwa [Listed, hnat, hentries])
    | collected hclose hmem => exact .collected (hcollected _ _ j hclose hmem) hmem
    | duplicate hreader => exact .duplicate (hduplicate j _ hreader)
    | closing honce => exact .closing (hentries ▸ honce)
    | finished hnothing => exact .finished (hentries ▸ hnothing)
  torn := hentries ▸ ha.torn
  closer j g stage honce := hat g j (ha.closer j g stage (hentries ▸ honce))
  drafting := hdrafting
  started := hstarted
  discarded := hdiscarded
  emptied hb := hnat.trans (ha.emptied (hemptied hb))

end Association
end VlfProto.SocksClient
