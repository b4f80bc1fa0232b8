import VlfProto.SocksClient.AssociationClosing

/-! # The reader of an association -/

namespace VlfProto.SocksClient
open Platform Transition Function Option

def ReaderPc.inserting : ReaderPc → Bool
  | .insert _ => true
  | _ => false

/-- The reader neither inserts nor closes an entry. -/
def ReaderPc.plain : ReaderPc → Bool
  | .insert _ => false
  | .closeDuplicate _ _ => false
  | .closeEntry _ => false
  | _ => true

namespace Association

variable {a b : Association} {i : ℕ}

/-- No entry is inserted after `Close` has emptied the table. -/
def NoLateInsert (a : Association) : AssociationAction → Prop
  | .reader _ => a.reader.inserting = true → tableEmptied a.closeOnce = false
  | _ => True

instance (a : Association) : (action : AssociationAction) → Decidable (a.NoLateInsert action)
  | .reader _ =>
    inferInstanceAs (Decidable (a.reader.inserting = true → tableEmptied a.closeOnce = false))
  | .serve => inferInstanceAs (Decidable True)
  | .datagram _ => inferInstanceAs (Decidable True)
  | .tick _ => inferInstanceAs (Decidable True)
  | .janitor => inferInstanceAs (Decidable True)
  | .control => inferInstanceAs (Decidable True)
  | .reverse _ _ => inferInstanceAs (Decidable True)
  | .outside _ => inferInstanceAs (Decidable True)
  | .empty _ => inferInstanceAs (Decidable True)

theorem Started.of_not_placing (ha : a.Started) (hcount : b.entryCount = a.entryCount)
    (hreverse : ∀ i, b.reverse i ≠ .idle → a.reverse i ≠ .idle)
    (hreader : b.reader.placing = none) : b.Started :=
  ha.of_eq hcount hreverse fun i h => by cases hreader.symm.trans h

/-- The reader moves on from a place where it neither inserts nor closes an entry. -/
theorem Kept.readerMove (ha : a.Kept) (hplain : a.reader.plain = true)
    (hentries : b.entries = a.entries) (hcount : b.entryCount = a.entryCount)
    (hnat : b.nat = a.nat) (hclose : b.closeOnce = a.closeOnce)
    (hjanitor : ∀ i stale, a.janitor = .sweep (i :: stale) → b.janitor = .sweep (i :: stale))
    (hreverse : ∀ i, a.reverse i = .closeEntry → b.reverse i = .closeEntry)
    (hdiscarded : ∀ e ∈ b.discarded, e.HoldsNothing) (hdrafting : b.reader.Drafting)
    (hstarted : b.Started) : b.Kept := by
  refine ha.frame hentries hcount hnat hdiscarded (hclose ▸ id) hdrafting hstarted ?_ ?_
    (fun _ _ _ h _ => hclose.trans h) ?_
  · intro j h
    rw [h] at hplain
    cases hplain
  · intro j k h
    rw [h] at hplain
    cases hplain
  · rintro g j (h | h | h | h | h)
    · rw [h] at hplain
      cases hplain
    · rw [h] at hplain
      cases hplain
    · exact .janitor (hjanitor _ _ h)
    · exact .reverse (hreverse _ h)
    · exact .association (hclose.trans h)

theorem Kept.reader_at (ha : a.Kept) (hplain : a.reader.plain = true) (pc : ReaderPc)
    (hdrafting : pc.Drafting) (hpc : pc.placing = none) : Kept { a with reader := pc } :=
  ha.readerMove hplain rfl rfl rfl rfl (fun _ _ h => h) (fun _ h => h) ha.discarded hdrafting
    (ha.started.of_not_placing rfl (fun _ => id) hpc)

theorem Kept.readerClose_kept (ha : a.Kept) {pc : ReaderPc} (hreader : a.reader = pc)
    (hpc : pc = .closeEntry i ∨ ∃ j, pc = .closeDuplicate i j) {returns : Bool}
    (h : a.closeEntry .reader i = some (b, returns)) {next : ReaderPc}
    (hnext : next.Drafting) (hplacing : next.placing = none) :
    Kept { b with reader := if returns then next else pc } := by
  have hstep := closeEntry_step h
  have hat : a.ClosingAt .reader i := by
    obtain rfl | ⟨j, rfl⟩ := hpc
    · exact .reader hreader
    · exact .duplicate hreader
  have hone : ∀ j, (a.reader = .closeEntry j ∨ ∃ k, a.reader = .closeDuplicate j k) → j = i := by
    intro j hj
    rw [hreader] at hj
    obtain rfl | ⟨k, rfl⟩ := hpc <;> simpa [eq_comm] using hj
  have hafter : ReaderPc.Drafting (if returns then next else pc) ∧
      ReaderPc.placing (if returns then next else pc) = none := by
    cases returns with
    | true => exact ⟨hnext, hplacing⟩
    | false => obtain rfl | ⟨k, rfl⟩ := hpc <;> exact ⟨trivial, rfl⟩
  refine ha.entryStep hstep hat rfl rfl (by rw [hstep.others]) (by rw [hstep.others])
    (by rw [hstep.others]) hafter.1 ?_ ?_ ?_ ?_ ?_
  · exact ha.started.of_not_placing (by rw [hstep.others])
      (fun i => by rw [hstep.others]; exact id) hafter.2
  · intro j hinsert
    obtain rfl | ⟨k, rfl⟩ := hpc <;> cases hreader.symm.trans hinsert
  · exact fun j k hne hj => absurd (hone j (.inr ⟨k, hj⟩)) hne
  · intro g todo j _ hclose hj
    exact ⟨todo, by rw [hstep.others]; exact hclose, hj⟩
  · rintro g j hj (hat' | hat' | hat' | hat' | hat')
    · rcases hj with hne | rfl
      · exact absurd (hone j (.inr ⟨_, hat'⟩)) hne
      · exact .duplicate (hreader.symm.trans hat')
    · rcases hj with hne | rfl
      · exact absurd (hone j (.inl hat')) hne
      · exact .reader (hreader.symm.trans hat')
    · exact .janitor (hstep.sameGoroutines.janitor.trans hat')
    · exact .reverse (hstep.sameGoroutines.reverse ▸ hat' :)
    · exact .association (by rw [hstep.others]; exact hat')

theorem ClosingAt.of_placing {g : Goroutine} {j : ℕ} (h : a.ClosingAt g j)
    (hreader : a.reader.plain = true ∨ a.reader.inserting = true) (hjanitor : b.janitor = a.janitor)
    (hreverse : b.reverse = a.reverse) (hclose : b.closeOnce = a.closeOnce) :
    b.ClosingAt g j := by
  rcases h with h | h | h | h | h
  · rw [h] at hreader
    simp [ReaderPc.plain, ReaderPc.inserting] at hreader
  · rw [h] at hreader
    simp [ReaderPc.plain, ReaderPc.inserting] at hreader
  · exact .janitor (hjanitor.trans h)
  · exact .reverse (hreverse ▸ h)
  · exact .association (hclose.trans h)

theorem Kept.insert_kept (ha : a.Kept) (hreader : a.reader = .insert i)
    (hnone : a.nat.lookup (a.entries i).key = none)
    (hopen : tableEmptied a.closeOnce = false) :
    Kept { a with
      nat := a.nat.insert (a.entries i).key i
      natAdded := a.natAdded + 1
      reader := .startReverse i } := by
  refine ⟨fun j hj => ?_, ha.torn, fun j g stage hrunning => ?_, trivial, ?_,
    ha.discarded, fun hemptied => by cases hopen.symm.trans hemptied⟩
  · have hlookup := a.nat.lookup_insert_eq (a.entries i).key (a.entries j).key i
    cases ha.placed j hj with
    | inserting h =>
      cases hreader.symm.trans h
      exact .listed (hlookup.trans (if_pos rfl))
    | listed h =>
      refine .listed (hlookup.trans ?_)
      rw [if_neg]
      · exact h
      · intro hkey
        rw [Listed, hkey, hnone] at h
        cases h
    | collected h hmem => exact .collected h hmem
    | duplicate h => cases hreader.symm.trans h
    | closing h => exact .closing h
    | finished h => exact .finished h
  · have hat := ha.closer j g stage hrunning
    exact hat.of_placing (.inr (hreader ▸ rfl)) rfl rfl rfl
  · exact ha.started.of_eq rfl (fun _ => id) fun j hj => by rw [hreader]; exact hj

theorem Kept.duplicate_kept (ha : a.Kept) {j : ℕ} (hreader : a.reader = .insert i) :
    Kept { a with reader := .closeDuplicate i j } := by
  refine ⟨fun k hk => ?_, ha.torn, fun k g stage hrunning => ?_, trivial,
    ha.started.of_not_placing rfl (fun _ => id) rfl, ha.discarded, ha.emptied⟩
  · cases ha.placed k hk with
    | inserting h =>
      cases hreader.symm.trans h
      exact .duplicate rfl
    | listed h => exact .listed h
    | collected h hmem => exact .collected h hmem
    | duplicate h => cases hreader.symm.trans h
    | closing h => exact .closing h
    | finished h => exact .finished h
  · have hat := ha.closer k g stage hrunning
    exact hat.of_placing (.inr (hreader ▸ rfl)) rfl rfl rfl

theorem Kept.register_kept (ha : a.Kept) {e : NATEntry} (hreader : a.reader = .register e) :
    Kept { a.setEntry a.entryCount { e with state := .held } with
      entryCount := a.entryCount + 1
      reader := .insert a.entryCount } := by
  have hidle : e.closeOnce = .idle := by
    have hdrafting := ha.drafting
    rwa [hreader] at hdrafting
  have hnew : update a.entries a.entryCount { e with state := .held } a.entryCount =
      { e with state := .held } := update_self ..
  have hold : ∀ j, j ≠ a.entryCount →
      update a.entries a.entryCount { e with state := .held } j = a.entries j :=
    fun j hne => update_of_ne hne ..
  refine ⟨fun j hj => ?_, fun j => ?_, fun j g stage hrunning => ?_, trivial,
    ⟨fun j hj => ?_, fun j hj => ?_⟩, ha.discarded, ha.emptied⟩
  · by_cases hjn : j = a.entryCount
    · subst hjn
      exact .inserting rfl
    · have hentry := hold j hjn
      cases ha.placed j (by simp only at hj; omega) with
      | inserting h | duplicate h => cases hreader.symm.trans h
      | listed h =>
        refine .listed ?_
        change a.nat.lookup (update a.entries a.entryCount _ j).key = some j
        rw [hentry]
        exact h
      | collected h hmem => exact .collected h hmem
      | closing h => exact .closing ((congrArg NATEntry.closeOnce hentry).trans h)
      | finished h => exact .finished (hentry ▸ h :)
  · by_cases hjn : j = a.entryCount
    · subst hjn
      change NATEntry.Torn (update a.entries a.entryCount _ a.entryCount)
      rw [hnew, NATEntry.Torn, hidle]
      trivial
    · exact (hold j hjn ▸ ha.torn j :)
  · by_cases hjn : j = a.entryCount
    · subst hjn
      cases hidle.symm.trans ((congrArg NATEntry.closeOnce hnew).symm.trans hrunning)
    · have hat := ha.closer j g stage
        ((congrArg NATEntry.closeOnce (hold j hjn)).symm.trans hrunning)
      exact hat.of_placing (.inl (hreader ▸ rfl)) rfl rfl rfl
  · have hlt := (ha.started.reverse j hj).1
    refine ⟨Nat.lt_succ_of_lt hlt, fun h => ?_⟩
    cases h
    exact absurd hlt (lt_irrefl _)
  · cases hj
    exact Nat.lt_succ_self _

theorem Kept.startReverse_kept (ha : a.Kept) (hreader : a.reader = .startReverse i) :
    Kept { a with reverse := update a.reverse i .receive, reader := .send i } := by
  have hplacing : a.reader.placing = some i := by rw [hreader]; rfl
  refine ha.readerMove (hreader ▸ rfl) rfl rfl rfl rfl (fun _ _ h => h) ?_ ha.discarded trivial
    ⟨fun j hj => ⟨?_, by simp [ReaderPc.placing]⟩, fun j hj => by cases hj⟩
  · intro j hj
    have hne : j ≠ i := by
      rintro rfl
      exact (ha.started.reverse j (by simp [hj])).2 hplacing
    exact (update_of_ne hne ..).trans hj
  · by_cases hji : j = i
    · rw [hji]
      exact ha.started.reader i hplacing
    · refine (ha.started.reverse j ?_).1
      dsimp only at hj
      rwa [update_of_ne hji] at hj

theorem Kept.readerStep_kept (ha : a.Kept) {ok : Bool} (hok : a.NoLateInsert (.reader ok))
    (h : a.readerStep ok = some b) : b.Kept := by
  have hdrafting := ha.drafting
  cases hreader : a.reader <;> rw [readerStep, hreader] at h
  case idle | returned => cases h
  case read | permit key | send i =>
    cases h
    refine ha.reader_at (hreader ▸ rfl) _ ?_ ?_ <;> split_ifs <;> trivial
  case lookup key =>
    dsimp only at h
    split at h
    · cases h
      exact ha.reader_at (hreader ▸ rfl) _ trivial rfl
    · split_ifs at h <;> cases h
      · exact ha.reader_at (hreader ▸ rfl) _ trivial rfl
      · exact ha.reader_at (hreader ▸ rfl) _ trivial rfl
  case dial key =>
    cases h
    cases ok with
    | true => exact ha.reader_at (hreader ▸ rfl) _ ⟨by simp, by simp, rfl⟩ rfl
    | false => exact ha.reader_at (hreader ▸ rfl) _ trivial rfl
  case openFlow e =>
    cases h
    obtain ⟨hflow, hstate, hidle⟩ : (ReaderPc.openFlow e).Drafting := hreader ▸ hdrafting
    cases ok with
    | true => exact ha.reader_at (hreader ▸ rfl) (.register _) hidle rfl
    | false => exact ha.reader_at (hreader ▸ rfl) (.closeClient e) ⟨hflow, hstate⟩ rfl
  case closeClient e =>
    cases h
    obtain ⟨hflow, hstate⟩ : (ReaderPc.closeClient e).Drafting := hreader ▸ hdrafting
    refine ha.readerMove (hreader ▸ rfl) rfl rfl rfl rfl (fun _ _ h => h) (fun _ h => h) ?_ trivial
      (ha.started.of_not_placing rfl (fun _ => id) rfl)
    intro e' he
    rcases List.mem_append.mp he with he | he
    · exact ha.discarded e' he
    · rw [List.mem_singleton.mp he]
      exact ⟨by simp, hflow, hstate⟩
  case register e =>
    cases h
    exact ha.register_kept hreader
  case insert i =>
    dsimp only at h
    split at h
    · cases h
      exact ha.duplicate_kept hreader
    · rename_i hnone
      cases h
      exact ha.insert_kept hreader hnone (hok (hreader ▸ rfl))
  case closeDuplicate i j =>
    obtain ⟨⟨c, returns⟩, hclose, rfl⟩ := map_eq_some_iff.mp h
    exact ha.readerClose_kept hreader (.inr ⟨j, rfl⟩) hclose trivial rfl
  case startReverse i =>
    cases h
    exact ha.startReverse_kept hreader
  case closeEntry i =>
    obtain ⟨⟨c, returns⟩, hclose, rfl⟩ := map_eq_some_iff.mp h
    exact ha.readerClose_kept hreader (.inl rfl) hclose trivial rfl
  case close =>
    obtain ⟨⟨c, returns⟩, hclose, rfl⟩ := map_eq_some_iff.mp h
    obtain ⟨hc, hsame⟩ := ha.close_kept hclose
    have hplain : c.reader.plain = true := by rw [hsame.reader, hreader]; rfl
    refine hc.reader_at hplain _ ?_ ?_ <;> split_ifs <;> trivial

end Association
end VlfProto.SocksClient
