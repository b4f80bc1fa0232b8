import VlfProto.SocksClient.AssociationReader

/-! # A closed association holds nothing -/

namespace VlfProto.SocksClient
open Platform Transition Function Option

namespace Association

variable {a b : Association} {i : ℕ}

theorem new_kept (maxNAT : ℕ) : (new maxNAT).Kept where
  placed i hi := absurd hi (Nat.not_lt_zero i)
  torn _ := trivial
  closer i g stage h := by cases h
  drafting := trivial
  started := ⟨fun i h => absurd rfl h, fun i h => by cases h⟩
  discarded := by simp [new]
  emptied _ := rfl

theorem Kept.serveStep_kept (ha : a.Kept) (h : a.serveStep = some b) : b.Kept := by
  rw [serveStep] at h
  split_ifs at h with hidle
  cases h
  obtain ⟨hreader, hjanitor, -⟩ := hidle
  exact ha.readerMove (hreader ▸ rfl) rfl rfl rfl rfl
    (fun _ _ h => by cases hjanitor.symm.trans h) (fun _ h => h) ha.discarded trivial
    (ha.started.of_not_placing rfl (fun _ => id) rfl)

theorem Kept.datagramStep_kept (ha : a.Kept) {key : String} (h : a.datagramStep key = some b) :
    b.Kept := by
  rw [datagramStep] at h
  split_ifs at h with hread
  cases h
  exact ha.reader_at (hread.1 ▸ rfl) _ trivial rfl

/-- The janitor moves on from a place where it does not close an entry. -/
theorem Kept.janitor_at (ha : a.Kept) (hjanitor : ∀ i stale, a.janitor ≠ .sweep (i :: stale))
    (pc : JanitorPc) : Kept { a with janitor := pc } := by
  refine ha.frame rfl rfl rfl ha.discarded id ha.drafting
    ⟨ha.started.reverse, ha.started.reader⟩ (fun _ => id) (fun _ _ => id) (fun _ _ _ h _ => h) ?_
  rintro g j (h | h | h | h | h)
  · exact .duplicate h
  · exact .reader h
  · exact absurd h (hjanitor _ _)
  · exact .reverse h
  · exact .association h

theorem Kept.tickStep_kept (ha : a.Kept) {stale : List ℕ} (h : a.tickStep stale = some b) :
    b.Kept := by
  rw [tickStep] at h
  split_ifs at h with hwait
  cases h
  exact ha.janitor_at (by simp [hwait.1]) _

/-- The janitor, or a goroutine that receives, closes an entry and goes on with it until it
returns. -/
theorem Kept.closeEntry_kept (ha : a.Kept) {g : Goroutine} {returns : Bool}
    (h : a.closeEntry g i = some (b, returns)) (hg : a.ClosingAt g i) {janitor : JanitorPc}
    {reverse : ℕ → ReversePc}
    (hjanitor : ∀ j stale, j ≠ i ∨ returns = false → a.janitor = .sweep (j :: stale) →
      janitor = .sweep (j :: stale))
    (hreverse : ∀ j, j ≠ i ∨ returns = false → a.reverse j = .closeEntry → reverse j = .closeEntry)
    (hidle : ∀ j, reverse j ≠ .idle → a.reverse j ≠ .idle) : Kept { b with janitor, reverse } := by
  have hstep := closeEntry_step h
  have hreader := hstep.sameGoroutines.reader
  have hclose : b.closeOnce = a.closeOnce := by rw [hstep.others]
  refine ha.entryStep hstep hg rfl rfl (by rw [hstep.others]) (by rw [hstep.others])
    (by rw [hclose]) (hreader ▸ ha.drafting) ?_ ?_ ?_ ?_ ?_
  · exact ha.started.of_eq (by rw [hstep.others]) hidle fun j hj => hreader ▸ hj
  · exact fun j hj => hreader.trans hj
  · exact fun j k _ hj => hreader.trans hj
  · exact fun g' todo j _ hclosing hj => ⟨todo, hclose.trans hclosing, hj⟩
  · rintro g' j hj (hat | hat | hat | hat | hat)
    · exact .duplicate (hreader.trans hat)
    · exact .reader (hreader.trans hat)
    · exact .janitor (hjanitor _ _ hj hat)
    · exact .reverse (hreverse _ hj hat)
    · exact .association (hclose.trans hat)

theorem Kept.janitorStep_kept (ha : a.Kept) (h : a.janitorStep = some b) : b.Kept := by
  rw [janitorStep] at h
  split at h
  · rename_i hwait
    split_ifs at h
    cases h
    exact ha.janitor_at (by simp [hwait]) _
  · rename_i hsweep
    cases h
    exact ha.janitor_at (by simp [hsweep]) _
  · rename_i i stale hsweep
    obtain ⟨⟨c, returns⟩, hclose, rfl⟩ := map_eq_some_iff.mp h
    have hreverse := (closeEntry_step hclose).sameGoroutines.reverse
    refine ha.closeEntry_kept hclose (.janitor hsweep) ?_ ?_ ?_
    · intro j stale' hj hsweep'
      cases hsweep.symm.trans hsweep'
      rcases hj with hj | rfl
      · exact absurd rfl hj
      · rfl
    · exact fun j _ hj => hreverse ▸ hj
    · exact fun j hj => hreverse ▸ hj
  · cases h

/-- The places do not depend on who copies the control connection or waits outside. -/
theorem Kept.same_kept (ha : a.Kept) (control : ControlPc) (outside : ℕ → Bool) :
    Kept { a with control, outside } := by
  refine ha.frame rfl rfl rfl ha.discarded id ha.drafting
    ⟨ha.started.reverse, ha.started.reader⟩ (fun _ => id) (fun _ _ => id) (fun _ _ _ h _ => h) ?_
  exact fun g j hat => hat.of_eq rfl rfl rfl fun _ _ _ h => h

theorem Kept.controlStep_kept (ha : a.Kept) (h : a.controlStep = some b) : b.Kept := by
  rw [controlStep] at h
  split at h
  · cases h
    exact ha.same_kept _ _
  · obtain ⟨⟨c, returns⟩, hclose, rfl⟩ := map_eq_some_iff.mp h
    exact (ha.close_kept hclose).1.same_kept _ _
  · cases h

theorem Kept.outsideStep_kept (ha : a.Kept) {k : ℕ} (h : a.outsideStep k = some b) :
    b.Kept := by
  rw [outsideStep] at h
  split_ifs at h
  · obtain ⟨⟨c, returns⟩, hclose, rfl⟩ := map_eq_some_iff.mp h
    exact (ha.close_kept hclose).1.same_kept _ _
  · cases h
    exact ha.same_kept _ _

theorem Kept.reverse_at (ha : a.Kept) (hreceive : a.reverse i = .receive) (pc : ReversePc) :
    (a.setReverse i pc).Kept := by
  refine ha.frame rfl rfl rfl ha.discarded id ha.drafting
    (ha.started.of_eq rfl (fun j hj => ?_) fun _ => id) (fun _ => id) (fun _ _ => id)
    (fun _ _ _ h _ => h) ?_
  · by_cases hji : j = i
    · simp [hji, hreceive]
    · dsimp only [setReverse] at hj
      rwa [update_of_ne hji] at hj
  · rintro g j (h | h | h | h | h)
    · exact .duplicate h
    · exact .reader h
    · exact .janitor h
    · have hji : j ≠ i := by
        rintro rfl
        cases hreceive.symm.trans h
      exact .reverse ((update_of_ne hji ..).trans h)
    · exact .association h

theorem Kept.reverseStep_kept (ha : a.Kept) {ok : Bool} (h : a.reverseStep i ok = some b) :
    b.Kept := by
  rw [reverseStep] at h
  split at h
  · rename_i hreceive
    split_ifs at h <;> cases h
    · exact ha.reverse_at hreceive _
    · exact ha.reverse_at hreceive _
  · rename_i hclosing
    obtain ⟨⟨c, returns⟩, hclose, rfl⟩ := map_eq_some_iff.mp h
    obtain ⟨-, hjanitor, hreverse⟩ := (closeEntry_step hclose).sameGoroutines
    refine ha.closeEntry_kept hclose (.reverse hclosing) ?_ ?_ ?_
    · exact fun j stale _ hj => hjanitor.trans hj
    · intro j hj hjclosing
      by_cases hji : j = i
      · rcases hj with hj | rfl
        · exact absurd hji hj
        · simp [hji]
      · exact (update_of_ne hji ..).trans (hreverse ▸ hjclosing)
    · intro j hj
      by_cases hji : j = i
      · simp [hji, hclosing]
      · rw [update_of_ne hji, hreverse] at hj
        exact hj
  · cases h

theorem Kept.step_kept (ha : a.Kept) {action : AssociationAction} (hok : a.NoLateInsert action)
    (h : a.step action = some b) : b.Kept := by
  cases action with
  | serve => exact ha.serveStep_kept h
  | datagram key => exact ha.datagramStep_kept h
  | reader ok => exact ha.readerStep_kept hok h
  | tick stale => exact ha.tickStep_kept h
  | janitor => exact ha.janitorStep_kept h
  | control => exact ha.controlStep_kept h
  | reverse i ok => exact ha.reverseStep_kept h
  | outside k => exact ha.outsideStep_kept h
  | empty order => exact ha.emptyStep_kept h

theorem Finished.not_closingAt (hfinished : a.Finished) (g : Goroutine) (hi : i < a.entryCount) :
    ¬ a.ClosingAt g i := by
  obtain ⟨hclosed, hreader, hjanitor, -, hreverse⟩ := hfinished
  rintro (h | h | h | h | h)
  · simp [h] at hreader
  · simp [h] at hreader
  · simp [h] at hjanitor
  · simpa [h] using hreverse i hi
  · cases hclosed.symm.trans h

theorem Kept.holds_nothing (ha : a.Kept) (hfinished : a.Finished) :
    (∀ i < a.entryCount, (a.entries i).HoldsNothing) ∧ ∀ e ∈ a.discarded, e.HoldsNothing := by
  refine ⟨fun i hi => ?_, ha.discarded⟩
  cases ha.placed i hi with
  | inserting h | duplicate h => simpa [h] using hfinished.reader
  | listed h =>
    rw [Listed, ha.emptied (by rw [hfinished.closed]; rfl), Finmap.lookup_empty] at h
    cases h
  | collected h _ => cases hfinished.closed.symm.trans h
  | closing h => exact absurd (ha.closer i _ _ h) (hfinished.not_closingAt _ hi)
  | finished h => exact h

/-- Where no entry is inserted after `Close` has emptied the table, an association whose `Close`
is done and whose goroutines have returned holds nothing, neither of the entries that it made
nor of those that it could not make. -/
theorem finished_holds_nothing {maxNAT : ℕ} {as : List AssociationAction}
    (hpath : Path step NoLateInsert (new maxNAT) as a) (hfinished : a.Finished) :
    (∀ i < a.entryCount, (a.entries i).HoldsNothing) ∧ ∀ e ∈ a.discarded, e.HoldsNothing :=
  Kept.holds_nothing (hpath.invariant (fun _ _ _ ha hok h => ha.step_kept hok h) (new_kept maxNAT))
    hfinished

/-- One entry is made and used, the control connection ends and all goroutines leave. -/
def servedRun : List AssociationAction :=
  [.serve, .datagram "a:53", .reader true, .reader true, .reader true, .reader true,
    .reader true, .reader true, .reader true, .reader true, .control, .control, .control, .control,
    .empty [0], .control, .control, .control, .control, .control, .control, .control, .reader true,
    .janitor, .reverse 0 true]

theorem servedRun_holds_nothing : ∃ a, Path step NoLateInsert (new 8) servedRun a ∧
    a.Finished ∧ a.entryCount = 1 ∧ (a.entries 0).HoldsNothing := by
  refine Path.exists_of_run_imp (P := fun a => a.Finished ∧ a.entryCount = 1)
    (by decide +kernel) fun a hpath ⟨hfinished, hcount⟩ => ?_
  exact ⟨hfinished, hcount, (finished_holds_nothing hpath hfinished).1 0 (by omega)⟩

/-- The control connection ends while the reader dials for its first datagram. -/
def closedWhileDialingRun : List AssociationAction :=
  [.serve, .datagram "a:53", .reader true, .reader true, .control, .control, .control, .control,
    .empty [], .control, .control, .janitor, .reader true, .reader true, .reader true,
    .reader true, .reader true, .reader true, .reader true, .reverse 0 true]

/-- An entry that is inserted after `Close` keeps its client, its flow and its registration,
though the association is closed and all its goroutines have returned. -/
theorem closed_while_dialing : ∃ a, Path step anyLabel (new 8) closedWhileDialingRun a ∧
    a.Finished ∧ a.entryCount = 1 ∧ (a.entries 0).client = .held ∧ (a.entries 0).flow = .held ∧
    (a.entries 0).state = .held :=
  Path.exists_of_run (by decide +kernel)

end Association
end VlfProto.SocksClient
