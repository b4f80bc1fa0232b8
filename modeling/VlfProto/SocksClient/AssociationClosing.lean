import VlfProto.SocksClient.EntryPlaces

/-! # Closing an association -/

namespace VlfProto.SocksClient
open Platform Transition List

namespace Association

variable {a b : Association} {g : Goroutine} {returns : Bool}

theorem ClosingAt.of_eq {g : Goroutine} {j : ℕ} (h : a.ClosingAt g j)
    (hreader : b.reader = a.reader) (hjanitor : b.janitor = a.janitor)
    (hreverse : b.reverse = a.reverse) (hclose : ∀ g j todo,
      a.closeOnce = .running g (.entries (j :: todo)) →
        b.closeOnce = .running g (.entries (j :: todo))) : b.ClosingAt g j := by
  cases h with
  | duplicate h => exact .duplicate (hreader.trans h)
  | reader h => exact .reader (hreader.trans h)
  | janitor h => exact .janitor (hjanitor.trans h)
  | reverse h => exact .reverse (hreverse ▸ h)
  | association h => exact .association (hclose _ _ _ h)

/-- An action of `Close` other than those that close an entry: it changes neither the
entries nor the table, and goes on from `c` to `c'`. -/
theorem Kept.close_move (ha : a.Kept) {c : Once Goroutine CloseStage}
    (hentries : b.entries = a.entries) (hcount : b.entryCount = a.entryCount)
    (hnat : b.nat = a.nat) (hdiscarded : b.discarded = a.discarded)
    (hreader : b.reader = a.reader) (hjanitor : b.janitor = a.janitor)
    (hreverse : b.reverse = a.reverse) (hbefore : a.closeOnce = c)
    (hemptied : tableEmptied b.closeOnce = true → tableEmptied c = true)
    (hc : ∀ g j todo, c ≠ .running g (.entries (j :: todo))) : b.Kept := by
  refine ha.frame hentries hcount hnat (hdiscarded ▸ ha.discarded) (hbefore ▸ hemptied)
    (hreader ▸ ha.drafting) (ha.started.of_eq hcount (hreverse ▸ fun _ => id)
      (hreader ▸ fun _ => id))
    (fun j => hreader ▸ id) (fun j k => hreader ▸ id) ?_ ?_
  · intro g todo j hclose hj
    obtain ⟨k, todo, rfl⟩ := exists_cons_of_ne_nil (ne_nil_of_mem hj)
    exact absurd (hbefore.symm.trans hclose) (hc g k todo)
  · exact fun g j hat => hat.of_eq hreader hjanitor hreverse
      fun g j todo h => absurd (hbefore.symm.trans h) (hc g j todo)

/-- What an action of `Close` leaves as it is. -/
structure SameGoroutines (a b : Association) : Prop where
  reader : b.reader = a.reader
  janitor : b.janitor = a.janitor
  reverse : b.reverse = a.reverse

theorem EntryStep.sameGoroutines {i : ℕ} (h : a.EntryStep b g i returns) : a.SameGoroutines b := by
  rw [h.others]
  exact ⟨rfl, rfl, rfl⟩

theorem Kept.closeCollected_kept (ha : a.Kept) {i : ℕ} {todo : List ℕ}
    (honce : a.closeOnce = .running g (.entries (i :: todo))) (h : a.EntryStep b g i returns) :
    Kept { b with
      closeOnce := .running g (.entries (if returns then todo else i :: todo)) } := by
  have hreader := h.sameGoroutines.reader
  refine ha.entryStep h (.association honce) rfl rfl (by rw [h.others]) (by rw [h.others])
    (by rw [honce]; rfl) ?_ ?_ ?_ ?_ ?_ ?_
  · exact hreader ▸ ha.drafting
  · exact ha.started.of_eq (by rw [h.others]) (fun i => by rw [h.others]; exact id)
      fun i => by rw [h.others]; exact id
  · exact fun j hj => hreader.trans hj
  · exact fun j k _ hj => hreader.trans hj
  · intro g' todo' j hne hclose hj
    cases honce.symm.trans hclose
    refine ⟨_, rfl, ?_⟩
    have hj : j ∈ todo := (mem_cons.mp hj).resolve_left hne
    cases returns with
    | true => exact hj
    | false => exact mem_cons_of_mem i hj
  · rintro g' j hj (hat | hat | hat | hat | hat)
    · exact .duplicate (hreader.trans hat)
    · exact .reader (hreader.trans hat)
    · exact .janitor (h.sameGoroutines.janitor.trans hat)
    · exact .reverse (h.sameGoroutines.reverse ▸ hat :)
    · cases honce.symm.trans hat
      rcases hj with hj | rfl
      · exact absurd rfl hj
      · exact .association rfl

theorem Kept.closeBody_kept (ha : a.Kept) {stage : CloseStage}
    (honce : a.closeOnce = .running g stage) {next : Option CloseStage}
    (h : a.closeBody g stage = some (b, next)) :
    Kept { b with closeOnce := next.elim .done (.running g) } ∧ a.SameGoroutines b := by
  cases stage with
  | signal | closeConns | onClose =>
    cases h
    exact ⟨ha.close_move rfl rfl rfl rfl rfl rfl rfl honce (by simp [tableEmptied]) (by simp),
      rfl, rfl, rfl⟩
  | empty => cases h
  | entries todo =>
    cases todo with
    | nil =>
      cases h
      exact ⟨ha.close_move rfl rfl rfl rfl rfl rfl rfl honce (by simp [tableEmptied]) (by simp),
        rfl, rfl, rfl⟩
    | cons i todo =>
      obtain ⟨⟨c, returns⟩, hclose, hr⟩ := Option.map_eq_some_iff.mp h
      cases hr
      have hstep := closeEntry_step hclose
      exact ⟨ha.closeCollected_kept honce hstep, hstep.sameGoroutines⟩

theorem Kept.close_kept (ha : a.Kept) (h : a.close g = some (b, returns)) :
    b.Kept ∧ a.SameGoroutines b := by
  obtain ⟨r, hact, hr⟩ := Option.map_eq_some_iff.mp h
  cases hr
  rcases Once.act_cases hact with ⟨hidle, rfl⟩ | ⟨stage, c, next, honce, hbody, rfl⟩ | ⟨hdone, rfl⟩
  · exact ⟨ha.close_move rfl rfl rfl rfl rfl rfl rfl hidle (by simp [tableEmptied]) (by simp),
      rfl, rfl, rfl⟩
  · obtain ⟨hkept, hreader, hjanitor, hreverse⟩ := ha.closeBody_kept honce hbody
    exact ⟨hkept, hreader, hjanitor, hreverse⟩
  · refine ⟨?_, rfl, rfl, rfl⟩
    simpa only [← hdone] using ha

theorem Kept.emptyStep_kept (ha : a.Kept) {order : List ℕ} (h : a.emptyStep order = some b) :
    b.Kept := by
  rw [emptyStep] at h
  split at h
  · rename_i g honce
    split_ifs at h with horder
    cases h
    obtain ⟨-, -, hall⟩ := horder
    refine ⟨fun j hj => ?_, ha.torn, fun j g' stage hrunning => ?_, ha.drafting,
      ⟨ha.started.reverse, ha.started.reader⟩, ha.discarded, fun _ => rfl⟩
    · cases ha.placed j hj with
      | inserting hreader => exact .inserting hreader
      | listed hlisted => exact .collected rfl (hall j hj hlisted)
      | collected hclose _ => cases honce.symm.trans hclose
      | duplicate hreader => exact .duplicate hreader
      | closing hrunning => exact .closing hrunning
      | finished hnothing => exact .finished hnothing
    · have hat := ha.closer j g' stage hrunning
      exact hat.of_eq rfl rfl rfl fun _ _ _ hclose => by cases honce.symm.trans hclose
  · cases h

end Association
end VlfProto.SocksClient
