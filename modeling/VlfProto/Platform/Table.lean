import Mathlib.Data.Finmap
import Mathlib.Tactic

/-!
# Hash tables

A table is a finite map without an iteration order. A loop that ranges over a table and updates
or deletes the entry at hand is `filterMap`.
-/
namespace VlfProto.Platform

abbrev Table (K V : Type*) := Finmap (fun _ : K => V)

namespace Table

variable {K V : Type*}

private theorem keys_filterMap_sublist (f : K → V → Option V) (l : List (Σ _ : K, V)) :
    ((l.filterMap fun e => (f e.1 e.2).map fun v => (⟨e.1, v⟩ : Σ _ : K, V)).map
      Sigma.fst).Sublist (l.map Sigma.fst) := by
  induction l with
  | nil => simp
  | cons e l ih =>
    cases hf : f e.1 e.2 with
    | none => simpa [List.filterMap_cons, hf] using ih.cons e.1
    | some v => simpa [List.filterMap_cons, hf] using ih

/-- Visit every entry once, replacing its value or deleting it. -/
def filterMap (f : K → V → Option V) (t : Table K V) : Table K V where
  entries := t.entries.filterMap fun e => (f e.1 e.2).map fun v => ⟨e.1, v⟩
  nodupKeys := by
    rcases t with ⟨m, hm⟩
    rw [← Multiset.nodup_keys] at hm ⊢
    induction m using Quotient.inductionOn with
    | h l => exact (keys_filterMap_sublist f l).nodup hm

theorem mem_entries_filterMap (f : K → V → Option V) (t : Table K V) (k : K) (v : V) :
    (⟨k, v⟩ : Σ _ : K, V) ∈ (t.filterMap f).entries ↔
      ∃ w, (⟨k, w⟩ : Σ _ : K, V) ∈ t.entries ∧ f k w = some v := by
  simp only [filterMap, Multiset.mem_filterMap, Option.map_eq_some_iff, Sigma.mk.injEq]
  constructor
  · rintro ⟨⟨k', w⟩, hw, v', hv, rfl, hvv⟩
    obtain rfl := eq_of_heq hvv
    exact ⟨w, hw, hv⟩
  · rintro ⟨w, hw, hv⟩
    exact ⟨⟨k, w⟩, hw, v, hv, rfl, HEq.rfl⟩

variable [DecidableEq K] {t : Table K V}

@[simp] theorem lookup_filterMap (f : K → V → Option V) (t : Table K V) (k : K) :
    (t.filterMap f).lookup k = (t.lookup k).bind (f k) := by
  ext v
  simp only [Finmap.lookup_eq_some_iff, mem_entries_filterMap, Option.bind_eq_some_iff]

/-- One lookup rule for both cases of an insertion. -/
theorem lookup_insert_eq (t : Table K V) (k k' : K) (v : V) :
    (t.insert k v).lookup k' = if k' = k then some v else t.lookup k' := by
  split_ifs with h
  · rw [h, Finmap.lookup_insert]
  · exact Finmap.lookup_insert_of_ne t h

theorem lookup_erase_eq (t : Table K V) (k k' : K) :
    (t.erase k).lookup k' = if k' = k then none else t.lookup k' := by
  split_ifs with h
  · rw [h, Finmap.lookup_erase]
  · exact Finmap.lookup_erase_ne h

theorem lookup_of_erase {k k' : K} {v : V} (h : (t.erase k).lookup k' = some v) :
    t.lookup k' = some v := by
  rw [lookup_erase_eq] at h
  split_ifs at h
  exact h

theorem lookup_of_keys_eq_empty (h : t.keys = ∅) (k : K) : t.lookup k = none := by
  rw [Finmap.lookup_eq_none, ← Finmap.mem_keys, h]
  exact Finset.notMem_empty k

theorem card_keys_eq_zero : t.keys.card = 0 ↔ t = ∅ := by
  rw [Finset.card_eq_zero]
  refine ⟨fun h => Finmap.ext_lookup fun k => lookup_of_keys_eq_empty h k, ?_⟩
  rintro rfl
  rfl

theorem card_keys_insert {k : K} (h : t.lookup k = none) (v : V) :
    (t.insert k v).keys.card = t.keys.card + 1 := by
  have hkeys : (t.insert k v).keys = insert k t.keys := by
    ext k'
    rw [Finmap.mem_keys, Finmap.mem_insert, Finset.mem_insert, Finmap.mem_keys]
  rw [hkeys, Finset.card_insert_of_notMem]
  rw [Finmap.mem_keys]
  exact Finmap.lookup_eq_none.mp h

theorem card_keys_erase {k : K} {v : V} (h : t.lookup k = some v) :
    (t.erase k).keys.card + 1 = t.keys.card := by
  rw [Finmap.keys_erase]
  exact Finset.card_erase_add_one (Finmap.mem_keys.mpr (Finmap.mem_of_lookup_eq_some h))

theorem card_keys_le {t t' : Table K V} (h : ∀ k v, t'.lookup k = some v → t.lookup k = some v) :
    t'.keys.card ≤ t.keys.card := by
  refine Finset.card_le_card fun k hk => ?_
  obtain ⟨v, hv⟩ := Finmap.mem_iff.mp (Finmap.mem_keys.mp hk)
  exact Finmap.mem_keys.mpr (Finmap.mem_of_lookup_eq_some (h k v hv))

end Table
end VlfProto.Platform
