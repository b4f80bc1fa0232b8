import VlfProto.Session.Reassembly

/-! # When reassembly cannot splice -/

namespace VlfProto.Session
open Platform Function Option List

variable {ι : Type*} {messages : ι → Message} {size : ℕ} {p : Progress ι} {r : Reassembly}
  {d : Delivery ι} {ds : List (Delivery ι)}

/-- The same keys and payload lengths, with any contents. -/
def SameShape (messages messages' : ι → Message) : Prop :=
  ∀ i, (messages' i).flowID = (messages i).flowID ∧ (messages' i).seq = (messages i).seq ∧
    (messages' i).payload.length = (messages i).payload.length

theorem SameShape.lengths_eq {messages' : ι → Message} (h : SameShape messages messages') :
    lengths messages' = lengths messages := funext fun i => (h i).2.2

theorem SameShape.injective {messages' : ι → Message} (h : SameShape messages messages')
    (hkeys : Injective fun i => ((messages i).flowID, (messages i).seq)) :
    Injective fun i => ((messages' i).flowID, (messages' i).seq) := by
  have : (fun i => ((messages' i).flowID, (messages' i).seq)) =
      fun i => ((messages i).flowID, (messages i).seq) :=
    funext fun i => Prod.ext (h i).1 (h i).2.1
  rwa [this]

theorem faithful_cons (max : ℕ) :
    Faithful messages max r (d :: ds) ↔
      (∀ payload ∈ (deliver messages max r d).2, ∃ i,
        (messages i).flowID = (messages d.message).flowID ∧ (messages i).payload = payload) ∧
      Faithful messages max (deliver messages max r d).1 ds := by
  unfold Faithful
  rw [outputs]
  simp only [mem_append, or_imp, forall_and, mem_toList, map_eq_some_iff,
    forall_exists_index, and_imp]
  refine and_congr_left' ⟨fun h payload hp => h _ payload hp rfl, ?_⟩
  rintro h out payload hp rfl
  exact h payload hp

theorem outputs_of_too_small {max : ℕ} (hmax : max ≤ datagramHeaderSize) :
    outputs messages max r ds = [] := by
  have hnone (d : Delivery ι) : deliver messages max r d = (r, none) := by
    unfold deliver Message.packet fragmentDatagram
    rw [if_pos hmax]
  induction ds with
  | nil => rfl
  | cons d ds ih =>
    rw [outputs, hnone]
    exact ih

variable {length : ι → ℕ}

/-- Every gathered index is one before the last. -/
def Progress.Whole (size : ℕ) (length : ι → ℕ) (p : Progress ι) : Prop :=
  ∀ i g, p i = some g → ∀ j ∈ g.1, (j + 1) * size < length i

theorem Progress.Whole.purge (h : p.Whole size length) (now : ℤ) :
    (p.purge now).Whole size length := by
  intro i g hg
  obtain ⟨g', hg', hkeep⟩ := bind_eq_some_iff.mp hg
  split_ifs at hkeep
  obtain rfl := some.inj hkeep
  exact h i g' hg'

theorem Progress.Whole.gathered (h : p.Whole size length) {now : ℤ} {i : ι} {j : ℕ}
    (hj : j ∈ p.gathered now i) : (j + 1) * size < length i := by
  unfold Progress.gathered at hj
  cases hg : p.purge now i with
  | none => simp [hg] at hj
  | some g => exact h.purge now i g hg j (by simpa [hg] using hj)

variable [DecidableEq ι]

theorem Progress.Whole.step (h : p.Whole size length) (d : Delivery ι) :
    (p.step size length d).Whole size length := by
  unfold Progress.step
  split_ifs with hfrag hlast
  · intro i g hg
    by_cases hi : i = d.message
    · simp [hi] at hg
    · rw [update_of_ne hi] at hg
      exact h.purge d.now i g hg
  · intro i g hg j hj
    by_cases hi : i = d.message
    · subst hi
      rw [update_self] at hg
      cases hg
      obtain hj | rfl : j ∈ p.gathered d.now d.message ∨ j = d.fragment := by simpa using hj
      · exact h.gathered hj
      · exact not_le.mp hlast
    · rw [update_of_ne hi] at hg
      exact h.purge d.now i g hg j hj
  · exact h

/-- Ones in the chunks `q` and `j`, zeros elsewhere. -/
def marker (q j x : ℕ) : UInt8 := if x = q ∨ x = j then 1 else 0

/-- All payloads zero, except that one carries the marker. -/
def marked (messages : ι → Message) (size : ℕ) (i : ι) (q j : ℕ) (i' : ι) : Message :=
  { messages i' with
    payload := if i' = i then blocks size (lengths messages i) (marker q j)
      else List.replicate (lengths messages i') 0 }

theorem sameShape_marked (messages : ι → Message) (size : ℕ) (i : ι) (q j : ℕ) :
    SameShape messages (marked messages size i q j) := by
  intro i'
  refine ⟨rfl, rfl, ?_⟩
  unfold marked
  dsimp only
  split_ifs with h
  · rw [length_blocks, h]
  · rw [length_replicate]

theorem eq_range_of_map_marker {js : List ℕ} {j : ℕ} (hlt : ∀ x ∈ js, x < j)
    (hmap : ∀ q, js.map (marker q j) = (List.range j).map (marker q j)) : js = List.range j := by
  have hlength : js.length = j := by simpa using congrArg List.length (hmap 0)
  refine ext_getElem (by simp [hlength]) fun q hq hq' => ?_
  have hat : marker q j js[q] = marker q j q := by
    have := getElem_of_eq (hmap q) (by simpa using hq)
    simpa using this
  have hne : js[q] ≠ j := (hlt _ (getElem_mem hq)).ne
  rw [getElem_range]
  by_contra hdiff
  simp [marker, hdiff, hne] at hat

/-- If what is handed over is a payload of its flow for all contents, it was
gathered in order. -/
theorem eq_range_of_handedOver (hsize : 0 < size) {i : ι} {js : List ℕ} {j : ℕ}
    (hwhole : ∀ x ∈ js, (x + 1) * size < lengths messages i)
    (hthere : j * size < lengths messages i) (hlast : lengths messages i ≤ (j + 1) * size)
    (h : ∀ messages', SameShape messages messages' → ∃ i', (messages' i').payload =
      js.flatMap (chunk size (messages' i).payload) ++ chunk size (messages' i).payload j) :
    js = List.range j := by
  have hbefore : ∀ x ∈ js, x < j := fun x hx => by
    have := Nat.lt_of_mul_lt_mul_right ((hwhole x hx).trans_le hlast)
    omega
  refine eq_range_of_map_marker hbefore fun q => ?_
  set payload := blocks size (lengths messages i) (marker q j) with hpayload
  have hfull (ks : List ℕ) (hks : ∀ x ∈ ks, (x + 1) * size ≤ lengths messages i) :
      ks.flatMap (chunk size payload) = ks.flatMap fun x => List.replicate size (marker q j x) := by
    refine flatMap_congr fun x hx => ?_
    have := hks x hx
    rw [hpayload, chunk_blocks hsize, Nat.min_eq_left]
    rw [Nat.succ_mul] at this
    omega
  obtain ⟨i', hi'⟩ := h _ (sameShape_marked messages size i q j)
  have hi : (marked messages size i q j i).payload = payload := if_pos rfl
  rw [hi] at hi'
  by_cases hsame : i' = i
  · subst hsame
    rw [hi] at hi'
    have hlength : payload.length ≤ (j + 1) * size := by rwa [hpayload, length_blocks]
    nth_rewrite 1 [← flatMap_chunk_eq hlength] at hi'
    have hcancel := append_cancel_right hi'
    rw [hfull js fun x hx => (hwhole x hx).le, hfull (List.range j)] at hcancel
    · exact (map_eq_of_flatMap_replicate hsize _ hcancel).symm
    · intro x hx
      have : (x + 1) * size ≤ j * size := Nat.mul_le_mul_right _ (mem_range.mp hx)
      omega
  · have hone : (1 : UInt8) ∈ (marked messages size i q j i').payload := by
      rw [hi', mem_append, hpayload, chunk_blocks hsize]
      refine .inr (mem_replicate.mpr ⟨by omega, ?_⟩)
      simp [marker]
    rw [marked] at hone
    simp only [if_neg hsame] at hone
    cases (mem_replicate.mp hone).2

section Equivalence

variable (hsize : 0 < size)
  (hkeys : Injective fun i => ((messages i).flowID, (messages i).seq))
include hsize hkeys

theorem faithful_iff_inOrder_of_represents (hwhole : p.Whole size (lengths messages))
    (r : (ι → Message) → Reassembly)
    (hr : ∀ messages', SameShape messages messages' → Represents messages' size p (r messages')) :
    (∀ messages', SameShape messages messages' →
        Faithful messages' (datagramHeaderSize + size) (r messages') ds) ↔
      p.InOrder size (lengths messages) ds := by
  induction ds generalizing p r with
  | nil => simp [Faithful, outputs, Progress.InOrder]
  | cons d ds ih =>
    simp only [faithful_cons, Progress.InOrder]
    by_cases hfrag : size < lengths messages d.message ∧
        d.fragment * size < lengths messages d.message
    · obtain ⟨hlong, hthere⟩ := hfrag
      have hdeliver {messages'} (h : SameShape messages messages') :=
        (hr messages' h).deliver hsize (h.injective hkeys)
          (show size < lengths messages' d.message by rwa [h.lengths_eq])
          (show d.fragment * size < lengths messages' d.message by rwa [h.lengths_eq])
      have hnext := ih (hwhole.step d)
        (fun messages' => (deliver messages' (datagramHeaderSize + size) (r messages') d).1)
        (fun messages' h => h.lengths_eq ▸ (hdeliver h).1)
      rw [← hnext]
      constructor
      · intro h
        refine ⟨fun _ _ hlast => ?_, fun messages' hshape => (h messages' hshape).2⟩
        refine eq_range_of_handedOver hsize (fun x hx => hwhole.gathered hx) hthere hlast
          fun messages' hshape => ?_
        have hout := (hdeliver hshape).2
        rw [if_pos (by rwa [hshape.lengths_eq])] at hout
        obtain ⟨i', -, hi'⟩ := (h messages' hshape).1 _ hout
        exact ⟨i', hi'⟩
      · rintro ⟨horder, htail⟩ messages' hshape
        refine ⟨fun payload hpayload => ?_, htail messages' hshape⟩
        rw [(hdeliver hshape).2] at hpayload
        split_ifs at hpayload with hlast
        · rw [horder hlong hthere (by rwa [hshape.lengths_eq] at hlast),
            flatMap_chunk_eq hlast] at hpayload
          exact ⟨d.message, rfl, some.inj hpayload⟩
        · cases hpayload
    · have hdeliver {messages'} (h : SameShape messages messages') :=
        deliver_of_not_fragment (r := r messages') hsize
          (show ¬(size < lengths messages' d.message ∧
            d.fragment * size < lengths messages' d.message) by rwa [h.lengths_eq])
      rw [show p.step size (lengths messages) d = p from if_neg hfrag, ← ih hwhole r hr]
      constructor
      · intro h
        refine ⟨fun hlong hthere => absurd ⟨hlong, hthere⟩ hfrag, fun messages' hshape => ?_⟩
        obtain ⟨out, hout, -⟩ := hdeliver hshape
        simpa [hout] using (h messages' hshape).2
      · rintro ⟨-, htail⟩ messages' hshape
        obtain ⟨out, hout, hsent⟩ := hdeliver hshape
        rw [hout]
        exact ⟨fun payload hpayload => ⟨d.message, rfl, hsent payload hpayload⟩,
          htail messages' hshape⟩

end Equivalence

theorem Progress.inOrder_zero (length : ι → ℕ) (p : Progress ι) (ds : List (Delivery ι)) :
    p.InOrder 0 length ds := by
  induction ds generalizing p with
  | nil => trivial
  | cons d ds ih => exact ⟨fun hlong _ hlast => by omega, ih _⟩

/-- With distinct keys, a pattern of deliveries makes the receiver hand over
sent payloads only, whatever they contain, exactly when each last fragment finds
its predecessors gathered in order. -/
theorem faithful_iff_inOrder
    (hkeys : Injective fun i => ((messages i).flowID, (messages i).seq))
    (max : ℕ) (ds : List (Delivery ι)) :
    (∀ messages', SameShape messages messages' → Faithful messages' max newReassembly ds) ↔
      Progress.InOrder (max - datagramHeaderSize) (lengths messages) (fun _ => none) ds := by
  by_cases hmax : max ≤ datagramHeaderSize
  · rw [Nat.sub_eq_zero_of_le hmax]
    refine iff_of_true (fun messages' _ => ?_) (Progress.inOrder_zero _ _ _)
    simp [Faithful, outputs_of_too_small hmax]
  · obtain ⟨size, rfl⟩ := Nat.exists_eq_add_of_lt (not_le.mp hmax)
    rw [show datagramHeaderSize + size + 1 - datagramHeaderSize = size + 1 by omega]
    exact faithful_iff_inOrder_of_represents (Nat.succ_pos size) hkeys
      (fun _ _ h => by cases h) (fun _ => newReassembly) fun _ _ _ => rfl

def threeBytes : Unit → Message := fun _ => ⟨1, 7, [10, 20, 30]⟩

theorem threeBytes_inOrder_faithful :
    (Injective fun i => ((threeBytes i).flowID, (threeBytes i).seq)) ∧
      Faithful threeBytes 14 newReassembly [⟨0, (), 0⟩, ⟨1, (), 1⟩, ⟨2, (), 2⟩] := by
  have hkeys : Injective fun i => ((threeBytes i).flowID, (threeBytes i).seq) :=
    Function.injective_of_subsingleton _
  refine ⟨hkeys, (faithful_iff_inOrder hkeys 14 _).mpr ?_ threeBytes fun _ => ⟨rfl, rfl, rfl⟩⟩
  refine ⟨by decide, by decide, fun _ _ _ => by decide, trivial⟩

/-- Losing the middle packet hands over a payload nobody sent. -/
theorem threeBytes_lost_fragment :
    outputs threeBytes 14 newReassembly [⟨0, (), 0⟩, ⟨1, (), 2⟩] = [(1, [10, 30])] ∧
      ¬Faithful threeBytes 14 newReassembly [⟨0, (), 0⟩, ⟨1, (), 2⟩] := by
  have hout : outputs threeBytes 14 newReassembly [⟨0, (), 0⟩, ⟨1, (), 2⟩] = [(1, [10, 30])] := by
    decide
  refine ⟨hout, fun h => ?_⟩
  obtain ⟨i, -, hi⟩ := h (1, [10, 30]) (by rw [hout]; exact mem_singleton_self _)
  simp [threeBytes] at hi

end VlfProto.Session
