import VlfProto.Session.Datagram

/-! # Which payloads reassembly hands over -/

namespace VlfProto.Session
open Platform Function Option Table Finmap

namespace Reassembly

variable (r : Reassembly) (now : ℤ) (pkt : DatagramPacket)

/-- What is held for one sequence number of one flow. -/
def find (flowID : UInt64) (seq : UInt32) : Option FragmentState :=
  (r.parts.lookup flowID).bind fun bySeq => bySeq.lookup seq

theorem find_cleanupLocked (flowID : UInt64) (seq : UInt32) :
    (r.cleanupLocked now).find flowID seq =
      (r.find flowID seq).bind fun st =>
        if st.updatedAt < now - partTTL then none else some st := by
  unfold find cleanupLocked
  rw [lookup_filterMap]
  cases r.parts.lookup flowID with
  | none => rfl
  | some bySeq =>
    dsimp only [bind_some]
    rw [← lookup_filterMap
      (fun _ st => if st.updatedAt < now - partTTL then none else some st) bySeq seq]
    split_ifs with hempty
    · rw [lookup_of_keys_eq_empty hempty]
      rfl
    · rfl

/-- The bytes held for a packet's message before it is added. -/
def held : Bytes :=
  (((r.cleanupLocked now).find pkt.flowID pkt.seq).map FragmentState.data).getD []

theorem add_of_unfragmented (h : pkt.flags &&& datagramFlagFragmented = 0) :
    r.add now pkt = (r, some pkt.payload) := if_pos h

theorem lookup_getD_parts (flowID : UInt64) (seq : UInt32) :
    ((r.parts.lookup flowID).getD ∅).lookup seq = r.find flowID seq := by
  unfold find
  cases r.parts.lookup flowID <;> rfl

theorem find_insert (flowID flowID' : UInt64) (seq : UInt32) (bySeq : Table UInt32 FragmentState) :
    find ⟨r.parts.insert flowID bySeq⟩ flowID' seq =
      if flowID' = flowID then bySeq.lookup seq else r.find flowID' seq := by
  unfold find
  rw [lookup_insert_eq]
  split_ifs <;> rfl

theorem find_erase (flowID flowID' : UInt64) (seq : UInt32) :
    find ⟨r.parts.erase flowID⟩ flowID' seq =
      if flowID' = flowID then none else r.find flowID' seq := by
  unfold find
  rw [lookup_erase_eq]
  split_ifs <;> rfl

/-- A fragment is appended to what is held; the last one hands it over. -/
theorem add_of_fragmented (h : pkt.flags &&& datagramFlagFragmented ≠ 0) :
    ((r.add now pkt).2 =
      if pkt.flags &&& datagramFlagLast = 0 then none
      else some (r.held now pkt ++ pkt.payload)) ∧
    ∀ flowID seq, (r.add now pkt).1.find flowID seq =
      if flowID = pkt.flowID ∧ seq = pkt.seq then
        if pkt.flags &&& datagramFlagLast = 0 then some ⟨r.held now pkt ++ pkt.payload, now⟩
        else none
      else (r.cleanupLocked now).find flowID seq := by
  have hheld : ((((r.cleanupLocked now).parts.lookup pkt.flowID).getD ∅).lookup pkt.seq |>.getD
      ⟨[], 0⟩).data = r.held now pkt := by
    rw [lookup_getD_parts, held]
    cases (r.cleanupLocked now).find pkt.flowID pkt.seq <;> rfl
  unfold add
  rw [if_neg h]
  dsimp only
  rw [hheld]
  split_ifs with hlast hempty
  · refine ⟨rfl, fun flowID seq => ?_⟩
    rw [find_insert, lookup_insert_eq, lookup_getD_parts]
    by_cases hflow : flowID = pkt.flowID <;> by_cases hseq : seq = pkt.seq <;> simp [hflow, hseq]
  · refine ⟨rfl, fun flowID seq => ?_⟩
    have hnone := lookup_of_keys_eq_empty hempty seq
    rw [lookup_erase_eq, lookup_insert_eq, lookup_getD_parts] at hnone
    rw [find_erase]
    by_cases hflow : flowID = pkt.flowID <;> by_cases hseq : seq = pkt.seq <;> simp_all
  · refine ⟨rfl, fun flowID seq => ?_⟩
    rw [find_insert, lookup_erase_eq, lookup_insert_eq, lookup_getD_parts]
    by_cases hflow : flowID = pkt.flowID <;> by_cases hseq : seq = pkt.seq <;> simp [hflow, hseq]

/-- No flow is kept with nothing in it. -/
def NoneEmpty : Prop := ∀ flowID bySeq, r.parts.lookup flowID = some bySeq → bySeq.keys ≠ ∅

theorem noneEmpty_cleanupLocked : (r.cleanupLocked now).NoneEmpty := by
  intro flowID bySeq hlookup
  simp only [cleanupLocked, lookup_filterMap] at hlookup
  obtain ⟨bySeq', -, hkept⟩ := bind_eq_some_iff.mp hlookup
  split_ifs at hkept with hempty
  exact some.inj hkept ▸ hempty

variable {r}

theorem NoneEmpty.insert (hr : r.NoneEmpty) (flowID : UInt64) {bySeq : Table UInt32 FragmentState}
    (hne : bySeq.keys ≠ ∅) : NoneEmpty ⟨r.parts.insert flowID bySeq⟩ := by
  intro flowID' bySeq' hlookup
  simp only [lookup_insert_eq] at hlookup
  split_ifs at hlookup
  · exact some.inj hlookup ▸ hne
  · exact hr flowID' bySeq' hlookup

theorem NoneEmpty.erase (hr : r.NoneEmpty) (flowID : UInt64) :
    NoneEmpty ⟨r.parts.erase flowID⟩ := by
  intro flowID' bySeq' hlookup
  simp only [lookup_erase_eq] at hlookup
  split_ifs at hlookup
  exact hr flowID' bySeq' hlookup

theorem NoneEmpty.add (hr : r.NoneEmpty) : (r.add now pkt).1.NoneEmpty := by
  have hclean := r.noneEmpty_cleanupLocked now
  unfold Reassembly.add
  dsimp only
  split_ifs with hwhole hmore hempty
  · exact hr
  · apply hclean.insert
    intro hnone
    have hlookup := lookup_of_keys_eq_empty hnone pkt.seq
    simp at hlookup
  · exact hclean.erase _
  · exact hclean.insert _ hempty

theorem NoneEmpty.parts_eq_empty (hr : r.NoneEmpty) (h : ∀ flowID seq, r.find flowID seq = none) :
    r.parts = ∅ := by
  apply ext_lookup
  intro flowID
  rw [lookup_empty]
  cases hlookup : r.parts.lookup flowID with
  | none => rfl
  | some bySeq =>
    obtain ⟨seq, hseq⟩ := Finset.nonempty_iff_ne_empty.mpr (hr flowID bySeq hlookup)
    have hnone := h flowID seq
    rw [find, hlookup, bind_some, lookup_eq_none] at hnone
    exact absurd (mem_keys.mp hseq) hnone

end Reassembly

/-- One packet handed to the receiver, which reads this clock. Losing, repeating
and reordering packets are choices of which deliveries there are. -/
structure Delivery (ι : Type*) where
  now : ℤ
  message : ι
  fragment : ℕ

variable {ι : Type*}

/-- Hand one packet over; an index beyond the packets of a message delivers nothing. -/
def deliver (messages : ι → Message) (maxDatagramPayload : ℕ) (r : Reassembly) (d : Delivery ι) :
    Reassembly × Option Bytes :=
  match (messages d.message).packet maxDatagramPayload d.fragment with
  | none => (r, none)
  | some pkt => r.add d.now pkt

/-- The payloads handed over along a run, each with its flow. -/
def outputs (messages : ι → Message) (maxDatagramPayload : ℕ) :
    Reassembly → List (Delivery ι) → List (UInt64 × Bytes)
  | _, [] => []
  | r, d :: ds =>
    ((deliver messages maxDatagramPayload r d).2.map fun payload =>
      ((messages d.message).flowID, payload)).toList ++
      outputs messages maxDatagramPayload (deliver messages maxDatagramPayload r d).1 ds

/-- Every payload handed over is one of those sent on its flow. -/
def Faithful (messages : ι → Message) (maxDatagramPayload : ℕ) (r : Reassembly)
    (ds : List (Delivery ι)) : Prop :=
  ∀ out ∈ outputs messages maxDatagramPayload r ds,
    ∃ i, (messages i).flowID = out.1 ∧ (messages i).payload = out.2

/-- The indices gathered for each message, and the time of the latest. -/
abbrev Progress (ι : Type*) := ι → Option (List ℕ × ℤ)

namespace Progress

/-- Forget the messages whose latest fragment is too old. -/
def purge (p : Progress ι) (now : ℤ) : Progress ι := fun i =>
  (p i).bind fun g => if g.2 < now - Reassembly.partTTL then none else some g

/-- The indices gathered for a message when the clock reads `now`. -/
def gathered (p : Progress ι) (now : ℤ) (i : ι) : List ℕ := ((p.purge now i).map Prod.fst).getD []

variable [DecidableEq ι]

/-- Take note of one delivery, given the chunk size and the payload lengths. -/
def step (size : ℕ) (length : ι → ℕ) (p : Progress ι) (d : Delivery ι) : Progress ι :=
  if size < length d.message ∧ d.fragment * size < length d.message then
    update (p.purge d.now) d.message
      (if length d.message ≤ (d.fragment + 1) * size then none
        else some (p.gathered d.now d.message ++ [d.fragment], d.now))
  else p

/-- Each last fragment arrives when exactly the fragments before it were
gathered, in their order. -/
def InOrder (size : ℕ) (length : ι → ℕ) : Progress ι → List (Delivery ι) → Prop
  | _, [] => True
  | p, d :: ds =>
    (size < length d.message → d.fragment * size < length d.message →
      length d.message ≤ (d.fragment + 1) * size →
      p.gathered d.now d.message = List.range d.fragment) ∧
    InOrder size length (p.step size length d) ds

end Progress

variable {messages : ι → Message} {size : ℕ} {p : Progress ι} {r : Reassembly} {d : Delivery ι}

abbrev lengths (messages : ι → Message) (i : ι) : ℕ := (messages i).payload.length

/-- The receiver holds the chunks whose indices were gathered. -/
def Represents (messages : ι → Message) (size : ℕ) (p : Progress ι) (r : Reassembly) : Prop :=
  ∀ i, r.find (messages i).flowID (messages i).seq =
    (p i).map fun g => ⟨g.1.flatMap (chunk size (messages i).payload), g.2⟩

theorem Represents.cleanupLocked (h : Represents messages size p r) (now : ℤ) :
    Represents messages size (p.purge now) (r.cleanupLocked now) := by
  intro i
  rw [Reassembly.find_cleanupLocked, h i, Progress.purge]
  cases p i with
  | none => rfl
  | some g =>
    dsimp only [map_some, bind_some]
    split_ifs <;> rfl

theorem Represents.held (h : Represents messages size p r) (now : ℤ) (i : ι)
    {pkt : DatagramPacket} (hflow : pkt.flowID = (messages i).flowID)
    (hseq : pkt.seq = (messages i).seq) :
    r.held now pkt = (p.gathered now i).flatMap (chunk size (messages i).payload) := by
  rw [Reassembly.held, hflow, hseq, h.cleanupLocked now i, Progress.gathered]
  cases p.purge now i <;> rfl

section Deliver

variable (hsize : 0 < size)
include hsize

theorem deliver_of_fits (hfits : lengths messages d.message ≤ size) :
    deliver messages (datagramHeaderSize + size) r d =
      (r, if d.fragment = 0 then some (messages d.message).payload else none) := by
  unfold deliver
  rw [Message.packet_eq _ hsize, if_pos hfits]
  split_ifs with hzero
  · exact Reassembly.add_of_unfragmented r d.now _
      (show (0 : UInt8) &&& datagramFlagFragmented = 0 by decide)
  · rfl

theorem deliver_of_absent (hlong : size < lengths messages d.message)
    (habsent : ¬d.fragment * size < lengths messages d.message) :
    deliver messages (datagramHeaderSize + size) r d = (r, none) := by
  unfold deliver
  rw [Message.packet_eq _ hsize, if_neg (not_le.mpr hlong), if_neg habsent]

/-- A message sent whole, and a packet that does not exist, leave the receiver alone. -/
theorem deliver_of_not_fragment (hfrag : ¬(size < lengths messages d.message ∧
    d.fragment * size < lengths messages d.message)) :
    ∃ out, deliver messages (datagramHeaderSize + size) r d = (r, out) ∧
      ∀ payload ∈ out, (messages d.message).payload = payload := by
  by_cases hfits : lengths messages d.message ≤ size
  · refine ⟨_, deliver_of_fits hsize hfits, fun payload hpayload => ?_⟩
    split_ifs at hpayload
    · exact some.inj hpayload
    · cases hpayload
  · exact ⟨none, deliver_of_absent hsize (not_le.mp hfits)
      (fun hthere => hfrag ⟨not_le.mp hfits, hthere⟩), nofun⟩

variable [DecidableEq ι]
  (hkeys : Injective fun i => ((messages i).flowID, (messages i).seq))
include hkeys

theorem Represents.deliver (h : Represents messages size p r)
    (hlong : size < lengths messages d.message)
    (hthere : d.fragment * size < lengths messages d.message) :
    Represents messages size (p.step size (lengths messages) d)
        (Session.deliver messages (datagramHeaderSize + size) r d).1 ∧
      (Session.deliver messages (datagramHeaderSize + size) r d).2 =
        if lengths messages d.message ≤ (d.fragment + 1) * size then
          some ((p.gathered d.now d.message).flatMap (chunk size (messages d.message).payload) ++
            chunk size (messages d.message).payload d.fragment)
        else none := by
  unfold Session.deliver
  rw [Message.packet_eq _ hsize, if_neg (not_le.mpr hlong), if_pos hthere]
  dsimp only
  obtain ⟨hout, hfind⟩ := Reassembly.add_of_fragmented r d.now ⟨(messages d.message).flowID,
    if lengths messages d.message ≤ (d.fragment + 1) * size then
      datagramFlagFragmented ||| datagramFlagLast else datagramFlagFragmented,
    (messages d.message).seq, chunk size (messages d.message).payload d.fragment⟩
    (by dsimp only; split_ifs <;> decide)
  rw [h.held d.now d.message rfl rfl] at hout hfind
  have hflag : (if lengths messages d.message ≤ (d.fragment + 1) * size then
      datagramFlagFragmented ||| datagramFlagLast else datagramFlagFragmented) &&&
      datagramFlagLast = 0 ↔ ¬lengths messages d.message ≤ (d.fragment + 1) * size := by
    split_ifs with hlast <;> simp [hlast] <;> decide
  simp only [hflag] at hout hfind
  refine ⟨fun i => ?_, by rw [hout]; split_ifs <;> simp_all⟩
  have hstep : p.step size (lengths messages) d = update (p.purge d.now) d.message
      (if lengths messages d.message ≤ (d.fragment + 1) * size then none
        else some (p.gathered d.now d.message ++ [d.fragment], d.now)) := if_pos ⟨hlong, hthere⟩
  rw [hfind, hstep, h.cleanupLocked d.now i]
  by_cases hi : i = d.message
  · subst hi
    rw [update_self, if_pos ⟨rfl, rfl⟩]
    split_ifs <;> simp_all
  · rw [update_of_ne hi, if_neg]
    rintro ⟨hflow, hseq⟩
    exact hi (hkeys (Prod.ext hflow hseq))

end Deliver

end VlfProto.Session
