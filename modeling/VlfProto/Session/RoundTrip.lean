import VlfProto.Session.Reassembly

/-! # Interleaved fragments -/

namespace VlfProto.Session
open Platform Function List

section Packets

variable {size : ℕ} (hsize : 0 < size) (m : Message)
include hsize

/-- A message has as many packets as its payload has chunks, and one if it fits. -/
theorem Message.lt_length_packets (j : ℕ) :
    j < (m.packets (datagramHeaderSize + size)).length ↔
      if m.payload.length ≤ size then j = 0 else j * size < m.payload.length := by
  rw [← not_iff_not, not_lt, ← List.getElem?_eq_none_iff, m.getElem?_packets hsize,
    m.packet_eq hsize]
  split_ifs <;> simp_all

theorem Message.length_packets_of_fits (hfits : m.payload.length ≤ size) :
    (m.packets (datagramHeaderSize + size)).length = 1 := by
  have hzero := m.lt_length_packets hsize 0
  have hone := m.lt_length_packets hsize 1
  rw [if_pos hfits] at hzero hone
  omega

theorem Message.length_packet_le {raw : Bytes}
    (hraw : raw ∈ m.packets (datagramHeaderSize + size)) :
    raw.length ≤ datagramHeaderSize + size := by
  obtain ⟨j, hj⟩ := List.getElem?_of_mem hraw
  rw [m.getElem?_packets hsize, m.packet_eq hsize] at hj
  obtain ⟨pkt, hpkt, rfl⟩ := Option.map_eq_some_iff.mp hj
  have hpayload : pkt.payload.length ≤ size := by
    split_ifs at hpkt with hfits
    all_goals
      cases hpkt
      first | exact hfits | simp [chunk]
  simp only [encodeDatagramPacket, length_append, length_bigEndian, length_singleton,
    datagramHeaderSize]
  omega

end Packets

variable {ι : Type*} [DecidableEq ι]

/-- The packets of the messages, merged: each message's packets arrive once and in
order, the clock does not go back, and no message pauses for longer than a partial
message is kept. -/
structure Interleaving (messages : ι → Message) (maxDatagramPayload : ℕ)
    (ds : List (Delivery ι)) : Prop where
  order : ∀ i, (ds.filter (·.message = i)).map Delivery.fragment =
    List.range ((messages i).packets maxDatagramPayload).length
  clock : ds.Pairwise fun d e => d.now ≤ e.now
  prompt : ∀ i, (ds.filter (·.message = i)).IsChain fun d e =>
    e.now ≤ d.now + Reassembly.partTTL

abbrev count (messages : ι → Message) (size : ℕ) (i : ι) : ℕ :=
  ((messages i).packets (datagramHeaderSize + size)).length

/-- The first `k i` packets of each message have arrived, the receiver has gathered
their indices unless the message is complete, and `ds` brings the rest in time. -/
structure Midway (messages : ι → Message) (size : ℕ) (k : ι → ℕ) (p : Progress ι)
    (ds : List (Delivery ι)) : Prop where
  order : ∀ i, (ds.filter (·.message = i)).map Delivery.fragment =
    List.range' (k i) (count messages size i - k i)
  clock : ds.Pairwise fun d e => d.now ≤ e.now
  prompt : ∀ i, (ds.filter (·.message = i)).IsChain fun d e =>
    e.now ≤ d.now + Reassembly.partTTL
  idle : ∀ i, k i = 0 ∨ count messages size i ≤ k i → p i = none
  begun : ∀ i, 0 < k i → k i < count messages size i → ∃ t, p i = some (List.range (k i), t) ∧
    ∀ d ∈ (ds.filter (·.message = i)).head?, d.now ≤ t + Reassembly.partTTL

variable {messages : ι → Message} {size : ℕ} {k : ι → ℕ} {p : Progress ι} {d : Delivery ι}
  {ds : List (Delivery ι)}

theorem Interleaving.midway (h : Interleaving messages (datagramHeaderSize + size) ds) :
    Midway messages size (fun _ => 0) (fun _ => none) ds where
  order i := by rw [h.order i, range_eq_range', Nat.sub_zero]
  clock := h.clock
  prompt := h.prompt
  idle _ _ := rfl
  begun _ hpos := absurd hpos (lt_irrefl 0)

namespace Midway

theorem purge_eq (h : Midway messages size k p (d :: ds)) : p.purge d.now = p := by
  funext i
  by_cases hbegun : 0 < k i ∧ k i < count messages size i
  · obtain ⟨t, hp, hnext⟩ := h.begun i hbegun.1 hbegun.2
    cases hfilter : (d :: ds).filter (·.message = i) with
    | nil =>
      have horder := congrArg List.length (h.order i)
      simp only [hfilter, map_nil, length_nil, length_range'] at horder
      omega
    | cons e es =>
      have hmem : e ∈ d :: ds := mem_of_mem_filter (hfilter ▸ mem_cons_self)
      have hle : d.now ≤ e.now := by
        rcases mem_cons.mp hmem with rfl | hlater
        · exact le_rfl
        · exact (pairwise_cons.mp h.clock).1 e hlater
      have hsoon := hnext e (by simp [hfilter])
      simp only [Progress.purge, hp, Option.bind_some]
      rw [if_neg (by omega)]
  · have hnone := h.idle i (by omega)
    simp [Progress.purge, hnone]

theorem gathered_eq (h : Midway messages size k p (d :: ds)) {i : ι}
    (hi : k i < count messages size i) : p.gathered d.now i = List.range (k i) := by
  rw [Progress.gathered, h.purge_eq]
  rcases Nat.eq_zero_or_pos (k i) with hzero | hpos
  · rw [h.idle i (.inl hzero), hzero]
    rfl
  · obtain ⟨t, hp, -⟩ := h.begun i hpos hi
    rw [hp]
    rfl

theorem head_eq (h : Midway messages size k p (d :: ds)) :
    d.fragment = k d.message ∧ k d.message < count messages size d.message ∧
      (ds.filter (·.message = d.message)).map Delivery.fragment =
        List.range' (k d.message + 1) (count messages size d.message - (k d.message + 1)) := by
  have horder := h.order d.message
  simp only [filter_cons, decide_true, if_true, map_cons] at horder
  have hlt : k d.message < count messages size d.message := by
    by_contra hge
    rw [Nat.sub_eq_zero_of_le (not_lt.mp hge)] at horder
    simp at horder
  rw [show count messages size d.message - k d.message =
    count messages size d.message - (k d.message + 1) + 1 by omega, List.range'_succ] at horder
  obtain ⟨hhead, htail⟩ := List.cons.inj horder
  exact ⟨hhead, hlt, htail⟩

theorem step_other (h : Midway messages size k p (d :: ds)) {i : ι} (hi : i ≠ d.message) :
    p.step size (lengths messages) d i = p i := by
  unfold Progress.step
  split_ifs
  · rw [update_of_ne hi, h.purge_eq]
  · rw [update_of_ne hi, h.purge_eq]
  · rfl

section

variable (hsize : 0 < size)
include hsize

theorem last_iff (h : Midway messages size k p (d :: ds))
    (hlong : size < lengths messages d.message) :
    lengths messages d.message ≤ (d.fragment + 1) * size ↔
      count messages size d.message ≤ k d.message + 1 := by
  rw [← not_lt, ← not_lt, h.head_eq.1, (messages d.message).lt_length_packets hsize,
    if_neg (not_le.mpr hlong)]

theorem fragment_lt (h : Midway messages size k p (d :: ds))
    (hlong : size < lengths messages d.message) :
    d.fragment * size < lengths messages d.message := by
  have hlt := h.head_eq.2.1
  rw [(messages d.message).lt_length_packets hsize, if_neg (not_le.mpr hlong)] at hlt
  rwa [h.head_eq.1]

theorem step_self (h : Midway messages size k p (d :: ds)) :
    p.step size (lengths messages) d d.message =
      if count messages size d.message ≤ k d.message + 1 then none
      else some (List.range (k d.message + 1), d.now) := by
  obtain ⟨hfragment, hlt, -⟩ := h.head_eq
  by_cases hlong : size < lengths messages d.message
  · rw [Progress.step, if_pos ⟨hlong, h.fragment_lt hsize hlong⟩, update_self,
      h.gathered_eq hlt, hfragment, range_succ]
    simp only [← hfragment, h.last_iff hsize hlong]
  · have hone : count messages size d.message = 1 :=
      (messages d.message).length_packets_of_fits hsize (not_lt.mp hlong)
    rw [Progress.step, if_neg (by tauto), h.idle d.message (.inl (by omega)), if_pos (by omega)]

theorem step (h : Midway messages size k p (d :: ds)) :
    Midway messages size (update k d.message (k d.message + 1))
      (p.step size (lengths messages) d) ds := by
  have hother {i : ι} (hi : i ≠ d.message) :
      (d :: ds).filter (·.message = i) = ds.filter (·.message = i) := by
    simp [hi.symm]
  have hself : (d :: ds).filter (·.message = d.message) =
      d :: ds.filter (·.message = d.message) := by simp
  constructor
  · intro i
    by_cases hi : i = d.message
    · rw [hi, update_self]
      exact h.head_eq.2.2
    · rw [update_of_ne hi, ← hother hi]
      exact h.order i
  · exact (pairwise_cons.mp h.clock).2
  · intro i
    by_cases hi : i = d.message
    · have hchain := h.prompt d.message
      rw [hself] at hchain
      rw [hi]
      exact hchain.tail
    · rw [← hother hi]
      exact h.prompt i
  · intro i hidle
    by_cases hi : i = d.message
    · rw [hi, update_self] at hidle
      rw [hi, h.step_self hsize, if_pos (by omega)]
    · rw [update_of_ne hi] at hidle
      rw [h.step_other hi]
      exact h.idle i hidle
  · intro i hpos hlt
    by_cases hi : i = d.message
    · rw [hi, update_self] at hlt ⊢
      refine ⟨d.now, by rw [h.step_self hsize, if_neg (by omega)], fun e he => ?_⟩
      have hchain := h.prompt d.message
      rw [hself] at hchain
      exact hchain.rel_head? he
    · rw [update_of_ne hi] at hpos hlt ⊢
      rw [h.step_other hi, ← hother hi]
      exact h.begun i hpos hlt

end

end Midway

/-! ### Fragmentation and reassembly are inverse -/

variable {r : Reassembly}

/-- Hand the packets over one by one: the receiver in the end, and for each packet
its message and what `Add` returned. -/
def receive (messages : ι → Message) (maxDatagramPayload : ℕ) :
    Reassembly → List (Delivery ι) → Reassembly × List (ι × Option Bytes)
  | r, [] => (r, [])
  | r, d :: ds =>
    let (r, out) := deliver messages maxDatagramPayload r d
    let (r, outs) := receive messages maxDatagramPayload r ds
    (r, (d.message, out) :: outs)

/-- What `Add` returned for the packets of a message. -/
def answers (outs : List (ι × Option Bytes)) (i : ι) : List (Option Bytes) :=
  (outs.filter (·.1 = i)).map Prod.snd

/-- Nothing is held that belongs to no message. -/
def Owned (messages : ι → Message) (r : Reassembly) : Prop :=
  ∀ flowID seq, r.find flowID seq ≠ none →
    ∃ i, (messages i).flowID = flowID ∧ (messages i).seq = seq

omit [DecidableEq ι] in
theorem deliver_noneEmpty (hr : r.NoneEmpty) (max : ℕ) :
    (deliver messages max r d).1.NoneEmpty := by
  unfold deliver
  split
  · exact hr
  · exact hr.add _ _

omit [DecidableEq ι] in
theorem Owned.deliver (hsize : 0 < size) (hr : Owned messages r) :
    Owned messages (Session.deliver messages (datagramHeaderSize + size) r d).1 := by
  unfold Session.deliver
  split
  · exact hr
  · rename_i pkt hpkt
    have hkey : (messages d.message).flowID = pkt.flowID ∧ (messages d.message).seq = pkt.seq := by
      rw [Message.packet_eq _ hsize] at hpkt
      split_ifs at hpkt <;> cases hpkt <;> exact ⟨rfl, rfl⟩
    by_cases hwhole : pkt.flags &&& datagramFlagFragmented = 0
    · rw [r.add_of_unfragmented d.now pkt hwhole]
      exact hr
    · intro flowID seq hfind
      rw [(r.add_of_fragmented d.now pkt hwhole).2] at hfind
      split_ifs at hfind with hsame
      · exact ⟨d.message, hkey.1.trans hsame.1.symm, hkey.2.trans hsame.2.symm⟩
      · exact absurd rfl hfind
      · apply hr flowID seq
        intro hnone
        rw [Reassembly.find_cleanupLocked, hnone] at hfind
        exact hfind rfl

section Receive

variable (hsize : 0 < size)
  (hkeys : Injective fun i => ((messages i).flowID, (messages i).seq))
include hsize hkeys

/-- The next packet is answered with the payload if it is the last of its message. -/
theorem Midway.deliver (h : Midway messages size k p (d :: ds))
    (hr : Represents messages size p r) :
    Represents messages size (p.step size (lengths messages) d)
        (Session.deliver messages (datagramHeaderSize + size) r d).1 ∧
      (Session.deliver messages (datagramHeaderSize + size) r d).2 =
        if count messages size d.message ≤ k d.message + 1 then
          some (messages d.message).payload else none := by
  obtain ⟨hfragment, hlt, -⟩ := h.head_eq
  by_cases hlong : size < lengths messages d.message
  · obtain ⟨hrep, hout⟩ := hr.deliver hsize hkeys hlong (h.fragment_lt hsize hlong)
    have hlast := h.last_iff hsize hlong
    rw [← hfragment] at hlast
    refine ⟨hrep, ?_⟩
    rw [hout, h.gathered_eq hlt, ← hfragment]
    by_cases hend : lengths messages d.message ≤ (d.fragment + 1) * size
    · rw [if_pos hend, if_pos (hlast.mp hend), flatMap_chunk_eq hend]
    · rw [if_neg hend, if_neg (mt hlast.mpr hend)]
  · have hone : count messages size d.message = 1 :=
      (messages d.message).length_packets_of_fits hsize (not_lt.mp hlong)
    rw [deliver_of_fits hsize (not_lt.mp hlong), Progress.step, if_neg (by tauto)]
    refine ⟨hr, ?_⟩
    rw [if_pos (by omega), if_pos (by omega)]

theorem receive_of_midway (h : Midway messages size k p ds) (hr : Represents messages size p r)
    (howned : Owned messages r) (htidy : r.NoneEmpty) :
    (∀ i, answers (receive messages (datagramHeaderSize + size) r ds).2 i =
      if k i < count messages size i then
        List.replicate (count messages size i - k i - 1) none ++ [some (messages i).payload]
      else []) ∧
    (receive messages (datagramHeaderSize + size) r ds).1.parts = ∅ := by
  induction ds generalizing k p r with
  | nil =>
    have hdone : ∀ i, count messages size i ≤ k i := fun i => by
      have horder := congrArg List.length (h.order i)
      simp only [filter_nil, map_nil, length_nil, length_range'] at horder
      omega
    refine ⟨fun i => by rw [if_neg (not_lt.mpr (hdone i))]; rfl, ?_⟩
    apply htidy.parts_eq_empty
    intro flowID seq
    by_contra hfind
    obtain ⟨i, rfl, rfl⟩ := howned flowID seq hfind
    rw [hr i, h.idle i (.inr (hdone i))] at hfind
    exact hfind rfl
  | cons d ds ih =>
    obtain ⟨hrep, hout⟩ := h.deliver hsize hkeys hr
    obtain ⟨hanswers, hparts⟩ := ih (h.step hsize) hrep (howned.deliver hsize)
      (deliver_noneEmpty htidy _)
    refine ⟨fun i => ?_, hparts⟩
    have hi := hanswers i
    simp only [receive, answers, filter_cons] at hi ⊢
    by_cases hsame : i = d.message
    · subst hsame
      rw [update_self] at hi
      simp only [decide_true, if_true, map_cons, hi, hout, if_pos h.head_eq.2.1]
      split_ifs with hlast hmore
      · omega
      · rw [show count messages size d.message - k d.message - 1 = 0 by omega]
        rfl
      · rw [show count messages size d.message - k d.message - 1 =
          count messages size d.message - (k d.message + 1) - 1 + 1 by omega]
        rfl
      · omega
    · rw [update_of_ne hsame] at hi
      simpa [Ne.symm hsame] using hi

end Receive

/-- However the packets of messages with distinct keys are merged, `Add` answers each message's
last packet with its payload and no other packet, and nothing is held in the end. -/
theorem receive_fragmentDatagram {max : ℕ} (hmax : datagramHeaderSize < max)
    (hkeys : Injective fun i => ((messages i).flowID, (messages i).seq))
    (ds : List (Delivery ι)) (h : Interleaving messages max ds) :
    (∀ i, answers (receive messages max newReassembly ds).2 i =
      List.replicate (((messages i).packets max).length - 1) none ++
        [some (messages i).payload]) ∧
    (receive messages max newReassembly ds).1.parts = ∅ ∧
    ∀ i, ∀ raw ∈ (messages i).packets max, raw.length ≤ max := by
  obtain ⟨size, rfl⟩ := Nat.exists_eq_add_of_lt hmax
  rw [Nat.add_assoc] at h ⊢
  have hsize : 0 < size + 1 := Nat.succ_pos size
  have hrep : Represents messages (size + 1) (fun _ => none) newReassembly := fun _ => rfl
  have howned : Owned messages newReassembly := fun _ _ hfind => absurd rfl hfind
  have htidy : newReassembly.NoneEmpty := fun _ _ hlookup => by cases hlookup
  obtain ⟨hanswers, hparts⟩ := receive_of_midway hsize hkeys h.midway hrep howned htidy
  refine ⟨fun i => ?_, hparts, fun i raw hraw => (messages i).length_packet_le hsize hraw⟩
  have hpos : 0 < count messages (size + 1) i := by
    rw [(messages i).lt_length_packets hsize]
    split_ifs <;> omega
  rw [hanswers i, if_pos hpos, Nat.sub_zero]

def twoMessages : Bool → Message
  | false => ⟨1, 7, [10, 20]⟩
  | true => ⟨1, 8, [30, 40]⟩

/-- Their packets alternate. -/
def alternating : List (Delivery Bool) := [⟨0, false, 0⟩, ⟨1, true, 0⟩, ⟨2, false, 1⟩, ⟨3, true, 1⟩]

theorem alternating_received :
    Interleaving twoMessages 14 alternating ∧
      answers (receive twoMessages 14 newReassembly alternating).2 true =
        [none, some [30, 40]] := by
  have hkeys : Injective fun i => ((twoMessages i).flowID, (twoMessages i).seq) := by
    decide
  have h : Interleaving twoMessages 14 alternating :=
    ⟨by decide +kernel, by decide +kernel, by decide +kernel⟩
  exact ⟨h, (receive_fragmentDatagram (by decide) hkeys alternating h).1 true⟩

end VlfProto.Session
