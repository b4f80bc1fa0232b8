import VlfProto.Platform.Table
import VlfProto.Platform.Text

/-!
# Datagram packets, fragmentation and reassembly

A payload too long for one packet is cut into chunks that carry the same flow id and sequence
number and differ only in the flag of the last one. The receiver appends the chunks of one
number in the order in which they arrive.
-/
namespace VlfProto.Session
open Platform

def datagramFlagFragmented : UInt8 := 1
def datagramFlagLast : UInt8 := 2
def datagramHeaderSize : ℕ := 13

structure DatagramPacket where
  flowID : UInt64
  flags : UInt8
  seq : UInt32
  payload : Bytes
  deriving DecidableEq

def encodeDatagramPacket (pkt : DatagramPacket) : Bytes :=
  bigEndian 8 pkt.flowID.toNat ++ [pkt.flags] ++ bigEndian 4 pkt.seq.toNat ++ pkt.payload

/-- The error text names the length that was too short. -/
def decodeDatagramPacket (raw : Bytes) : Except Bytes DatagramPacket :=
  if raw.length < datagramHeaderSize then
    .error (ascii "datagram too short: " ++ decimal raw.length)
  else .ok {
    flowID := (ofBigEndian (raw.take 8)).toUInt64
    flags := raw.getD 8 0
    seq := (ofBigEndian ((raw.drop 9).take 4)).toUInt32
    payload := raw.drop 13 }

/-- The loop over the chunks from offset `i`; `fuel` bounds the rounds left. -/
def fragmentLoop (flowID : UInt64) (seq : UInt32) (payload : Bytes) (maxChunk : ℕ) :
    (fuel i : ℕ) → List Bytes
  | 0, _ => []
  | fuel + 1, i =>
    if i < payload.length then
      let stop := min (i + maxChunk) payload.length
      let flags := if stop = payload.length then datagramFlagFragmented ||| datagramFlagLast
        else datagramFlagFragmented
      encodeDatagramPacket ⟨flowID, flags, seq, (payload.take stop).drop i⟩ ::
        fragmentLoop flowID seq payload maxChunk fuel (i + maxChunk)
    else []

def fragmentDatagram (flowID : UInt64) (seq : UInt32) (payload : Bytes)
    (maxDatagramPayload : ℕ) : Except Bytes (List Bytes) :=
  if maxDatagramPayload ≤ datagramHeaderSize then .error (ascii "maxDatagramPayload too small")
  else
    let maxChunk := maxDatagramPayload - datagramHeaderSize
    if payload.length ≤ maxChunk then
      .ok [encodeDatagramPacket ⟨flowID, 0, seq, payload⟩]
    else .ok (fragmentLoop flowID seq payload maxChunk payload.length 0)

structure FragmentState where
  data : Bytes
  updatedAt : ℤ

structure Reassembly where
  parts : Table UInt64 (Table UInt32 FragmentState)

def newReassembly : Reassembly := ⟨∅⟩

namespace Reassembly

/-- How long an incomplete message is kept after its latest fragment. -/
def partTTL : ℤ := 5 * 1000000000

/-- Drop what was not updated since the cutoff, and the flows left empty. -/
def cleanupLocked (r : Reassembly) (now : ℤ) : Reassembly :=
  ⟨r.parts.filterMap fun _ bySeq =>
    let bySeq := bySeq.filterMap fun _ st => if st.updatedAt < now - partTTL then none else some st
    if bySeq.keys = ∅ then none else some bySeq⟩

/-- The new state, and the payload when the packet completes it. -/
def add (r : Reassembly) (now : ℤ) (pkt : DatagramPacket) : Reassembly × Option Bytes :=
  if pkt.flags &&& datagramFlagFragmented = 0 then (r, some pkt.payload)
  else
    let r := r.cleanupLocked now
    let bySeq := (r.parts.lookup pkt.flowID).getD ∅
    let st := (bySeq.lookup pkt.seq).getD ⟨[], 0⟩
    let st : FragmentState := ⟨st.data ++ pkt.payload, now⟩
    let bySeq := bySeq.insert pkt.seq st
    if pkt.flags &&& datagramFlagLast = 0 then (⟨r.parts.insert pkt.flowID bySeq⟩, none)
    else
      let bySeq := bySeq.erase pkt.seq
      if bySeq.keys = ∅ then (⟨r.parts.erase pkt.flowID⟩, some st.data)
      else (⟨r.parts.insert pkt.flowID bySeq⟩, some st.data)

end Reassembly

/-! ### What each packet of a fragmented message carries -/

open List

structure Message where
  flowID : UInt64
  seq : UInt32
  payload : Bytes

def Message.packet (m : Message) (maxDatagramPayload j : ℕ) : Option DatagramPacket :=
  match fragmentDatagram m.flowID m.seq m.payload maxDatagramPayload with
  | .error _ => none
  | .ok packets => packets[j]?.bind fun raw => (decodeDatagramPacket raw).toOption

def chunk (size : ℕ) (payload : Bytes) (j : ℕ) : Bytes := (payload.drop (j * size)).take size

theorem decode_encodeDatagramPacket (pkt : DatagramPacket) :
    decodeDatagramPacket (encodeDatagramPacket pkt) = .ok pkt := by
  have hflow : ofBigEndian (bigEndian 8 pkt.flowID.toNat) = pkt.flowID.toNat :=
    ofBigEndian_bigEndian pkt.flowID.toNat_lt
  have hseq : ofBigEndian (bigEndian 4 pkt.seq.toNat) = pkt.seq.toNat :=
    ofBigEndian_bigEndian pkt.seq.toNat_lt
  have hdrop (n : ℕ) (hn : 8 ≤ n) : (bigEndian 8 pkt.flowID.toNat).drop n = [] :=
    drop_eq_nil_of_le (by simpa using hn)
  have hlength : ¬(encodeDatagramPacket pkt).length < datagramHeaderSize := by
    simp [encodeDatagramPacket, datagramHeaderSize]
    omega
  rw [decodeDatagramPacket, if_neg hlength]
  simp [encodeDatagramPacket, drop_append, hdrop, hflow, hseq]

/-- The packet that the loop emits at offset `i`. -/
private def packetAt (flowID : UInt64) (seq : UInt32) (payload : Bytes) (size i : ℕ) :
    DatagramPacket :=
  ⟨flowID, if payload.length ≤ i + size then datagramFlagFragmented ||| datagramFlagLast
    else datagramFlagFragmented, seq, (payload.drop i).take size⟩

variable {flowID : UInt64} {seq : UInt32} {payload : Bytes} {size : ℕ}

private theorem fragmentLoop_succ (fuel i : ℕ) :
    fragmentLoop flowID seq payload size (fuel + 1) i =
      if i < payload.length then encodeDatagramPacket (packetAt flowID seq payload size i) ::
        fragmentLoop flowID seq payload size fuel (i + size)
      else [] := by
  have hstop : min (i + size) payload.length = payload.length ↔ payload.length ≤ i + size := by
    omega
  have hslice : (payload.take (min (i + size) payload.length)).drop i =
      (payload.drop i).take size := by
    rw [drop_take, take_eq_take_iff, length_drop]
    omega
  rw [fragmentLoop]
  simp only [hstop, hslice, packetAt]

private theorem getElem?_fragmentLoop (hsize : 0 < size) (fuel i j : ℕ)
    (hfuel : payload.length ≤ i + fuel) :
    (fragmentLoop flowID seq payload size fuel i)[j]? =
      if i + j * size < payload.length then
        some (encodeDatagramPacket (packetAt flowID seq payload size (i + j * size)))
      else none := by
  induction fuel generalizing i j with
  | zero =>
    rw [if_neg (by omega)]
    rfl
  | succ fuel ih =>
    rw [fragmentLoop_succ]
    split_ifs with hmore hhere hhere
    · cases j with
      | zero => simp
      | succ j =>
        have hnext : i + size + j * size = i + (j + 1) * size := by ring
        rw [List.getElem?_cons_succ, ih _ _ (by omega), hnext, if_pos hhere]
    · cases j with
      | zero => omega
      | succ j =>
        have hnext : i + size + j * size = i + (j + 1) * size := by ring
        rw [List.getElem?_cons_succ, ih _ _ (by omega), hnext, if_neg hhere]
    · exact absurd (Nat.lt_of_le_of_lt (Nat.le_add_right _ _) hhere) hmore
    · rfl

/-- The packets of a message: itself when it fits, otherwise one for each chunk. -/
theorem Message.packet_eq (m : Message) (hsize : 0 < size) (j : ℕ) :
    m.packet (datagramHeaderSize + size) j =
      if m.payload.length ≤ size then
        if j = 0 then some ⟨m.flowID, 0, m.seq, m.payload⟩ else none
      else if j * size < m.payload.length then
        some ⟨m.flowID, if m.payload.length ≤ (j + 1) * size then
          datagramFlagFragmented ||| datagramFlagLast else datagramFlagFragmented, m.seq,
          chunk size m.payload j⟩
      else none := by
  unfold Message.packet fragmentDatagram
  rw [if_neg (by omega)]
  dsimp only
  rw [Nat.add_sub_cancel_left]
  by_cases hfits : m.payload.length ≤ size
  · rw [if_pos hfits, if_pos hfits]
    cases j with
    | zero => simp [decode_encodeDatagramPacket, Except.toOption]
    | succ j => simp
  · rw [if_neg hfits, if_neg hfits]
    dsimp only
    rw [getElem?_fragmentLoop hsize _ _ _ (by omega), zero_add]
    split_ifs with hthere hlast
    · simp [decode_encodeDatagramPacket, Except.toOption, packetAt, chunk, ← Nat.succ_mul, hlast]
    · simp [decode_encodeDatagramPacket, Except.toOption, packetAt, chunk, ← Nat.succ_mul, hlast]
    · rfl

/-- The packets of a message on the wire, none if the limit is too small. -/
def Message.packets (m : Message) (maxDatagramPayload : ℕ) : List Bytes :=
  match fragmentDatagram m.flowID m.seq m.payload maxDatagramPayload with
  | .error _ => []
  | .ok packets => packets

theorem Message.getElem?_packets (m : Message) (hsize : 0 < size) (j : ℕ) :
    (m.packets (datagramHeaderSize + size))[j]? =
      (m.packet (datagramHeaderSize + size) j).map encodeDatagramPacket := by
  rw [Message.packet_eq m hsize]
  unfold Message.packets fragmentDatagram
  rw [if_neg (by omega)]
  dsimp only
  rw [Nat.add_sub_cancel_left]
  by_cases hfits : m.payload.length ≤ size
  · rw [if_pos hfits, if_pos hfits]
    cases j <;> simp
  · rw [if_neg hfits, if_neg hfits]
    dsimp only
    rw [getElem?_fragmentLoop hsize _ _ _ (by omega), zero_add]
    split_ifs with hthere hlast
    · simp [packetAt, chunk, ← Nat.succ_mul, hlast]
    · simp [packetAt, chunk, ← Nat.succ_mul, hlast]
    · rfl

theorem flatMap_chunk_range (size : ℕ) (payload : Bytes) (j : ℕ) :
    (List.range j).flatMap (chunk size payload) = payload.take (j * size) := by
  induction j with
  | zero => simp
  | succ j ih => rw [range_succ, flatMap_append, ih, flatMap_singleton, chunk,
      Nat.succ_mul, take_add]

theorem flatMap_chunk_eq {size j : ℕ} {payload : Bytes} (hlast : payload.length ≤ (j + 1) * size) :
    (List.range j).flatMap (chunk size payload) ++ chunk size payload j = payload := by
  have h := flatMap_chunk_range size payload (j + 1)
  rwa [range_succ, flatMap_append, flatMap_singleton,
    take_of_length_le hlast] at h

/-- A payload whose chunks are constant. -/
def blocks (size length : ℕ) (v : ℕ → UInt8) : Bytes :=
  (List.range length).map fun x => v (x / size)

@[simp] theorem length_blocks (size length : ℕ) (v : ℕ → UInt8) :
    (blocks size length v).length = length := by
  simp [blocks]

theorem chunk_blocks {size : ℕ} (hsize : 0 < size) (length : ℕ) (v : ℕ → UInt8) (j : ℕ) :
    chunk size (blocks size length v) j =
      List.replicate (min size (length - j * size)) (v j) := by
  refine ext_getElem (by simp [chunk]) fun x hx _ => ?_
  have hlt : x < size := by
    simp [chunk] at hx
    omega
  have hdiv : (j * size + x) / size = j := by
    rw [Nat.mul_comm, Nat.mul_add_div hsize, Nat.div_eq_of_lt hlt, Nat.add_zero]
  simp [chunk, blocks, hdiv]

/-- Sequences of constant blocks of one size agree only if their values do. -/
theorem map_eq_of_flatMap_replicate {size : ℕ} (hsize : 0 < size) (v : ℕ → UInt8)
    {js ks : List ℕ}
    (h : js.flatMap (fun j => List.replicate size (v j)) =
      ks.flatMap fun j => List.replicate size (v j)) : js.map v = ks.map v := by
  induction js generalizing ks with
  | nil =>
    cases ks with
    | nil => rfl
    | cons k ks => simp [hsize.ne'] at h
  | cons j js ih =>
    cases ks with
    | nil => simp [hsize.ne'] at h
    | cons k ks =>
      obtain ⟨hhead, htail⟩ := append_inj h (by simp)
      have hv : v j = v k := (replicate_inj.mp hhead).2.resolve_left hsize.ne'
      rw [map_cons, map_cons, hv, ih htail]

end VlfProto.Session
