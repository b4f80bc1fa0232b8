import VlfProto.Platform.Text
import Mathlib.Data.List.GetD

/-!
# The downstream ring buffer

A write copies as much of its argument as fits, in two pieces when it passes the end of the
array, and tells whether something did not fit; once the buffer is closed it does nothing.
-/
namespace VlfProto.Relay
open Platform

structure RingBuffer where
  buf : Bytes
  r : ℕ
  w : ℕ
  size : ℕ
  closed : Bool

namespace RingBuffer

def new (capacity : ℤ) : RingBuffer where
  buf := List.replicate (if capacity < 1 then 1 else capacity.toNat) 0
  r := 0
  w := 0
  size := 0
  closed := false

/-- Overwrite the bytes from index `start` on with `src`. -/
def blit (buf : Bytes) (start : ℕ) (src : Bytes) : Bytes :=
  buf.take start ++ src ++ buf.drop (start + src.length)

def free (b : RingBuffer) : ℕ := b.buf.length - b.size

/-- The new buffer, the number of bytes written, and whether some did not fit. -/
def write (b : RingBuffer) (p : Bytes) : RingBuffer × ℕ × Bool :=
  if b.closed ∨ p = [] then (b, 0, false)
  else if b.free = 0 then (b, 0, true)
  else
    let overflow := decide (b.free < p.length)
    let p := p.take b.free
    let n := p.length
    let first := min n (b.buf.length - b.w)
    let buf := blit b.buf b.w (p.take first)
    let buf := blit buf 0 (p.drop first)
    ({ b with buf, w := (b.w + n) % b.buf.length, size := b.size + n }, n, overflow)

/-- The new buffer, the bytes read, and whether the closed buffer is drained. -/
def read (b : RingBuffer) (max : ℤ) : RingBuffer × Bytes × Bool :=
  if max ≤ 0 ∨ b.size = 0 then (b, [], b.closed && b.size = 0)
  else
    let n := min max.toNat b.size
    let first := min n (b.buf.length - b.r)
    let out := (b.buf.drop b.r).take first ++ b.buf.take (n - first)
    let b := { b with r := (b.r + n) % b.buf.length, size := b.size - n }
    (b, out, b.closed && b.size = 0)

def close (b : RingBuffer) : RingBuffer := { b with closed := true }

/-- A write overflows when the open buffer has less room than it needs. -/
theorem write_overflow_iff (b : RingBuffer) (p : Bytes) :
    (b.write p).2.2 = true ↔ b.closed = false ∧ b.free < p.length := by
  unfold write
  split_ifs with hnothing hfull
  · cases hnothing with
    | inl hclosed => simp [hclosed]
    | inr hempty => simp [hempty]
  · obtain ⟨hopen, hne⟩ := not_or.mp hnothing
    simpa [hopen, hfull] using List.length_pos_iff.mpr hne
  · obtain ⟨hopen, hne⟩ := not_or.mp hnothing
    simp [hopen]

theorem write_closed (b : RingBuffer) (p : Bytes) : (b.write p).1.closed = b.closed := by
  unfold write
  split_ifs <;> rfl

theorem read_closed (b : RingBuffer) (max : ℤ) : (b.read max).1.closed = b.closed := by
  unfold read
  split_ifs <;> rfl

end RingBuffer
end VlfProto.Relay

/-! ### The contents of the ring buffer -/

namespace VlfProto.Relay.RingBuffer
open Platform List

def contents (b : RingBuffer) : Bytes :=
  (List.range b.size).map fun k => b.buf.getD ((b.r + k) % b.buf.length) 0

structure WellFormed (b : RingBuffer) : Prop where
  r_lt : b.r < b.buf.length
  size_le : b.size ≤ b.buf.length
  w_eq : b.w = (b.r + b.size) % b.buf.length

variable {b : RingBuffer} {p buf : Bytes}

theorem new_wellFormed (capacity : ℤ) : (new capacity).WellFormed := by
  have hpos : 0 < (new capacity).buf.length := by
    simp only [new, length_replicate]
    split_ifs <;> omega
  exact ⟨hpos, Nat.zero_le _, by simp [new]⟩

theorem contents_eq_nil (h : b.size = 0) : b.contents = [] := by
  simp [contents, h]

theorem length_contents (b : RingBuffer) : b.contents.length = b.size := by
  simp [contents]

theorem add_mod_eq {r k cap : ℕ} (hr : r < cap) (hk : k ≤ cap) :
    (r + k) % cap = if r + k < cap then r + k else r + k - cap := by
  split_ifs with hlt
  · exact Nat.mod_eq_of_lt hlt
  · rw [Nat.mod_eq_sub_mod (by omega), Nat.mod_eq_of_lt (by omega)]

theorem length_blit {src : Bytes} {start : ℕ} (h : start + src.length ≤ buf.length) :
    (blit buf start src).length = buf.length := by
  simp only [blit, length_append, length_take, length_drop]
  omega

theorem getD_blit {src : Bytes} {start : ℕ} (h : start + src.length ≤ buf.length) (i : ℕ) :
    (blit buf start src).getD i 0 =
      if start ≤ i ∧ i < start + src.length then src.getD (i - start) 0 else buf.getD i 0 := by
  have hstart : (buf.take start).length = start := by simp; omega
  have hboth : (buf.take start ++ src).length = start + src.length := by simp; omega
  simp only [blit, getD_eq_getElem?_getD]
  split_ifs with hin
  · rw [List.getElem?_append_left (by omega), List.getElem?_append_right (by omega), hstart]
  · by_cases hlow : i < start
    · rw [List.getElem?_append_left (by omega), List.getElem?_append_left (by omega),
        List.getElem?_take_of_lt hlow]
    · rw [List.getElem?_append_right (by omega), hboth, List.getElem?_drop]
      congr 2
      omega

theorem getD_write {w : ℕ} (hw : w < buf.length) (hp : p.length ≤ buf.length)
    (i : ℕ) :
    (blit (blit buf w (p.take (min p.length (buf.length - w)))) 0
        (p.drop (min p.length (buf.length - w)))).getD i 0 =
      if i < p.length - min p.length (buf.length - w) then
        p.getD (min p.length (buf.length - w) + i) 0
      else if w ≤ i ∧ i < w + min p.length (buf.length - w) then p.getD (i - w) 0
      else buf.getD i 0 := by
  have hfirst : w + (p.take (min p.length (buf.length - w))).length ≤ buf.length := by
    simp only [length_take]
    omega
  have hrest : 0 + (p.drop (min p.length (buf.length - w))).length ≤
      (blit buf w (p.take (min p.length (buf.length - w)))).length := by
    rw [length_blit hfirst, length_drop]
    omega
  rw [getD_blit hrest, getD_blit hfirst]
  simp only [Nat.zero_le, true_and, Nat.zero_add, length_drop, length_take, Nat.sub_zero]
  split_ifs with h₁ h₂ h₃ h₄
  all_goals try omega
  · simp [getD_eq_getElem?_getD, List.getElem?_drop]
  · rw [getD_eq_getElem?_getD, List.getElem?_take_of_lt (by omega),
      ← getD_eq_getElem?_getD]
  · rfl

/-- The array, the write index and the fill count after a write of `p`, which fits. -/
def append (b : RingBuffer) (p : Bytes) : RingBuffer :=
  let first := min p.length (b.buf.length - b.w)
  { b with
    buf := blit (blit b.buf b.w (p.take first)) 0 (p.drop first)
    w := (b.w + p.length) % b.buf.length
    size := b.size + p.length }

theorem write_eq_append (b : RingBuffer) (p : Bytes) :
    (b.write p).1 = if b.closed ∨ p = [] ∨ b.free = 0 then b else b.append (p.take b.free) := by
  unfold write append
  split_ifs <;> first | rfl | tauto

theorem append_length (hb : b.WellFormed) (hp : b.size + p.length ≤ b.buf.length) :
    (b.append p).buf.length = b.buf.length := by
  have hw : b.w < b.buf.length := hb.w_eq ▸ Nat.mod_lt _ (by have := hb.r_lt; omega)
  have hfirst : b.w + (p.take (min p.length (b.buf.length - b.w))).length ≤ b.buf.length := by
    simp only [length_take]
    omega
  simp only [append]
  rw [length_blit, length_blit hfirst]
  rw [length_blit hfirst, length_drop]
  omega

theorem append_wellFormed (hb : b.WellFormed)
    (hp : b.size + p.length ≤ b.buf.length) : (b.append p).WellFormed where
  r_lt := by
    rw [append_length hb hp]
    exact hb.r_lt
  size_le := by
    rw [append_length hb hp]
    exact hp
  w_eq := by
    rw [append_length hb hp]
    simp only [append]
    rw [hb.w_eq, Nat.mod_add_mod, Nat.add_assoc]

theorem append_contents (hb : b.WellFormed)
    (hp : b.size + p.length ≤ b.buf.length) : (b.append p).contents = b.contents ++ p := by
  have hr := hb.r_lt
  have hw := hb.w_eq
  rw [add_mod_eq hr hb.size_le] at hw
  have hwlt : b.w < b.buf.length := by split_ifs at hw <;> omega
  have hget := getD_write (p := p) hwlt (by omega)
  have hlength := append_length hb hp
  unfold contents
  rw [hlength]
  simp only [append] at hlength ⊢
  rw [range_add, map_append, map_map]
  congr 1
  · apply map_congr_left
    intro k hk
    rw [mem_range] at hk
    rw [hget, add_mod_eq hr (by omega)]
    split_ifs at hw ⊢ <;> first | rfl | omega
  · apply ext_getElem
    · simp
    · intro k hk hkp
      simp only [getElem_map, getElem_range, Function.comp_apply]
      rw [← getD_eq_getElem p 0 hkp, hget, add_mod_eq hr (by omega)]
      split_ifs at hw ⊢ <;> first | omega | (congr 1; omega)

theorem write_wellFormed (hb : b.WellFormed) (p : Bytes) : (b.write p).1.WellFormed := by
  rw [write_eq_append]
  split_ifs
  · exact hb
  · apply append_wellFormed hb
    have hsize := hb.size_le
    simp only [length_take, free]
    omega

theorem write_contents (hb : b.WellFormed) (p : Bytes) (hopen : b.closed = false) :
    (b.write p).1.contents = b.contents ++ p.take b.free := by
  rw [write_eq_append]
  split_ifs with hnothing
  · rcases hnothing with hclosed | hempty | hfull
    · simp [hopen] at hclosed
    · simp [hempty]
    · simp [hfull]
  · apply append_contents hb
    have hsize := hb.size_le
    simp only [length_take, free]
    omega

theorem write_of_closed (hclosed : b.closed) (p : Bytes) : (b.write p).1 = b := by
  rw [write_eq_append, if_pos (.inl hclosed)]

theorem read_wellFormed (hb : b.WellFormed) (max : ℤ) : (b.read max).1.WellFormed := by
  unfold read
  split_ifs with hnothing
  · exact hb
  · have hr := hb.r_lt
    have hsize := hb.size_le
    refine ⟨Nat.mod_lt _ (by omega), by simp only; omega, ?_⟩
    simp only
    rw [hb.w_eq, Nat.mod_add_mod]
    congr 1
    omega

theorem read_contents (hb : b.WellFormed) (max : ℤ) :
    b.contents = (b.read max).2.1 ++ (b.read max).1.contents := by
  unfold read
  split_ifs with hnothing
  · rfl
  · have hr := hb.r_lt
    have hsize := hb.size_le
    have hsplit : b.size = min max.toNat b.size + (b.size - min max.toNat b.size) := by omega
    generalize hn : min max.toNat b.size = n at hsplit
    have hn' : n ≤ b.size := by omega
    simp only [contents]
    rw [hsplit, range_add, map_append, map_map]
    congr 1
    · apply ext_getElem
      · simp only [length_map, length_range, length_append, length_take,
          length_drop]
        omega
      · intro k hk hk'
        simp only [length_map, length_range] at hk
        rw [getElem_map, getElem_range, add_mod_eq hr (by omega), getElem_append]
        simp only [getElem_take, getElem_drop, length_take, length_drop]
        split_ifs
        · rw [getD_eq_getElem]
        · omega
        · omega
        · rw [getD_eq_getElem _ _ (by omega)]
          congr 1
          omega
    · rw [Nat.add_sub_cancel_left]
      apply map_congr_left
      intro k _
      simp only [Function.comp_apply]
      rw [Nat.mod_add_mod, Nat.add_assoc]

theorem read_eos (b : RingBuffer) (max : ℤ) (h : (b.read max).2.2 = true) :
    b.closed ∧ (b.read max).1.contents = [] := by
  unfold read at h ⊢
  split_ifs at h ⊢ with hnothing
  · simp only [Bool.and_eq_true, decide_eq_true_eq] at h
    exact ⟨h.1, contents_eq_nil h.2⟩
  · simp only [Bool.and_eq_true, decide_eq_true_eq] at h
    exact ⟨h.1, contents_eq_nil h.2⟩

end VlfProto.Relay.RingBuffer
