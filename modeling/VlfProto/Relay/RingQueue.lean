import VlfProto.Platform.BoundedQueue
import VlfProto.Relay.RingBuffer
import VlfProto.Transition.Path

/-! # The ring buffer is a bounded queue -/

namespace VlfProto.Relay.RingBuffer
open Platform Transition List

def cap (b : RingBuffer) : ℕ := b.buf.length

def apply (b : RingBuffer) : QueueOp UInt8 → RingBuffer × QueueAnswer UInt8
  | .write p => ((b.write p).1, .wrote (b.write p).2.1 (b.write p).2.2)
  | .read max => ((b.read max).1, .got (b.read max).2.1 (b.read max).2.2)
  | .close => (b.close, .done)

variable {b : RingBuffer}

theorem new_cap (capacity : ℤ) : (new capacity).cap = max 1 capacity.toNat := by
  simp only [cap, new, length_replicate]
  split_ifs <;> omega

theorem write_cap (hb : b.WellFormed) (p : Bytes) : (b.write p).1.cap = b.cap := by
  rw [write_eq_append]
  split_ifs
  · rfl
  · apply append_length hb
    have hsize := hb.size_le
    simp only [length_take, free]
    omega

theorem write_count (hopen : b.closed = false) (p : Bytes) :
    (b.write p).2.1 = (p.take b.free).length := by
  unfold write
  split_ifs with hnothing hfull
  · rcases hnothing with hclosed | hempty
    · exact absurd hclosed (by simp [hopen])
    · simp [hempty]
  · simp [hfull]
  · rfl

theorem write_answer_of_closed (hclosed : b.closed = true) (p : Bytes) :
    (b.write p).2 = (0, false) := by
  unfold write
  rw [if_pos (Or.inl hclosed)]

theorem read_cap (b : RingBuffer) (max : ℤ) : (b.read max).1.cap = b.cap := by
  unfold read
  split_ifs <;> rfl

theorem length_read (hb : b.WellFormed) (max : ℤ) :
    (b.read max).2.1.length = min max.toNat b.size := by
  have hr := hb.r_lt
  have hsize := hb.size_le
  unfold read
  split_ifs with hnothing
  · rw [length_nil]
    omega
  · simp only [length_append, length_take, length_drop]
    omega

theorem read_eq_take (hb : b.WellFormed) (max : ℤ) :
    (b.read max).2.1 = b.contents.take (min max.toNat b.size) := by
  rw [read_contents hb max, take_left' (length_read hb max)]

theorem read_eq_drop (hb : b.WellFormed) (max : ℤ) :
    (b.read max).1.contents = b.contents.drop (min max.toNat b.size) := by
  rw [read_contents hb max, drop_left' (length_read hb max)]

theorem read_eos_eq (b : RingBuffer) (max : ℤ) :
    (b.read max).2.2 = (b.closed && (b.read max).1.contents.isEmpty) := by
  have hempty : ∀ b' : RingBuffer, b'.contents.isEmpty = decide (b'.size = 0) := by
    intro b'
    rw [Bool.eq_iff_iff, isEmpty_iff_length_eq_zero, length_contents, decide_eq_true_eq]
  rw [hempty]
  unfold read
  split_ifs <;> rfl

/-- The slices that an operation takes end within what they are taken from: of the array
from the index on, of the array from its start, and of the argument. -/
def SlicesInBounds (b : RingBuffer) : QueueOp UInt8 → Prop
  | .write p =>
    let n := min p.length b.free
    let first := min n (b.cap - b.w)
    b.w ≤ b.cap ∧ n ≤ p.length ∧ first ≤ n ∧ b.w + first ≤ b.cap ∧ n - first ≤ b.cap
  | .read max =>
    let n := min max.toNat b.size
    let first := min n (b.cap - b.r)
    b.r ≤ b.cap ∧ first ≤ n ∧ b.r + first ≤ b.cap ∧ n - first ≤ b.cap
  | .close => True

theorem WellFormed.slicesInBounds (hb : b.WellFormed) (op : QueueOp UInt8) :
    b.SlicesInBounds op := by
  have hr := hb.r_lt
  have hsize := hb.size_le
  have hw : b.w < b.buf.length := hb.w_eq ▸ Nat.mod_lt _ (by omega)
  cases op with
  | write p =>
    simp only [SlicesInBounds, cap, free]
    omega
  | read max =>
    simp only [SlicesInBounds, cap]
    omega
  | close => trivial

/-- The ring buffer holds what the queue holds. -/
structure Represents {cap : ℕ} (b : RingBuffer) (q : BoundedQueue UInt8 cap) : Prop where
  wellFormed : b.WellFormed
  cap_eq : b.cap = cap
  contents_eq : b.contents = q.items
  closed_eq : b.closed = q.closed

variable {capacity : ℕ} {q : BoundedQueue UInt8 capacity}

theorem Represents.free_eq (h : b.Represents q) : b.free = q.free := by
  rw [free, BoundedQueue.free, ← h.contents_eq, length_contents, ← h.cap_eq, cap]

theorem Represents.write (h : b.Represents q) (p : Bytes) :
    (b.write p).2 = (q.write p).2 ∧ (b.write p).1.Represents (q.write p).1 := by
  have hclosed := h.closed_eq
  rw [BoundedQueue.write]
  split_ifs with hq
  · rw [hq] at hclosed
    rw [write_answer_of_closed hclosed, write_of_closed hclosed]
    exact ⟨rfl, h⟩
  · rw [Bool.eq_false_of_not_eq_true hq] at hclosed
    refine ⟨Prod.ext ?_ ?_, ?_⟩
    · rw [write_count hclosed, h.free_eq]
    · rw [Bool.eq_iff_iff, write_overflow_iff, h.free_eq, decide_eq_true_eq]
      exact and_iff_right hclosed
    · refine ⟨write_wellFormed h.wellFormed p, ?_, ?_, ?_⟩
      · rw [write_cap h.wellFormed, h.cap_eq]
      · rw [write_contents h.wellFormed p hclosed, h.contents_eq, h.free_eq]
      · rw [write_closed, hclosed]

theorem Represents.read (h : b.Represents q) (max : ℤ) :
    (b.read max).2 = (q.read max).2 ∧ (b.read max).1.Represents (q.read max).1 := by
  have hsize : b.size = q.items.length := by rw [← h.contents_eq, length_contents]
  have hrest : (b.read max).1.contents = (q.read max).1.items := by
    rw [read_eq_drop h.wellFormed, h.contents_eq, hsize]
    rfl
  refine ⟨Prod.ext ?_ ?_, ?_⟩
  · rw [read_eq_take h.wellFormed, h.contents_eq, hsize]
    rfl
  · rw [read_eos_eq, hrest, h.closed_eq]
    rfl
  · refine ⟨read_wellFormed h.wellFormed max, ?_, hrest, ?_⟩
    · rw [read_cap, h.cap_eq]
    · rw [read_closed, h.closed_eq]
      rfl

theorem apply_simulates (capacity : ℕ) :
    Simulates apply (BoundedQueue.apply : BoundedQueue UInt8 capacity → _) Represents := by
  intro b q op h
  cases op with
  | write p =>
    obtain ⟨hanswer, hnext⟩ := h.write p
    exact ⟨by simp only [apply, BoundedQueue.apply, hanswer], hnext⟩
  | read max =>
    obtain ⟨hanswer, hnext⟩ := h.read max
    exact ⟨by simp only [apply, BoundedQueue.apply, hanswer], hnext⟩
  | close => exact ⟨rfl, ⟨h.wellFormed.1, h.wellFormed.2, h.wellFormed.3⟩, h.cap_eq,
      h.contents_eq, rfl⟩

/-- A new ring buffer answers every list of operations as the empty queue of that capacity,
holds the queue's bytes between its indices afterwards, and takes no slice out of bounds in what
comes next. -/
theorem refines_boundedQueue (capacity : ℤ) (ops : List (QueueOp UInt8)) :
    let ring := answers apply (new capacity) ops
    let queue := answers BoundedQueue.apply (BoundedQueue.empty UInt8 (max 1 capacity.toNat)) ops
    ring.2 = queue.2 ∧ ring.1.Represents queue.1 ∧ ∀ op, ring.1.SlicesInBounds op := by
  have hnew : (new capacity).Represents (BoundedQueue.empty UInt8 (max 1 capacity.toNat)) :=
    ⟨new_wellFormed capacity, new_cap capacity, contents_eq_nil rfl, rfl⟩
  obtain ⟨hanswers, hlast⟩ := (apply_simulates _).answers ops hnew
  exact ⟨hanswers, hlast, hlast.wellFormed.slicesInBounds⟩

end VlfProto.Relay.RingBuffer
