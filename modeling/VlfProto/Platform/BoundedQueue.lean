import Mathlib.Data.Int.Notation
import Mathlib.Data.List.Basic

/-!
# Bounded queues

A queue of at most `cap` items that can be closed. A write to the open queue appends the
longest part that fits; a read takes items from the front and tells when nothing will come
any more.
-/
namespace VlfProto.Platform

structure BoundedQueue (α : Type*) (cap : ℕ) where
  items : List α
  closed : Bool
  bounded : items.length ≤ cap

inductive QueueOp (α : Type*) where
  | write (p : List α)
  | read (max : ℤ)
  | close

inductive QueueAnswer (α : Type*) where
  | wrote (n : ℕ) (overflow : Bool)
  | got (out : List α) (eos : Bool)
  | done

namespace BoundedQueue

variable {α : Type*} {cap : ℕ}

def empty (α : Type*) (cap : ℕ) : BoundedQueue α cap := ⟨[], false, Nat.zero_le cap⟩

def free (q : BoundedQueue α cap) : ℕ := cap - q.items.length

theorem length_append_take_le (q : BoundedQueue α cap) (p : List α) :
    (q.items ++ p.take q.free).length ≤ cap := by
  have hbounded := q.bounded
  rw [List.length_append, List.length_take, free]
  omega

theorem length_drop_le (q : BoundedQueue α cap) (n : ℕ) : (q.items.drop n).length ≤ cap := by
  have hbounded := q.bounded
  rw [List.length_drop]
  omega

/-- The queue, the number of items appended, and whether some did not fit. -/
def write (q : BoundedQueue α cap) (p : List α) : BoundedQueue α cap × ℕ × Bool :=
  if q.closed then (q, 0, false)
  else
    (⟨q.items ++ p.take q.free, false, q.length_append_take_le p⟩, (p.take q.free).length,
      decide (q.free < p.length))

/-- The queue, the items taken, and whether the closed queue has none left. -/
def read (q : BoundedQueue α cap) (max : ℤ) : BoundedQueue α cap × List α × Bool :=
  let n := min max.toNat q.items.length
  (⟨q.items.drop n, q.closed, q.length_drop_le n⟩, q.items.take n,
    q.closed && (q.items.drop n).isEmpty)

def close (q : BoundedQueue α cap) : BoundedQueue α cap := { q with closed := true }

def apply (q : BoundedQueue α cap) : QueueOp α → BoundedQueue α cap × QueueAnswer α
  | .write p => ((q.write p).1, .wrote (q.write p).2.1 (q.write p).2.2)
  | .read max => ((q.read max).1, .got (q.read max).2.1 (q.read max).2.2)
  | .close => (q.close, .done)

end BoundedQueue
end VlfProto.Platform
