import Mathlib.Tactic

/-!
# A reply channel

A channel of capacity one that carries one answer. Two counters record what has been done to it.
-/
namespace VlfProto.Platform

structure Reply (α : Type*) where
  value : Option α
  sent : ℕ
  closes : ℕ

/-- What becomes of an operation on a channel. -/
inductive Attempt (β : Type*) where
  | done (b : β)
  | blocks
  | panics

namespace Reply

variable {α : Type*} {r : Reply α}

def new : Reply α := ⟨none, 0, 0⟩

def send (r : Reply α) (a : α) : Attempt (Reply α) :=
  if 0 < r.closes then .panics
  else if r.value.isSome then .blocks
  else .done { r with value := some a, sent := r.sent + 1 }

/-- A send in a select with a default. -/
def trySend (r : Reply α) (a : α) : Attempt (Reply α) :=
  if 0 < r.closes then .panics
  else if r.value.isSome then .done r
  else .done { r with value := some a, sent := r.sent + 1 }

def close (r : Reply α) : Attempt (Reply α) :=
  if 0 < r.closes then .panics else .done { r with closes := r.closes + 1 }

/-- What a receive returns, and the channel after it; nothing while it waits. -/
def receive (r : Reply α) : Option (Option α × Reply α) :=
  match r.value with
  | some a => some (some a, { r with value := none })
  | none => if 0 < r.closes then some (none, r) else none

/-- At most one value has been sent and the channel has not been closed. -/
structure Open (r : Reply α) : Prop where
  sent : r.sent ≤ 1
  closes : r.closes = 0

theorem open_new : (new : Reply α).Open := ⟨Nat.zero_le 1, rfl⟩

theorem open_answered (a : α) : (⟨some a, 1, 0⟩ : Reply α).Open := ⟨le_rfl, rfl⟩

theorem Open.close_eq (h : r.Open) : r.close = .done { r with closes := 1 } := by
  rw [close, if_neg (by rw [h.closes]; exact lt_irrefl 0), h.closes]

theorem receive_counts {out : Option α} {r' : Reply α} (h : r.receive = some (out, r')) :
    r'.sent = r.sent ∧ r'.closes = r.closes ∧ ∀ a, r'.value = some a → r.value = some a := by
  rw [receive] at h
  split at h
  · cases h
    exact ⟨rfl, rfl, nofun⟩
  · split_ifs at h
    cases h
    exact ⟨rfl, rfl, fun _ => id⟩

theorem receive_value {a : α} {r' : Reply α} (h : r.receive = some (some a, r')) :
    r.value = some a := by
  rw [receive] at h
  split at h
  case h_1 a' hvalue =>
    cases h
    exact hvalue
  case h_2 =>
    split_ifs at h
    cases h

/-- There is something to receive only after a send or a close. -/
theorem receive_new : (new : Reply α).receive = none := rfl

end Reply
end VlfProto.Platform
