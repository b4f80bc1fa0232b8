import VlfProto.Platform.Text
import VlfProto.Transition.Path

/-!
# One connection of a transit TCP lane

`handleTCPConn` dials the backend, starts one goroutine for each direction that copies until
it fails or the sender has ended its stream, waits for the first of the two, closes both
connections and waits for the other. What a side sends is held until it is read, and what is
written arrives later, in any portions. Both sides keep reading, so a write does not block.
-/
namespace VlfProto.Transit
open Platform Transition Function

inductive Side where
  | client
  | backend
  deriving DecidableEq

def Side.other : Side → Side
  | .client => .backend
  | .backend => .client

inductive CopierPc where
  | notStarted
  | read
  | write (data : Bytes)
  | closeWrite
  | send
  | stopped
  deriving DecidableEq

inductive TCPHandlerPc where
  | dial
  | first
  | closeClient
  | closeBackend
  | second
  | deferBackend
  | deferClient
  | returned
  deriving DecidableEq

/-- The bytes from one side to the other: what it has sent, how much of it the copying goroutine
has read, what that one has written, and how much of it has arrived. -/
structure Flow where
  sent : Bytes
  fin : Bool
  taken : ℕ
  copier : CopierPc
  written : Bytes
  writeClosed : Bool
  received : ℕ
  lost : Bool

namespace Flow

def new : Flow := ⟨[], false, 0, .notStarted, [], false, 0, false⟩

def unread (f : Flow) : Bytes := f.sent.drop f.taken

/-- What has arrived. -/
def delivered (f : Flow) : Bytes := f.written.take f.received

/-- `io.Copy` and `closeWrite`, one read or write at a time. -/
def copyStep (f : Flow) (readable writable : Bool) (n : ℕ) : Option Flow :=
  match f.copier with
  | .read =>
    if !readable then some { f with copier := .closeWrite }
    else if f.unread ≠ [] then
      if n = 0 then none
      else some { f with
        taken := f.taken + (f.unread.take n).length
        copier := .write (f.unread.take n) }
    else if f.fin then some { f with copier := .closeWrite }
    else none
  | .write data =>
    if !writable then some { f with copier := .closeWrite }
    else if n = 0 then none
    else some { f with
      written := f.written ++ data.take n
      copier := if data.drop n = [] then .read else .write (data.drop n) }
  | .closeWrite => some { f with writeClosed := true, copier := .send }
  | _ => none

end Flow

/-- The flow of each side's bytes, the connections that the proxy has closed and those
that a side has reset, and the results in `errCh`. -/
structure TCPConn where
  flows : Side → Flow
  closed : Side → Bool
  reset : Side → Bool
  errCh : ℕ
  handler : TCPHandlerPc

/-- A step, with what the code does not choose: the outcome of the dial, the number of
bytes that a read, a write or the network passes on, and what the two sides do. -/
inductive TCPConnStep where
  | handler (ok : Bool)
  | copier (x : Side) (n : ℕ)
  | send (x : Side) (data : Bytes)
  | fin (x : Side)
  | reset (x : Side)
  | receive (x : Side) (n : ℕ)
  | lose (x : Side)

/-- The steps of the proxy and of the network. -/
def TCPConnStep.internal : TCPConnStep → Bool
  | .handler _ => true
  | .copier _ _ => true
  | .receive _ _ => true
  | .lose _ => true
  | _ => false

namespace TCPConn

def new : TCPConn := ⟨fun _ => .new, fun _ => false, fun _ => false, 0, .dial⟩

def setFlow (s : TCPConn) (x : Side) (f : Flow) : TCPConn :=
  { s with flows := update s.flows x f }

def close (s : TCPConn) (x : Side) : TCPConn :=
  { s with closed := update s.closed x true }

def setCopier (s : TCPConn) (x : Side) (pc : CopierPc) : TCPConn :=
  s.setFlow x { s.flows x with copier := pc }

/-- The proxy can use its connection to side `x`. -/
def usable (s : TCPConn) (x : Side) : Bool := !s.closed x && !s.reset x

/-- The connection to side `x` is torn down without regard to the bytes on their way
there: the side has reset it, or the proxy has closed it before it has read all. -/
def aborted (s : TCPConn) (x : Side) : Bool :=
  s.reset x || s.closed x && (s.flows x).unread ≠ []

def startCopiers (s : TCPConn) : TCPConn :=
  { s with flows := fun x => { s.flows x with copier := .read }, handler := .first }

def handlerStep (s : TCPConn) (ok : Bool) : Option TCPConn :=
  match s.handler with
  | .dial => some (if ok then s.startCopiers else { s with handler := .deferClient })
  | .first =>
    if s.errCh = 0 then none else some { s with errCh := s.errCh - 1, handler := .closeClient }
  | .closeClient => some { s.close .client with handler := .closeBackend }
  | .closeBackend => some { s.close .backend with handler := .second }
  | .second =>
    if s.errCh = 0 then none else some { s with errCh := s.errCh - 1, handler := .deferBackend }
  | .deferBackend => some { s.close .backend with handler := .deferClient }
  | .deferClient => some { s.close .client with handler := .returned }
  | .returned => none

def copierStep (s : TCPConn) (x : Side) (n : ℕ) : Option TCPConn :=
  if (s.flows x).copier = .send then some { s.setCopier x .stopped with errCh := s.errCh + 1 }
  else ((s.flows x).copyStep (s.usable x) (s.usable x.other) n).map (s.setFlow x)

/-- Side `x` is there and has not ended its stream. The backend is there once it has
been dialed. -/
def maySend (s : TCPConn) (x : Side) : Bool :=
  !(s.flows x).fin && !s.reset x && (x = .client || (s.flows x).copier ≠ .notStarted)

def step (s : TCPConn) : TCPConnStep → Option TCPConn
  | .handler ok => s.handlerStep ok
  | .copier x n => s.copierStep x n
  | .send x data =>
    if s.maySend x then some (s.setFlow x { s.flows x with sent := (s.flows x).sent ++ data })
    else none
  | .fin x => if s.maySend x then some (s.setFlow x { s.flows x with fin := true }) else none
  | .reset x => some { s with reset := update s.reset x true }
  | .receive x n =>
    if (s.flows x).lost ∨ n = 0 ∨ (s.flows x).received = (s.flows x).written.length then none
    else some (s.setFlow x { s.flows x with
      received := min ((s.flows x).received + n) (s.flows x).written.length })
  | .lose x =>
    if (s.flows x).lost = false ∧ s.aborted x.other then
      some (s.setFlow x { s.flows x with lost := true })
    else none

/-- The backend accepts the connection and neither side resets its one. -/
def Unbroken (_ : TCPConn) : TCPConnStep → Prop
  | .handler ok => ok
  | .reset _ => False
  | _ => True

instance (s : TCPConn) (label : TCPConnStep) : Decidable (s.Unbroken label) := by
  unfold Unbroken
  split <;> infer_instance

/-- A step of the proxy or of the network. -/
def Internal (s : TCPConn) (label : TCPConnStep) : Prop := label.internal ∧ s.Unbroken label

/-- Nothing happens any more unless one of the sides acts. -/
def Quiescent (s : TCPConn) : Prop := ∀ label, s.Internal label → s.step label = none

/-- The connection is not broken, and a side ends its stream only after it has received all
that the other one has sent, which sends no more after that. -/
def Courteous (s : TCPConn) : TCPConnStep → Prop
  | .send x _ => (s.flows x.other).fin = false
  | .fin x => (s.flows x.other).received = (s.flows x.other).sent.length
  | label => s.Unbroken label

instance (s : TCPConn) (label : TCPConnStep) : Decidable (s.Courteous label) := by
  unfold Courteous
  split <;> infer_instance

end TCPConn

/-! ### The copying goroutines of a transit connection -/

open List

/-- The bytes that a copying goroutine has read and not written. -/
def CopierPc.hand : CopierPc → Bytes
  | .write data => data
  | _ => []

/-- The goroutine reads and writes no more. -/
def CopierPc.past : CopierPc → Bool
  | .closeWrite => true
  | .send => true
  | .stopped => true
  | _ => false

def CopierPc.rank : CopierPc → ℕ
  | .notStarted => 3
  | .read => 3
  | .write data => 4 + 2 * data.length
  | .closeWrite => 2
  | .send => 1
  | .stopped => 0

namespace Flow

variable {f f' : Flow} {readable writable : Bool} {n : ℕ}

inductive CopyCase (f : Flow) (readable writable : Bool) : Flow → Prop
  | readFails (hpc : f.copier = .read) (hclosed : readable = false) :
      CopyCase f readable writable { f with copier := .closeWrite }
  | read {data : Bytes} (hpc : f.copier = .read) (hdata : data <+: f.unread) (hne : data ≠ []) :
      CopyCase f readable writable
        { f with taken := f.taken + data.length, copier := .write data }
  | eof (hpc : f.copier = .read) (hunread : f.unread = []) (hfin : f.fin = true) :
      CopyCase f readable writable { f with copier := .closeWrite }
  | writeFails {data : Bytes} (hpc : f.copier = .write data) (hclosed : writable = false) :
      CopyCase f readable writable { f with copier := .closeWrite }
  | write {data rest : Bytes} (hpc : f.copier = .write (data ++ rest)) (hne : rest ≠ [])
      (hdata : data ≠ []) :
      CopyCase f readable writable
        { f with written := f.written ++ data, copier := .write rest }
  | writeAll {data : Bytes} (hpc : f.copier = .write data) :
      CopyCase f readable writable { f with written := f.written ++ data, copier := .read }
  | closeWrite (hpc : f.copier = .closeWrite) :
      CopyCase f readable writable { f with writeClosed := true, copier := .send }

theorem copyStep_cases (h : f.copyStep readable writable n = some f') :
    f.CopyCase readable writable f' := by
  cases hpc : f.copier <;> simp only [copyStep, hpc, Option.some.injEq, reduceCtorEq] at h
  case read =>
    split_ifs at h with hclosed hunread hn hfin
    · cases h
      exact .readFails hpc (by simpa using hclosed)
    · cases h
      exact .read hpc ( take_prefix _ _) (by simp [take_eq_nil_iff, hn, hunread])
    · cases h
      exact .eof hpc (by simpa using hunread) hfin
  case write data =>
    split_ifs at h with hclosed hn hrest
    · cases h
      exact .writeFails hpc (by simpa using hclosed)
    · cases h
      have hall : data.take n = data := by
        simpa [hrest] using take_append_drop n data
      rw [hall]
      exact .writeAll hpc
    · cases h
      refine .write (by rw [take_append_drop]; exact hpc) hrest fun hnil => ?_
      rcases take_eq_nil_iff.mp hnil with h0 | h0
      · exact hn h0
      · simp [h0] at hrest
  case closeWrite => exact h ▸ .closeWrite hpc

/-- Nothing of what was sent is lost so far. -/
structure Whole (f : Flow) : Prop where
  relayed : f.written ++ f.copier.hand = f.sent.take f.taken
  taken_le : f.taken ≤ f.sent.length
  received_le : f.received ≤ f.written.length
  kept : f.lost = false

/-- All that was sent has been written. -/
def Through (f : Flow) : Prop := f.taken = f.sent.length ∧ f.copier.hand = []

theorem Through.unread (h : f.Through) : f.unread = [] :=
  drop_eq_nil_of_le h.1.ge

theorem Whole.through_of_unread (hf : f.Whole) (hunread : f.unread = [])
    (hhand : f.copier.hand = []) : f.Through :=
  ⟨hf.taken_le.antisymm (drop_eq_nil_iff.mp hunread), hhand⟩

theorem Whole.written_eq (hf : f.Whole) (hthrough : f.Through) : f.written = f.sent := by
  have hrelayed := hf.relayed
  rwa [hthrough.1, hthrough.2, append_nil, take_length] at hrelayed

theorem Whole.written_add_hand (hf : f.Whole) :
    f.written.length + f.copier.hand.length = f.taken := by
  rw [← length_append, hf.relayed, length_take, min_eq_left hf.taken_le]

theorem Whole.through_of_received (hf : f.Whole) (hreceived : f.received = f.sent.length) :
    f.Through := by
  have hlen := hf.written_add_hand
  have htaken := hf.taken_le
  have hle := hf.received_le
  exact ⟨by omega, eq_nil_of_length_eq_zero (by omega)⟩

theorem CopyCase.through (h : f.CopyCase readable writable f') (hthrough : f.Through) :
    f'.Through := by
  cases h with
  | readFails | eof | writeFails | closeWrite | writeAll => exact ⟨hthrough.1, rfl⟩
  | read hpc hdata hne =>
    rw [hthrough.unread, prefix_nil] at hdata
    exact absurd hdata hne
  | write hpc hne =>
    obtain ⟨-, hhand⟩ := hthrough
    rw [hpc] at hhand
    exact absurd (append_eq_nil_iff.mp hhand).2 hne

theorem CopyCase.whole (h : f.CopyCase readable writable f') (hf : f.Whole)
    (hclosing : readable = false ∨ writable = false → f.Through) : f'.Whole := by
  cases h with
  | readFails hpc | eof hpc | closeWrite hpc =>
    have hrelayed := hf.relayed
    rw [hpc] at hrelayed
    exact { hf with relayed := hrelayed }
  | writeFails hpc hclosed =>
    have hhand := (hclosing (.inr hclosed)).2
    have hrelayed := hf.relayed
    rw [hhand] at hrelayed
    exact { hf with relayed := hrelayed }
  | @read data hpc hdata hne =>
    have hrelayed := hf.relayed
    have hle := hf.taken_le
    have hlen := hdata.length_le
    obtain ⟨rest, hrest⟩ := hdata
    rw [hpc] at hrelayed
    simp only [CopierPc.hand, append_nil] at hrelayed
    simp only [unread, length_drop] at hlen
    refine { hf with relayed := ?_, taken_le := ?_ }
    · change f.written ++ data = f.sent.take (f.taken + data.length)
      rw [take_add, hrelayed]
      change _ = _ ++ f.unread.take data.length
      rw [← hrest, take_left]
    · change f.taken + data.length ≤ f.sent.length
      omega
  | @write data rest hpc hne hdata | @writeAll data hpc =>
    have hrelayed := hf.relayed
    rw [hpc] at hrelayed
    refine { hf with relayed := ?_, received_le := ?_ }
    · simpa [CopierPc.hand] using hrelayed
    · exact hf.received_le.trans (by simp)

/-- The goroutine stops when all has been written and the sender has ended its stream,
unless a connection was closed. -/
theorem CopyCase.through_of_past (h : f.CopyCase readable writable f') (hf : f.Whole)
    (hpast : f'.copier.past) :
    f.copier.past ∨ (readable = false ∨ writable = false) ∨ f.Through ∧ f.fin := by
  cases h with
  | readFails _ hclosed => exact .inr (.inl (.inl hclosed))
  | writeFails _ hclosed => exact .inr (.inl (.inr hclosed))
  | eof hpc hunread hfin =>
    exact .inr (.inr ⟨hf.through_of_unread hunread (by rw [hpc]; rfl), hfin⟩)
  | read | write | writeAll => cases hpast
  | closeWrite hpc => exact .inl (by rw [hpc]; rfl)

theorem CopyCase.frame (h : f.CopyCase readable writable f') :
    f'.sent = f.sent ∧ f'.fin = f.fin ∧ f'.received = f.received ∧ f'.lost = f.lost ∧
      f.copier ≠ .notStarted ∧ f'.copier ≠ .notStarted := by
  cases h with
  | readFails hpc | read hpc | eof hpc | writeFails hpc | write hpc | writeAll hpc
  | closeWrite hpc => simp [hpc]

def rank (f : Flow) : ℕ :=
  4 * (f.sent.length - f.taken) + f.copier.rank + (f.written.length - f.received) +
    (!f.lost).toNat

theorem CopyCase.rank_lt (h : f.CopyCase readable writable f') : f'.rank < f.rank := by
  cases h with
  | readFails hpc | eof hpc | closeWrite hpc => simp [rank, hpc, CopierPc.rank]
  | writeFails hpc =>
    simp only [rank, hpc, CopierPc.rank]
    omega
  | @read data hpc hdata hne =>
    have hpos := length_pos_iff.mpr hne
    have hlen := hdata.length_le
    simp only [unread, length_drop] at hlen
    simp only [rank, hpc, CopierPc.rank]
    omega
  | @write data rest hpc hne hdata =>
    have hpos := length_pos_iff.mpr hdata
    simp only [rank, hpc, CopierPc.rank, length_append]
    omega
  | writeAll hpc =>
    simp only [rank, hpc, CopierPc.rank, length_append]
    omega

end Flow
end VlfProto.Transit
