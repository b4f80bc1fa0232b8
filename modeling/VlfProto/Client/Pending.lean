import VlfProto.Platform.Reply
import VlfProto.Platform.Table
import VlfProto.Platform.Text
import VlfProto.Transition.Path

/-!
# Pending requests of the TCP-session client

Any number of `openTCPFlow`, `openUDPFlow` and `probeRTT` calls file a reply channel under
their key, write a request and wait. `readLoop` takes the channel of an answered key out of
the table and then sends and closes; a call that gives up takes its channel out and closes
it; `closeWithError` empties the table under the lock. The three tables of the source are one
here, over keys that say which table they belong to.
-/
namespace VlfProto.Client
open Platform Transition Function

/-- What a request waits for. -/
inductive Kind where
  | tcp
  | udp
  | ping
  deriving DecidableEq

/-- A key of one of the tables `pendingTCP`, `pendingUDP` and `pendingPing`. -/
inductive PendingKey where
  | tcp (flowID : ℕ)
  | udp (flowID : ℕ)
  | ping (token : Bytes)
  deriving DecidableEq

def PendingKey.kind : PendingKey → Kind
  | .tcp _ => .tcp
  | .udp _ => .udp
  | .ping _ => .ping

/-- What a call returns. -/
inductive CallResult where
  | flow
  | rtt
  | failure
  deriving DecidableEq

/-- Where a call is. In `closing` it is about to close the channel that it has taken out
of the table. -/
inductive CallPc where
  | idle
  | writing
  | waiting
  | unregister
  | closing (chan : ℕ)
  | returned (result : CallResult)
  deriving DecidableEq

def CallPc.live : CallPc → Bool
  | .idle | .returned _ => false
  | _ => true

structure Call where
  key : PendingKey
  pc : CallPc
  deriving DecidableEq

/-- Where `readLoop` is. The answer `ok` is an OK or a PONG, otherwise a FAIL. -/
inductive ReaderPc where
  | reading
  | resolve (key : PendingKey) (ok : Bool)
  | send (key : PendingKey) (chan : ℕ) (ok : Bool)
  | close (chan : ℕ)
  | stopped
  deriving DecidableEq

/-- Where `closeWithError` is. It holds the lock from the first `sweep` on. -/
inductive CloserPc where
  | idle
  | cancelled
  | sweep (kind : Kind)
  | sweepClose (key : PendingKey) (chan : ℕ)
  | done
  deriving DecidableEq

/-- The lock over the pending tables is taken. -/
def CloserPc.locked : CloserPc → Bool
  | .sweep _ | .sweepClose _ _ => true
  | _ => false

/-- Call `k` has the reply channel `k`. The field `read` records the answers that
`readLoop` has read. -/
structure PendingState where
  created : ℕ
  calls : ℕ → Call
  chans : ℕ → Reply Bool
  pending : Table PendingKey ℕ
  reader : ReaderPc
  closer : CloserPc
  read : List (PendingKey × Bool)
  panicked : Bool

inductive PendingStep where
  | call (key : PendingKey)
  | write (call : ℕ) (ok : Bool)
  | receive (call : ℕ)
  | timeout (call : ℕ)
  | unregister (call : ℕ)
  | closeReply (call : ℕ)
  | read (key : PendingKey) (ok : Bool)
  | reader
  | readError
  | closeStart
  | closeLock
  | sweepSend (key : PendingKey)
  | sweepClose
  | sweepNext

/-- How `openTCPFlow`, `openUDPFlow` and `probeRTT` end when they receive from their
channel; a UDP flow is refused even after an OK. -/
def PendingKey.result (key : PendingKey) : Option Bool → CallResult
  | some true =>
    match key with
    | .tcp _ => .flow
    | .udp _ => .failure
    | .ping _ => .rtt
  | _ => .failure

/-- A ping is answered in a select with a default, an open with a plain send. -/
def PendingKey.offer (key : PendingKey) (r : Reply Bool) (ok : Bool) : Attempt (Reply Bool) :=
  match key with
  | .ping _ => r.trySend ok
  | _ => r.send ok

namespace PendingState

def initial : PendingState where
  created := 0
  calls := fun _ => ⟨.tcp 0, .idle⟩
  chans := fun _ => .new
  pending := ∅
  reader := .reading
  closer := .idle
  read := []
  panicked := false

def setPc (s : PendingState) (k : ℕ) (pc : CallPc) : PendingState :=
  { s with calls := update s.calls k { s.calls k with pc } }

def setChan (s : PendingState) (c : ℕ) (r : Reply Bool) : PendingState :=
  { s with chans := update s.chans c r }

/-- Go on with the channel after an operation on it; a panic ends the process. -/
def attempt (s : PendingState) (c : ℕ) (op : Attempt (Reply Bool))
    (next : PendingState → PendingState) : Option PendingState :=
  match op with
  | .done r => some (next (s.setChan c r))
  | .blocks => none
  | .panics => some { s with panicked := true }

/-- A call makes its channel and files it. -/
def call (s : PendingState) (key : PendingKey) : Option PendingState :=
  if s.closer.locked then none
  else if ∀ k < s.created, (s.calls k).pc.live → (s.calls k).key ≠ key then
    some { s with
      created := s.created + 1
      calls := update s.calls s.created ⟨key, .writing⟩
      pending := s.pending.insert key s.created }
  else none

def write (s : PendingState) (k : ℕ) (ok : Bool) : Option PendingState :=
  if (s.calls k).pc = .writing then some (s.setPc k (if ok then .waiting else .unregister))
  else none

def receive (s : PendingState) (k : ℕ) : Option PendingState :=
  if (s.calls k).pc = .waiting then
    (s.chans k).receive.map fun out =>
      (s.setChan k out.2).setPc k (.returned ((s.calls k).key.result out.1))
  else none

def timeout (s : PendingState) (k : ℕ) : Option PendingState :=
  if (s.calls k).pc = .waiting then some (s.setPc k .unregister) else none

/-- Take whatever is filed under the key out of the table. -/
def unregister (s : PendingState) (k : ℕ) : Option PendingState :=
  if s.closer.locked then none
  else if (s.calls k).pc = .unregister then
    let key := (s.calls k).key
    let s' := { s with pending := s.pending.erase key }
    match s.pending.lookup key with
    | some c => some (s'.setPc k (.closing c))
    | none => some (s'.setPc k (.returned .failure))
  else none

def closeReply (s : PendingState) (k : ℕ) : Option PendingState :=
  match (s.calls k).pc with
  | .closing c => s.attempt c (s.chans c).close fun s => s.setPc k (.returned .failure)
  | _ => none

/-- A frame that answers a request; there is no negative answer to a ping. -/
def readAnswer (s : PendingState) (key : PendingKey) (ok : Bool) : Option PendingState :=
  if s.reader = .reading ∧ (key.kind = .ping → ok) then
    some { s with reader := .resolve key ok, read := s.read ++ [(key, ok)] }
  else none

def readerStep (s : PendingState) : Option PendingState :=
  match s.reader with
  | .resolve key ok =>
    if s.closer.locked then none
    else
      let s' := { s with pending := s.pending.erase key }
      match s.pending.lookup key with
      | some c => some { s' with reader := .send key c ok }
      | none => some { s' with reader := .reading }
  | .send key c ok => s.attempt c (key.offer (s.chans c) ok) fun s => { s with reader := .close c }
  | .close c => s.attempt c (s.chans c).close fun s => { s with reader := .reading }
  | _ => none

def readError (s : PendingState) : Option PendingState :=
  if s.reader = .reading then some { s with reader := .stopped } else none

def closeStart (s : PendingState) : Option PendingState :=
  if s.closer = .idle then some { s with closer := .cancelled } else none

def closeLock (s : PendingState) : Option PendingState :=
  if s.closer = .cancelled then some { s with closer := .sweep .tcp } else none

/-- The loop over one table comes to an entry. -/
def sweepSend (s : PendingState) (key : PendingKey) : Option PendingState :=
  if s.closer = .sweep key.kind then
    match s.pending.lookup key with
    | some c =>
      s.attempt c (key.offer (s.chans c) false) fun s => { s with closer := .sweepClose key c }
    | none => none
  else none

def sweepClose (s : PendingState) : Option PendingState :=
  match s.closer with
  | .sweepClose key c =>
    s.attempt c (s.chans c).close fun s =>
      { s with pending := s.pending.erase key, closer := .sweep key.kind }
  | _ => none

/-- The loop over one table is over, and the next one begins. -/
def sweepNext (s : PendingState) : Option PendingState :=
  match s.closer with
  | .sweep kind =>
    if ∀ key ∈ s.pending.keys, key.kind ≠ kind then
      some { s with closer :=
        match kind with
        | .tcp => .sweep .udp
        | .udp => .sweep .ping
        | .ping => .done }
    else none
  | _ => none

def step (s : PendingState) (a : PendingStep) : Option PendingState :=
  if s.panicked then none
  else
    match a with
    | .call key => s.call key
    | .write k ok => s.write k ok
    | .receive k => s.receive k
    | .timeout k => s.timeout k
    | .unregister k => s.unregister k
    | .closeReply k => s.closeReply k
    | .read key ok => s.readAnswer key ok
    | .reader => s.readerStep
    | .readError => s.readError
    | .closeStart => s.closeStart
    | .closeLock => s.closeLock
    | .sweepSend key => s.sweepSend key
    | .sweepClose => s.sweepClose
    | .sweepNext => s.sweepNext

end PendingState
end VlfProto.Client
