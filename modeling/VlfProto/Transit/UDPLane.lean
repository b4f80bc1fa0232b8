import VlfProto.Platform.Once
import VlfProto.Platform.Table
import VlfProto.Platform.Text
import VlfProto.Transition.Path

/-!
# A transit UDP lane

`Run` reads the datagrams of all clients from one socket. It keeps a session for each client
address in a table that a mutex guards, and starts a goroutine for each session that brings
back what the backend answers. A session is closed by its goroutine, by `Run` after a failed
write, or by `Close`, which takes the whole table first.
-/
namespace VlfProto.Transit
open Platform Transition

inductive CloseReason where
  | shutdown
  | idleTimeout
  | backendReadError
  | clientWriteError
  | backendWriteError
  deriving DecidableEq

inductive LaneGoroutine where
  | run
  | pipe (i : ℕ)
  | closer
  deriving DecidableEq

/-- The actions under the `closeOnce` of a session: `closeSession` deletes the table entry
first, and `Close` goes straight to `finalizeSession`. -/
inductive FinalizeStage where
  | delete (key : String) (reason : CloseReason)
  | closeConn (reason : CloseReason)
  | decActive (reason : CloseReason)
  | incClosed (reason : CloseReason)
  deriving DecidableEq

inductive ReadError where
  | timeout
  | closed
  | failed
  deriving DecidableEq

/-- What a read from the backend returns. -/
inductive PipeRead where
  | data (data : Bytes)
  | error (err : ReadError)

inductive PipePc where
  | notStarted
  | read
  | check (err : ReadError)
  | write (data : Bytes)
  | closing (reason : CloseReason)
  | exiting
  | stopped

inductive LaneRunPc where
  | read
  | lookup (addr : String) (data : Bytes)
  | dial (addr : String) (data : Bytes)
  | incActive (addr : String) (i : ℕ) (data : Bytes)
  | incOpened (addr : String) (i : ℕ) (data : Bytes)
  | spawn (addr : String) (i : ℕ) (data : Bytes)
  | touch (addr : String) (i : ℕ) (data : Bytes)
  | write (addr : String) (i : ℕ) (data : Bytes)
  | closing (addr : String) (i : ℕ)
  | returned

/-- Where `Close` is, with the sessions that it has still to finalise. -/
inductive LaneCloserPc where
  | idle
  | closeConn
  | swap
  | finalize (pending : List ℕ)
  | closing (i : ℕ) (pending : List ℕ)
  | wait
  | returned

/-- A session, with how often `finalizeSession` has been called for it. -/
structure UDPSession where
  clientAddr : String
  lastSeen : ℤ
  backendClosed : Bool
  toBackend : List Bytes
  closeOnce : Once LaneGoroutine FinalizeStage
  finalized : ℕ
  pipe : PipePc

namespace UDPSession

def new (clientAddr : String) (now : ℤ) : UDPSession :=
  ⟨clientAddr, now, false, [], .idle, 0, .notStarted⟩

def idleFor (session : UDPSession) (now : ℤ) : ℤ :=
  if session.lastSeen = 0 then 0 else now - session.lastSeen

end UDPSession

structure UDPLane where
  idleTimeout : ℤ
  cancelled : Bool
  connClosed : Bool
  closed : Bool
  mu : Bool
  table : Table String ℕ
  sessions : ℕ → UDPSession
  created : ℕ
  wg : ℕ
  active : ℤ
  opened : ℕ
  closedBy : CloseReason → ℕ
  toClient : List (String × Bytes)
  run : LaneRunPc
  closer : LaneCloserPc

/-- A step, with what the code does not choose: the datagram that `Run` reads, or none for a
read error; what a read from the backend returns; the outcome of a dial or a write; the clock;
and the session that `Close` takes next. -/
inductive UDPLaneStep where
  | run (packet : Option (String × Bytes)) (ok : Bool) (now : ℤ)
  | pipe (i : ℕ) (result : PipeRead) (ok : Bool) (now : ℤ)
  | close (i : ℕ)
  | cancel

namespace UDPLane

def new (idleTimeout : ℤ) : UDPLane where
  idleTimeout
  cancelled := false
  connClosed := false
  closed := false
  mu := false
  table := ∅
  sessions := fun _ => .new "" 0
  created := 0
  wg := 0
  active := 0
  opened := 0
  closedBy := fun _ => 0
  toClient := []
  run := .read
  closer := .idle

def setSession (s : UDPLane) (i : ℕ) (session : UDPSession) : UDPLane :=
  { s with sessions := Function.update s.sessions i session }

def setPipe (s : UDPLane) (i : ℕ) (pc : PipePc) : UDPLane :=
  s.setSession i { s.sessions i with pipe := pc }

def touch (s : UDPLane) (i : ℕ) (now : ℤ) : UDPLane :=
  s.setSession i { s.sessions i with lastSeen := now }

def finalizeStep (s : UDPLane) (i : ℕ) : FinalizeStage → Option (UDPLane × Option FinalizeStage)
  | .delete key reason =>
    if s.mu then none
    else some ({ s with table := s.table.erase key }, some (.closeConn reason))
  | .closeConn reason => some (s.setSession i { s.sessions i with
      backendClosed := true
      finalized := (s.sessions i).finalized + 1 }, some (.decActive reason))
  | .decActive reason => some ({ s with active := s.active - 1 }, some (.incClosed reason))
  | .incClosed reason =>
    some ({ s with closedBy := Function.update s.closedBy reason (s.closedBy reason + 1) }, none)

/-- A goroutine at the `closeOnce` of session `i`; the flag tells whether it returns. -/
def closeOnceStep (s : UDPLane) (g : LaneGoroutine) (i : ℕ) (first : FinalizeStage) :
    Option (UDPLane × Bool) :=
  ((s.sessions i).closeOnce.act g first (s.finalizeStep i) s).map fun r =>
    (r.1.setSession i { r.1.sessions i with closeOnce := r.2.1 }, r.2.2)

/-- `getOrCreateSession` has dialed the backend. -/
def createSession (s : UDPLane) (addr : String) (now : ℤ) : UDPLane :=
  { s.setSession s.created (.new addr now) with
    table := s.table.insert addr s.created
    created := s.created + 1 }

def runStep (s : UDPLane) (packet : Option (String × Bytes)) (ok : Bool) (now : ℤ) :
    Option UDPLane :=
  match s.run with
  | .read =>
    match packet with
    | none => some { s with
        run := if s.cancelled || s.closed || s.connClosed then .returned else .read }
    | some (addr, data) => if s.connClosed then none else some { s with run := .lookup addr data }
  | .lookup addr data =>
    if s.mu then none
    else
      match s.table.lookup addr with
      | some i => some { s with run := .touch addr i data }
      | none => some { s with mu := true, run := .dial addr data }
  | .dial addr data =>
    if ok then some { s.createSession addr now with run := .incActive addr s.created data }
    else some { s with mu := false, run := .read }
  | .incActive addr i data => some { s with active := s.active + 1, run := .incOpened addr i data }
  | .incOpened addr i data =>
    some { s with opened := s.opened + 1, mu := false, run := .spawn addr i data }
  | .spawn addr i data =>
    some { s.setPipe i .read with wg := s.wg + 1, run := .touch addr i data }
  | .touch addr i data => some { s.touch i now with run := .write addr i data }
  | .write addr i data =>
    if ok then
      if (s.sessions i).backendClosed then none
      else some { s.setSession i { s.sessions i with
          toBackend := (s.sessions i).toBackend ++ [data] } with run := .read }
    else some { s with run := .closing addr i }
  | .closing addr i => (s.closeOnceStep .run i (.delete addr .backendWriteError)).map fun r =>
      if r.2 then { r.1 with run := .read } else r.1
  | .returned => none

def afterReadError (s : UDPLane) (session : UDPSession) (now : ℤ) (err : ReadError) : PipePc :=
  if s.cancelled || s.closed || err = .closed then .closing .shutdown
  else if err = .timeout then
    if s.idleTimeout ≤ session.idleFor now then .closing .idleTimeout else .read
  else .closing .backendReadError

def pipeStep (s : UDPLane) (i : ℕ) (result : PipeRead) (ok : Bool) (now : ℤ) : Option UDPLane :=
  match (s.sessions i).pipe with
  | .read =>
    match result with
    | .data data =>
      if (s.sessions i).backendClosed then none else some ((s.touch i now).setPipe i (.write data))
    | .error err =>
      if (s.sessions i).backendClosed = (err = .closed) then some (s.setPipe i (.check err))
      else none
  | .check err => some (s.setPipe i (s.afterReadError (s.sessions i) now err))
  | .write data =>
    if ok then
      if s.connClosed then none
      else some ({ s with
        toClient := s.toClient ++ [((s.sessions i).clientAddr, data)] }.setPipe i .read)
    else some (s.setPipe i (.closing .clientWriteError))
  | .closing reason =>
    (s.closeOnceStep (.pipe i) i (.delete (s.sessions i).clientAddr reason)).map fun r =>
      if r.2 then r.1.setPipe i .exiting else r.1
  | .exiting => some ({ s with wg := s.wg - 1 }.setPipe i .stopped)
  | .notStarted => none
  | .stopped => none

def tableSessions (s : UDPLane) : List ℕ :=
  (List.range s.created).filter fun i => s.table.lookup (s.sessions i).clientAddr = some i

def closerStep (s : UDPLane) (i : ℕ) : Option UDPLane :=
  match s.closer with
  | .idle => some { s with closed := true, closer := .closeConn }
  | .closeConn => some { s with connClosed := true, closer := .swap }
  | .swap =>
    if s.mu then none else some { s with table := ∅, closer := .finalize s.tableSessions }
  | .finalize [] => some { s with closer := .wait }
  | .finalize pending =>
    if i ∈ pending then some { s with closer := .closing i (pending.erase i) } else none
  | .closing i pending => (s.closeOnceStep .closer i (.closeConn .shutdown)).map fun r =>
      if r.2 then { r.1 with closer := .finalize pending } else r.1
  | .wait => if s.wg = 0 then some { s with closer := .returned } else none
  | .returned => none

def step (s : UDPLane) : UDPLaneStep → Option UDPLane
  | .run packet ok now => s.runStep packet ok now
  | .pipe i result ok now => s.pipeStep i result ok now
  | .close i => s.closerStep i
  | .cancel => some { s with cancelled := true }

end UDPLane
end VlfProto.Transit
