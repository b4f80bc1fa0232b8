import VlfProto.Platform.Once
import VlfProto.Relay.RingBuffer
import VlfProto.Transition.Path

/-!
# One relay connection as a step system

`readLoop` and `writeLoop` run beside any number of `Send`, `Recv` and `Close` requests and
the expiry callbacks of the wheel, which call `Close` too. Every atomic load, store, channel
operation and call of the target is a step. The loops are counted in the wait group that the
body of `Close` waits on.
-/
namespace VlfProto.Relay
open Platform Transition

inductive Goroutine where
  | reader
  | writer
  | caller (i : ℕ)
  deriving DecidableEq

/-- The next action of the body of `Close`. -/
inductive CloseStage where
  | storeClosed
  | storeEOS
  | cancel
  | closeTarget
  | closeDownstream
  | closeQueue
  | wait
  | onClosed
  deriving DecidableEq

/-- The next action of `MarkEOS`. -/
inductive EOSStage where
  | swap
  | closeDownstream
  | closeTarget
  | cancel
  deriving DecidableEq

inductive TargetError where
  | eof
  | timeout
  | other
  deriving DecidableEq

inductive ReaderPc where
  | notStarted
  | check
  | read
  | write (data : Bytes) (err : Option TargetError)
  | closing
  | markEOS (stage : EOSStage)
  | exiting
  | stopped
  deriving DecidableEq

inductive WriterPc where
  | notStarted
  | select
  | subtract (chunk : Bytes)
  | checkClosed (chunk : Bytes)
  | checkEOS (chunk : Bytes)
  | deadline (chunk : Bytes)
  | write (chunk : Bytes)
  | markEOS (stage : EOSStage)
  | exiting
  | stopped
  deriving DecidableEq

/-- What a call of the manager returns; `crashed` is a panic in its handler. -/
inductive CallResult where
  | sent (accepted : ℕ) (queued : ℤ)
  | received (data : Bytes) (eos : Bool)
  | closed (ok : Bool)
  | unknownConn
  | connClosed
  | limited
  | crashed
  deriving DecidableEq

/-- Where a call of the manager is. In the loop of `Enqueue` the offset is also
the number of bytes accepted so far. -/
inductive CallPc where
  | idle
  | sendLookup (data : Bytes)
  | sendLimit (data : Bytes)
  | enqueueClosed (data : Bytes)
  | enqueueEOS (data : Bytes)
  | loopClosed (data : Bytes) (offset : ℕ)
  | loopEOS (data : Bytes) (offset : ℕ)
  | loopWindow (data : Bytes) (offset : ℕ)
  | loopSend (data : Bytes) (offset : ℕ)
  | loopAdd (data : Bytes) (offset : ℕ)
  | enqueueQueued (accepted : ℕ)
  | recvLookup (max : ℤ)
  | recvClosed (max : ℤ)
  | recvRead (max : ℤ)
  | closeLookup (missing found : CallResult)
  | closing (found : CallResult)
  | finished (result : CallResult)
  deriving DecidableEq

/-- A request to the manager. `close` also stands for the expiry callback. -/
inductive Request where
  | send (data : Bytes)
  | recv (max : ℤ)
  | close

structure Conn where
  recvWindow : ℤ
  sendWindow : ℤ
  downstream : RingBuffer
  upstreamQueue : List Bytes
  queueClosed : Bool
  upstreamBytes : ℤ
  eos : Bool
  closed : Bool
  cancelled : Bool
  targetClosed : Bool
  once : Once Goroutine CloseStage
  wg : ℕ
  registered : Bool
  reader : ReaderPc
  writer : WriterPc
  callers : ℕ → CallPc
  enqueued : Bytes
  written : Bytes

/-- A step, with the choices the code does not make: what `target.Read`
returns; the branch of the select in `writeLoop` or the outcome of a target
operation there; the answer of the byte limiter. -/
inductive ConnStep where
  | start
  | reader (data : Bytes) (err : Option TargetError)
  | writer (ok : Bool) (n : ℕ)
  | call (i : ℕ) (request : Request)
  | caller (i : ℕ) (ok : Bool)
  | collect (i : ℕ)

namespace Conn

def queueCap : ℕ := 256
def chunkSize : ℕ := 4096
def readBufSize : ℕ := 32 * 1024

/-- A connection entered into the table whose loops have not been started. -/
def new (recvWindow sendWindow : ℤ) : Conn where
  recvWindow
  sendWindow := if sendWindow < 1 then 1 else sendWindow
  downstream := .new (if recvWindow < 1 then 1 else recvWindow)
  upstreamQueue := []
  queueClosed := false
  upstreamBytes := 0
  eos := false
  closed := false
  cancelled := false
  targetClosed := false
  once := .idle
  wg := 0
  registered := true
  reader := .notStarted
  writer := .notStarted
  callers := fun _ => .idle
  enqueued := []
  written := []

def setCaller (c : Conn) (i : ℕ) (pc : CallPc) : Conn :=
  { c with callers := Function.update c.callers i pc }

/-- One action of the body of `Close`, and the next one; `none` while it has to
wait. -/
def bodyStep (c : Conn) : CloseStage → Option (Conn × Option CloseStage)
  | .storeClosed => some ({ c with closed := true }, some .storeEOS)
  | .storeEOS => some ({ c with eos := true }, some .cancel)
  | .cancel => some ({ c with cancelled := true }, some .closeTarget)
  | .closeTarget => some ({ c with targetClosed := true }, some .closeDownstream)
  | .closeDownstream => some ({ c with downstream := c.downstream.close }, some .closeQueue)
  | .closeQueue => some ({ c with queueClosed := true }, some .wait)
  | .wait => if c.wg = 0 then some (c, some .onClosed) else none
  | .onClosed => some ({ c with registered := false }, none)

/-- A goroutine in `Close`; the flag tells whether it returns. -/
def closeStep (c : Conn) (g : Goroutine) : Option (Conn × Bool) :=
  (c.once.act g .storeClosed c.bodyStep c).map fun r => ({ r.1 with once := r.2.1 }, r.2.2)

/-- One action of `MarkEOS`, and the next one if it goes on. -/
def markEOSStep (c : Conn) : EOSStage → Conn × Option EOSStage
  | .swap => ({ c with eos := true }, if c.eos then none else some .closeDownstream)
  | .closeDownstream => ({ c with downstream := c.downstream.close }, some .closeTarget)
  | .closeTarget => ({ c with targetClosed := true }, some .cancel)
  | .cancel => ({ c with cancelled := true }, none)

def start (c : Conn) : Option Conn :=
  if c.reader = .notStarted then
    some { c with wg := c.wg + 2, reader := .check, writer := .select }
  else none

/-- What `readLoop` does about the error of a read. -/
def afterRead : Option TargetError → ReaderPc
  | none => .check
  | some .timeout => .check
  | some _ => .markEOS .swap

def readerStep (c : Conn) (data : Bytes) (err : Option TargetError) : Option Conn :=
  match c.reader with
  | .check => some { c with reader := if c.closed then .exiting else .read }
  | .read =>
    if data.length ≤ readBufSize ∧ (c.targetClosed → data = [] ∧ err = some .other) then
      some { c with reader := if data = [] then afterRead err else .write data err }
    else none
  | .write data err =>
    let (downstream, _, overflow) := c.downstream.write data
    some { c with downstream, reader := if overflow then .closing else afterRead err }
  | .closing => (c.closeStep .reader).map fun r =>
    if r.2 then { r.1 with reader := .exiting } else r.1
  | .markEOS stage =>
    let (c, next) := c.markEOSStep stage
    some { c with reader := (next.map ReaderPc.markEOS).getD .exiting }
  | .exiting => some { c with wg := c.wg - 1, reader := .stopped }
  | .notStarted => none
  | .stopped => none

def writerStep (c : Conn) (ok : Bool) (n : ℕ) : Option Conn :=
  match c.writer with
  | .select =>
    if ok then
      match c.upstreamQueue with
      | [] => if c.queueClosed then some { c with writer := .exiting } else none
      | chunk :: upstreamQueue => some { c with upstreamQueue, writer := .subtract chunk }
    else if c.cancelled then some { c with writer := .exiting }
    else none
  | .subtract chunk => some { c with
      upstreamBytes := c.upstreamBytes - chunk.length
      writer := if chunk = [] then .select else .checkClosed chunk }
  | .checkClosed chunk => some { c with writer := if c.closed then .exiting else .checkEOS chunk }
  | .checkEOS chunk => some { c with writer := if c.eos then .exiting else .deadline chunk }
  | .deadline chunk =>
    if ok ∧ c.targetClosed then none
    else some { c with writer := if ok then .write chunk else .markEOS .swap }
  | .write chunk =>
    if ok ∧ c.targetClosed then none
    else some { c with
      written := c.written ++ if ok then chunk else chunk.take n
      writer := if ok then .select else .markEOS .swap }
  | .markEOS stage =>
    let (c, next) := c.markEOSStep stage
    some { c with writer := (next.map WriterPc.markEOS).getD .exiting }
  | .exiting => some { c with wg := c.wg - 1, writer := .stopped }
  | .notStarted => none
  | .stopped => none

/-- The part of the payload that the loop of `Enqueue` offers next. -/
def part (data : Bytes) (offset : ℕ) : Bytes := (data.drop offset).take chunkSize

/-- The head of the loop: it goes on while there is something left. -/
def loopHead (data : Bytes) (offset : ℕ) : CallPc :=
  if offset < data.length then .loopClosed data offset else .enqueueQueued offset

def firstPc : Request → CallPc
  | .send data => .sendLookup data
  | .recv max => .recvLookup max
  | .close => .closeLookup (.closed false) (.closed true)

/-- `Recv` reads the default amount when asked for none and never more than the
receive window. -/
def recvMax (c : Conn) (max : ℤ) : ℤ :=
  let max := if max ≤ 0 then 32768 else max
  if c.recvWindow < max then c.recvWindow else max

def sendLoopStep (c : Conn) (i : ℕ) (data : Bytes) (offset : ℕ) : Conn :=
  if c.queueClosed then c.setCaller i (.finished .crashed)
  else if c.upstreamQueue.length < queueCap then
    { c with
      upstreamQueue := c.upstreamQueue ++ [part data offset]
      enqueued := c.enqueued ++ part data offset }.setCaller i (.loopAdd data offset)
  else c.setCaller i (.enqueueQueued offset)

def callerStep (c : Conn) (i : ℕ) (ok : Bool) : Option Conn :=
  match c.callers i with
  | .idle => none
  | .sendLookup data =>
    some (c.setCaller i (if c.registered then .sendLimit data else .finished .unknownConn))
  | .sendLimit data =>
    some (c.setCaller i (if ¬ok then .finished .limited
      else if data = [] then .enqueueQueued 0 else .enqueueClosed data))
  | .enqueueClosed data =>
    some (c.setCaller i (if c.closed then .finished .connClosed else .enqueueEOS data))
  | .enqueueEOS data =>
    some (c.setCaller i (if c.eos then .finished .connClosed else loopHead data 0))
  | .loopClosed data offset =>
    some (c.setCaller i (if c.closed then .enqueueQueued offset else .loopEOS data offset))
  | .loopEOS data offset =>
    some (c.setCaller i (if c.eos then .enqueueQueued offset else .loopWindow data offset))
  | .loopWindow data offset =>
    some (c.setCaller i (if c.sendWindow < c.upstreamBytes + (part data offset).length
      then .enqueueQueued offset else .loopSend data offset))
  | .loopSend data offset => some (c.sendLoopStep i data offset)
  | .loopAdd data offset =>
    some ({ c with upstreamBytes := c.upstreamBytes + (part data offset).length }.setCaller i
      (loopHead data (offset + (part data offset).length)))
  | .enqueueQueued accepted => some (c.setCaller i (.finished (.sent accepted c.upstreamBytes)))
  | .recvLookup max =>
    some (c.setCaller i (if c.registered then .recvClosed (c.recvMax max)
      else .finished .unknownConn))
  | .recvClosed max =>
    some (c.setCaller i (if c.closed then .finished .connClosed else .recvRead max))
  | .recvRead max =>
    let (downstream, data, eos) := c.downstream.read max
    some ({ c with downstream }.setCaller i
      (if eos ∧ data = [] then .closeLookup (.received [] true) (.received [] true)
        else .finished (.received data eos)))
  | .closeLookup missing found =>
    some (c.setCaller i (if c.registered then .closing found else .finished missing))
  | .closing found => (c.closeStep (.caller i)).map fun r =>
    if r.2 then r.1.setCaller i (.finished found) else r.1
  | .finished _ => none

/-- Hand the result of a finished call to whoever made it. -/
def collect (c : Conn) (i : ℕ) : Option Conn :=
  match c.callers i with
  | .finished _ => some (c.setCaller i .idle)
  | _ => none

def step (c : Conn) : ConnStep → Option Conn
  | .start => c.start
  | .reader data err => c.readerStep data err
  | .writer ok n => c.writerStep ok n
  | .call i request =>
    if c.callers i = .idle then some (c.setCaller i (firstPc request)) else none
  | .caller i ok => c.callerStep i ok
  | .collect i => c.collect i

end Conn
end VlfProto.Relay
