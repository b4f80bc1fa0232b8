import VlfProto.Limits.Manager
import VlfProto.Session.Datagram
import VlfProto.Session.Opening
import VlfProto.Session.TCPSession

/-!
# The state of a QUIC session

A QUIC session serves its control stream, one stream for every TCP flow and the datagrams of
its UDP flows. `Run` authenticates the client and starts the loops. An accepted stream has a
handler that looks its flow up, attaches the stream to it and copies in both directions; a
UDP flow has a loop that reads from its target. Flow objects and streams are known by the
number of their creation, so that an id can be used by several objects in turn.
-/
namespace VlfProto.Session
open Platform Transition Function

/-- What the session writes to its control stream. -/
inductive SessionFrame where
  | authOK
  | authFail (reason : String)
  | ping
  | pong (payload : Bytes)
  | openOK (kind : FlowKind) (flowID : ℕ)
  | openFail (kind : FlowKind) (flowID : ℕ) (reason : FailReason)
  | closeFlow (flowID : ℕ)
  deriving DecidableEq

/-- The goroutines that may call `Close` or `closeFlow`. -/
inductive SessionGoroutine where
  | run
  | control
  | acceptor
  | stream (i : ℕ)
  | udpReader (k : ℕ)
  | worker (i : ℕ)
  | closer (i : ℕ)
  deriving DecidableEq

/-- The next action of the body of a TCP flow's `closeOnce`. -/
inductive TCPFlowCloseStage where
  | target
  | stream

/-- The next action of the body of `Close`, with the flows it still has to close. -/
inductive SessionCloseStage where
  | cancel
  | closeConn
  | swapFlows
  | closeTCP (tcp udp : List ℕ)
  | closeUDP (udp : List ℕ)
  deriving DecidableEq

/-- The next action of `closeFlow`. -/
inductive SessionCloseFlowPc where
  | delete (flowID : ℕ) (notify : Bool)
  | closeTCP (k : ℕ) (udp : Option ℕ) (flowID : ℕ) (notify : Bool)
  | closeUDP (k flowID : ℕ) (notify : Bool)
  | notify (flowID : ℕ)
  deriving DecidableEq

inductive SessionRunPc where
  | acceptControl
  | readFirst
  | authFail (reason : String)
  | register
  | writeAuthOK
  | start
  | waitDone
  | waitGroup
  | unregister
  | deferredClose
  | returned
  deriving DecidableEq

/-- The next action of `controlLoop` and of the handlers it calls. -/
inductive ControlPc where
  | notStarted
  | readFrame
  | reply (frame : SessionFrame)
  | openCheck (kind : FlowKind) (p : OpenPayload)
  | dial (kind : FlowKind) (flowID : ℕ)
  | insert (f : FlowRef) (flowID : ℕ)
  | closeDuplicate (f : FlowRef) (flowID : ℕ)
  | writeOpenOK (f : FlowRef) (flowID : ℕ)
  | spawn (k : ℕ)
  | closeFlow (pc : SessionCloseFlowPc)
  | closing
  | exiting
  | stopped
  deriving DecidableEq

inductive AcceptorPc where
  | notStarted
  | accept
  | closing
  | exiting
  | stopped

inductive PingerPc where
  | notStarted
  | wait
  | write
  | exiting
  | stopped

/-- The next action of `handleFlowStream` and `pumpTCPFlow`. -/
inductive StreamPc where
  | notAccepted
  | readID
  | lookup (flowID : ℕ)
  | closeStream
  | attach (k : ℕ)
  | pump (k : ℕ)
  | await (k : ℕ)
  | closing
  | closeFlow (k : ℕ) (pc : SessionCloseFlowPc)
  | exiting
  | stopped

/-- Whether a read ended the bytes, and how. -/
inductive ReadEnd where
  | more
  | eof
  | failed
  deriving DecidableEq

/-- What a copying goroutine reports. -/
inductive CopyResult where
  | ended
  | limited
  | failed
  deriving DecidableEq

inductive CopyPc where
  | notStarted
  | read
  | limit (data : Bytes) (readEnd : ReadEnd)
  | write (data : Bytes) (readEnd : ReadEnd)
  | send (result : CopyResult)
  | stopped
  deriving DecidableEq

/-- The next action of `udpReadLoop`; `failed` tells whether the last read also
gave an error. -/
inductive UDPReadPc where
  | notStarted
  | read
  | limit (data : Bytes) (failed : Bool)
  | fragment (data : Bytes) (failed : Bool)
  | send (packets : List Bytes) (failed : Bool)
  | checkDone
  | closing
  | closeFlow (pc : SessionCloseFlowPc)
  | exiting
  | stopped

/-- The next action on the two counters of the datagram queue. -/
inductive CounterPc where
  | addMetrics
  | clampMetrics
  | addLen
  | clampLen
  deriving DecidableEq

inductive DatagramReaderPc where
  | notStarted
  | receive
  | limit (pkt : DatagramPacket)
  | enqueue (pkt : DatagramPacket)
  | count (pc : CounterPc)
  | exiting
  | stopped

/-- The next action of `datagramWorkerLoop`; a counted task is none when the loop
only drains its queue. -/
inductive WorkerPc where
  | notStarted
  | receive
  | drain
  | count (task : Option DatagramPacket) (pc : CounterPc)
  | reassemble (pkt : DatagramPacket)
  | limit (flowID : ℕ) (payload : Bytes)
  | lookup (flowID : ℕ) (payload : Bytes)
  | write (k flowID : ℕ) (payload : Bytes)
  | closing
  | closeFlow (k : ℕ) (pc : SessionCloseFlowPc)
  | exiting
  | stopped
  deriving DecidableEq

structure SessionTCPFlow where
  id : ℕ
  targetClosed : Bool
  written : Bytes
  closeOnce : Once SessionGoroutine TCPFlowCloseStage
  stream : Option ℕ

structure SessionUDPFlow where
  id : ℕ
  connClosed : Bool
  written : List Bytes
  seq : UInt32
  reader : UDPReadPc

/-- An accepted stream, with the flow that its handler pumps. -/
structure FlowStream where
  closed : Bool
  written : Bytes
  flow : ℕ
  errCh : List CopyResult
  handler : StreamPc
  upload : CopyPc
  download : CopyPc

structure SessionConfig where
  maxFlows : ℤ
  maxDgramPayload : ℤ
  datagramWorkers : ℤ
  datagramQueue : ℤ

structure QUICSession where
  cfg : SessionConfig
  id : UInt64
  limits : Limits.Manager
  cancelled : Bool
  connClosed : Bool
  registered : Bool
  once : Once SessionGoroutine SessionCloseStage
  wg : ℕ
  tcpFlows : Table ℕ ℕ
  udpFlows : Table ℕ ℕ
  tcp : ℕ → SessionTCPFlow
  udp : ℕ → SessionUDPFlow
  tcpCreated : ℕ
  udpCreated : ℕ
  streams : ℕ → FlowStream
  accepted : ℕ
  reassembly : Reassembly
  queues : ℕ → List DatagramPacket
  metricsQueue : ℤ
  datagramQLen : ℤ
  frames : List (SessionFrame × Bool)
  datagrams : List Bytes
  run : SessionRunPc
  control : ControlPc
  acceptor : AcceptorPc
  pinger : PingerPc
  datagramReader : DatagramReaderPc
  workers : ℕ → WorkerPc
  closers : ℕ → CloserPc

namespace QUICSession

def new (cfg : SessionConfig) (id : UInt64) (limits : Limits.Manager) : QUICSession where
  cfg
  id
  limits
  cancelled := false
  connClosed := false
  registered := false
  once := .idle
  wg := 0
  tcpFlows := ∅
  udpFlows := ∅
  tcp := fun _ => ⟨0, false, [], .idle, none⟩
  udp := fun _ => ⟨0, false, [], 0, .notStarted⟩
  tcpCreated := 0
  udpCreated := 0
  streams := fun _ => ⟨false, [], 0, [], .notAccepted, .notStarted, .notStarted⟩
  accepted := 0
  reassembly := newReassembly
  queues := fun _ => []
  metricsQueue := 0
  datagramQLen := 0
  frames := []
  datagrams := []
  run := .acceptControl
  control := .notStarted
  acceptor := .notStarted
  pinger := .notStarted
  datagramReader := .notStarted
  workers := fun _ => .notStarted
  closers := fun _ => .idle

def setTCP (s : QUICSession) (k : ℕ) (flow : SessionTCPFlow) : QUICSession :=
  { s with tcp := update s.tcp k flow }

def setUDP (s : QUICSession) (k : ℕ) (flow : SessionUDPFlow) : QUICSession :=
  { s with udp := update s.udp k flow }

def setStream (s : QUICSession) (i : ℕ) (stream : FlowStream) : QUICSession :=
  { s with streams := update s.streams i stream }

def setHandler (s : QUICSession) (i : ℕ) (pc : StreamPc) : QUICSession :=
  s.setStream i { s.streams i with handler := pc }

def setReader (s : QUICSession) (k : ℕ) (pc : UDPReadPc) : QUICSession :=
  s.setUDP k { s.udp k with reader := pc }

def setWorker (s : QUICSession) (i : ℕ) (pc : WorkerPc) : QUICSession :=
  { s with workers := update s.workers i pc }

def setCloser (s : QUICSession) (i : ℕ) (pc : CloserPc) : QUICSession :=
  { s with closers := update s.closers i pc }

def flowCount (s : QUICSession) : ℕ := s.tcpFlows.keys.card + s.udpFlows.keys.card

/-- Hand a frame to the control stream, which fails once the connection is closed. -/
def writeFrame (s : QUICSession) (frame : SessionFrame) (ok : Bool) : Option QUICSession :=
  if ok ∧ s.connClosed then none else some { s with frames := s.frames ++ [(frame, ok)] }

/-- The flows of one kind under their ids. -/
def table (s : QUICSession) : FlowKind → Table ℕ ℕ
  | .tcp => s.tcpFlows
  | .udp => s.udpFlows

def flowID (s : QUICSession) (f : FlowRef) : ℕ :=
  match f.kind with
  | .tcp => (s.tcp f.index).id
  | .udp => (s.udp f.index).id

/-- How many flow objects of a kind there are. -/
def created (s : QUICSession) : FlowKind → ℕ
  | .tcp => s.tcpCreated
  | .udp => s.udpCreated

end QUICSession
end VlfProto.Session
