import VlfProto.Platform.Once
import VlfProto.Platform.Table
import VlfProto.Session.Frame
import VlfProto.Transition.Path

/-!
# One TCP session of the gateway as a step system

`Run` authenticates the client and serves its control frames. Each flow it opens gets a
`targetToClientLoop`, counted in the wait group of the session. Idle timeouts and the
shutdown of the server call `Close` beside them. A frame write holds a mutex and is one step;
a write, read or dial that blocks is a step that has not been taken. A flow object is known
by the number of the dial that created it.
-/
namespace VlfProto.Session
open Platform Transition

inductive FailReason where
  | text (message : String)
  | dialError
  deriving DecidableEq

inductive ServerFrame where
  | authOK
  | authFail (reason : String)
  | pong (payload : Bytes)
  | openTCPOK (flowID : ℕ)
  | openTCPFail (flowID : ℕ) (reason : FailReason)
  | openUDPFail (flowID : ℕ) (reason : String)
  | closeFlow (flowID : ℕ)
  | tcpData (flowID : ℕ) (data : Bytes)
  deriving DecidableEq

inductive TCPGoroutine where
  | run
  | loop (k : ℕ)
  | closer (i : ℕ)
  deriving DecidableEq

/-- The next action of the body of `Close`; `rest` are the flow objects whose
target it still has to close. -/
inductive TCPCloseStage where
  | cancel
  | closeConn
  | swapFlows
  | closeTargets (rest : List ℕ)
  | wait
  deriving DecidableEq

/-- The next action of `closeFlow`. -/
inductive CloseFlowPc where
  | delete (flowID : ℕ) (notify : Bool)
  | closeTarget (k flowID : ℕ) (notify : Bool)
  | notify (flowID : ℕ)
  deriving DecidableEq

/-- The next action of `Run` and of the handlers it calls. A `reply` is a frame
whose write error is ignored. -/
inductive TCPRunPc where
  | setDeadline
  | readFirst
  | authFail (reason : String)
  | register
  | writeAuthOK
  | readFrame
  | reply (frame : ServerFrame)
  | openCheck (p : OpenPayload)
  | dial (flowID : ℕ)
  | insert (flowID k : ℕ)
  | closeDuplicate (flowID k : ℕ)
  | countStream (flowID k : ℕ)
  | writeOpenOK (flowID k : ℕ)
  | spawn (k : ℕ)
  | closeFlow (pc : CloseFlowPc)
  | dataLookup (flowID : ℕ) (data : Bytes)
  | dataLimit (flowID k : ℕ) (data : Bytes)
  | dataWrite (flowID k : ℕ) (data : Bytes)
  | closing
  | unregister
  | deferredClose
  | returned
  deriving DecidableEq

/-- The next action of `targetToClientLoop`; `failed` tells whether the read that
gave `data` also gave an error. -/
inductive TCPLoopPc where
  | notStarted
  | read
  | limit (data : Bytes) (failed : Bool)
  | write (data : Bytes) (failed : Bool)
  | closing
  | closeFlow (pc : CloseFlowPc)
  | exiting
  | stopped
  deriving DecidableEq

inductive CloserPc where
  | idle
  | closing
  | returned
  deriving DecidableEq

structure TCPFlow where
  id : ℕ
  targetClosed : Bool
  written : Bytes
  loop : TCPLoopPc

structure TCPSession where
  maxFlows : ℤ
  cancelled : Bool
  connClosed : Bool
  registered : Bool
  limiterEntry : Bool
  once : Once TCPGoroutine TCPCloseStage
  wg : ℕ
  tcpFlows : Table ℕ ℕ
  flows : ℕ → TCPFlow
  created : ℕ
  tcpStreams : ℤ
  frames : List (ServerFrame × Bool)
  run : TCPRunPc
  closers : ℕ → CloserPc

/-- A step, with what the code does not choose: the frame that `Run` reads, or none for a read
error; what a target read returns; the outcome of a write, a dial or a check, and the bytes that
a failed target write got through. -/
inductive TCPSessionStep where
  | run (frame : Option Frame) (ok : Bool) (n : ℕ)
  | loop (k : ℕ) (data : Bytes) (failed ok : Bool)
  | callClose (i : ℕ)
  | closer (i : ℕ)

namespace TCPSession

def readBufSize : ℕ := 32 * 1024

def new (maxFlows : ℤ) : TCPSession where
  maxFlows
  cancelled := false
  connClosed := false
  registered := false
  limiterEntry := false
  once := .idle
  wg := 0
  tcpFlows := ∅
  flows := fun _ => ⟨0, false, [], .notStarted⟩
  created := 0
  tcpStreams := 0
  frames := []
  run := .setDeadline
  closers := fun _ => .idle

def setFlow (s : TCPSession) (k : ℕ) (flow : TCPFlow) : TCPSession :=
  { s with flows := Function.update s.flows k flow }

def setLoop (s : TCPSession) (k : ℕ) (pc : TCPLoopPc) : TCPSession :=
  s.setFlow k { s.flows k with loop := pc }

def closeTarget (s : TCPSession) (k : ℕ) : TCPSession :=
  s.setFlow k { s.flows k with targetClosed := true }

def flowCount (s : TCPSession) : ℕ := s.tcpFlows.keys.card

/-- Hand a frame to the connection, which fails once it is closed. -/
def writeFrame (s : TCPSession) (frame : ServerFrame) (ok : Bool) : Option TCPSession :=
  if ok ∧ s.connClosed then none else some { s with frames := s.frames ++ [(frame, ok)] }

/-- The flow objects in the table, in the order of their creation. -/
def tableFlows (s : TCPSession) : List ℕ :=
  (List.range s.created).filter fun k => s.tcpFlows.lookup (s.flows k).id = some k

def bodyStep (s : TCPSession) : TCPCloseStage → Option (TCPSession × Option TCPCloseStage)
  | .cancel => some ({ s with cancelled := true }, some .closeConn)
  | .closeConn => some ({ s with connClosed := true }, some .swapFlows)
  | .swapFlows => some ({ s with tcpFlows := ∅ }, some (.closeTargets s.tableFlows))
  | .closeTargets [] => some (s, some .wait)
  | .closeTargets (k :: rest) =>
    some ({ s.closeTarget k with tcpStreams := s.tcpStreams - 1 }, some (.closeTargets rest))
  | .wait => if s.wg = 0 then some (s, none) else none

/-- A goroutine in `Close`; the flag tells whether it returns. -/
def closeStep (s : TCPSession) (g : TCPGoroutine) : Option (TCPSession × Bool) :=
  (s.once.act g .cancel s.bodyStep s).map fun r => ({ r.1 with once := r.2.1 }, r.2.2)

/-- One action of `closeFlow`, and the next one if it goes on. -/
def closeFlowStep (s : TCPSession) (ok : Bool) :
    CloseFlowPc → Option (TCPSession × Option CloseFlowPc)
  | .delete flowID notify =>
    match s.tcpFlows.lookup flowID with
    | none => some (s, none)
    | some k =>
      some ({ s with tcpFlows := s.tcpFlows.erase flowID }, some (.closeTarget k flowID notify))
  | .closeTarget k flowID notify =>
    some ({ s.closeTarget k with tcpStreams := s.tcpStreams - 1 },
      if notify then some (.notify flowID) else none)
  | .notify flowID => (s.writeFrame (.closeFlow flowID) ok).map fun s => (s, none)

/-- The error of `resolveTargetAddress`, if there is one. -/
def addressError (p : OpenPayload) : Option String :=
  if p.dstPort = 0 then some "dst_port must be non-zero"
  else if p.dstHost = [] ∧ p.dstIP = [] then some "either dst_host or dst_ip must be set"
  else none

/-- What `Run` does with the first frame, `verified` being the verdict of
`VerifySession` on it; `none` if decoding it panics. -/
def authenticate (frame : Frame) (verified : Bool) : Option TCPRunPc :=
  if frame.type ≠ frameAUTH then some (.authFail "first frame must be AUTH")
  else
    match decodeAuthPayload frame.payload with
    | .ok _ => some (if verified then .register else .authFail "AUTH verification failed")
    | .error (.error _) => some (.authFail "invalid AUTH payload")
    | .error .panic => none

/-- What `Run` does with a frame of an authenticated client; `none` if decoding it panics,
which `unwind` goes on from. -/
def dispatch (frame : Frame) : Option TCPRunPc :=
  if frame.type = framePING then some (.reply (.pong frame.payload))
  else if frame.type = framePONG then some .readFrame
  else if frame.type = frameOPENTCP then
    match decodeOpenPayload frame.payload with
    | .ok p => some (.openCheck p)
    | .error (.error _) => some (.reply (.openTCPFail 0 (.text "invalid OPEN_TCP payload")))
    | .error .panic => none
  else if frame.type = frameOPENUDP then
    match decodeOpenPayload frame.payload with
    | .ok p => some (.reply (.openUDPFail p.flowID "udp is not supported on tcp transport"))
    | .error (.error _) => some (.reply (.openUDPFail 0 "udp is not supported on tcp transport"))
    | .error .panic => none
  else if frame.type = frameCLOSEFLOW then
    match decodeCloseFlowPayload frame.payload with
    | .ok flowID => some (.closeFlow (.delete flowID false))
    | .error _ => some .readFrame
  else if frame.type = frameTCPDATA then
    match decodeTCPDataPayload frame.payload with
    | .ok (flowID, data) => some (.dataLookup flowID data)
    | .error _ => some .readFrame
  else some .readFrame

/-- The checks of `handleOpenTCP` before it dials. -/
def openCheck (s : TCPSession) (p : OpenPayload) : TCPRunPc :=
  if p.flowID = 0 then .reply (.openTCPFail p.flowID (.text "flow_id must be non-zero"))
  else if s.maxFlows ≤ s.flowCount then
    .reply (.openTCPFail p.flowID (.text "max_flows_per_session exceeded"))
  else
    match addressError p with
    | some message => .reply (.openTCPFail p.flowID (.text message))
    | none => .dial p.flowID

def createFlow (s : TCPSession) (flowID : ℕ) : TCPSession :=
  { s with created := s.created + 1 }.setFlow s.created ⟨flowID, false, [], .notStarted⟩

def runStep (s : TCPSession) (frame : Option Frame) (ok : Bool) (n : ℕ) : Option TCPSession :=
  match s.run with
  | .setDeadline => some { s with run := if ok then .readFirst else .deferredClose }
  | .readFirst =>
    (frame.elim (some .deferredClose) (authenticate · ok)).map fun pc => { s with run := pc }
  | .authFail reason =>
    (s.writeFrame (.authFail reason) ok).map fun s => { s with run := .deferredClose }
  | .register => some { s with registered := true, run := .writeAuthOK }
  | .writeAuthOK =>
    (s.writeFrame .authOK ok).map fun s => { s with run := if ok then .readFrame else .unregister }
  | .readFrame => (frame.elim (some .unregister) dispatch).map fun pc => { s with run := pc }
  | .reply frame => (s.writeFrame frame ok).map fun s => { s with run := .readFrame }
  | .openCheck p => some { s with run := s.openCheck p }
  | .dial flowID =>
    if ok ∧ s.cancelled then none
    else if ok then some { s.createFlow flowID with run := .insert flowID s.created }
    else some { s with run := .reply (.openTCPFail flowID .dialError) }
  | .insert flowID k =>
    if (s.tcpFlows.lookup flowID).isSome then some { s with run := .closeDuplicate flowID k }
    else some { s with tcpFlows := s.tcpFlows.insert flowID k, run := .countStream flowID k }
  | .closeDuplicate flowID k => some { s.closeTarget k with
      run := .reply (.openTCPFail flowID (.text "flow_id already exists")) }
  | .countStream flowID k =>
    some { s with tcpStreams := s.tcpStreams + 1, run := .writeOpenOK flowID k }
  | .writeOpenOK flowID k => (s.writeFrame (.openTCPOK flowID) ok).map fun s =>
    { s with run := if ok then .spawn k else .closeFlow (.delete flowID false) }
  | .spawn k => some { s.setLoop k .read with wg := s.wg + 1, run := .readFrame }
  | .closeFlow pc =>
    (s.closeFlowStep ok pc).map fun r => { r.1 with run := r.2.elim .readFrame .closeFlow }
  | .dataLookup flowID data =>
    match s.tcpFlows.lookup flowID with
    | none => some { s with run := .closeFlow (.delete flowID true) }
    | some k => some { s with run := if data = [] then .readFrame else .dataLimit flowID k data }
  | .dataLimit flowID k data => some { s with
      limiterEntry := true
      run := if ok then .dataWrite flowID k data else .closing }
  | .dataWrite flowID k data =>
    if ok ∧ (s.flows k).targetClosed then none
    else
      let written := (s.flows k).written ++ if ok then data else data.take n
      some { s.setFlow k { s.flows k with written } with
        run := if ok then .readFrame else .closeFlow (.delete flowID true) }
  | .closing => (s.closeStep .run).map fun r => if r.2 then { r.1 with run := .unregister } else r.1
  | .unregister => some { s with registered := false, limiterEntry := false, run := .deferredClose }
  | .deferredClose =>
    (s.closeStep .run).map fun r => if r.2 then { r.1 with run := .returned } else r.1
  | .returned => none

/-- What `targetToClientLoop` does about the error of a read. -/
def afterRead (flowID : ℕ) (failed : Bool) : TCPLoopPc :=
  if failed then .closeFlow (.delete flowID true) else .read

def loopStep (s : TCPSession) (k : ℕ) (data : Bytes) (failed ok : Bool) : Option TCPSession :=
  match (s.flows k).loop with
  | .read =>
    if data.length ≤ readBufSize ∧ ((s.flows k).targetClosed → data = [] ∧ failed) then
      some (s.setLoop k (if data = [] then afterRead (s.flows k).id failed
        else .limit data failed))
    else none
  | .limit data failed => some ({ s with limiterEntry := true }.setLoop k
      (if ok then .write data failed else .closing))
  | .write data failed => (s.writeFrame (.tcpData (s.flows k).id data) ok).map fun s =>
    s.setLoop k (if ok then afterRead (s.flows k).id failed else .closing)
  | .closing => (s.closeStep (.loop k)).map fun r => if r.2 then r.1.setLoop k .exiting else r.1
  | .closeFlow pc =>
    (s.closeFlowStep ok pc).map fun r => r.1.setLoop k (r.2.elim .exiting .closeFlow)
  | .exiting => some ({ s with wg := s.wg - 1 }.setLoop k .stopped)
  | .notStarted => none
  | .stopped => none

def setCloser (s : TCPSession) (i : ℕ) (pc : CloserPc) : TCPSession :=
  { s with closers := Function.update s.closers i pc }

def closerStep (s : TCPSession) (i : ℕ) : Option TCPSession :=
  match s.closers i with
  | .closing =>
    (s.closeStep (.closer i)).map fun r => if r.2 then r.1.setCloser i .returned else r.1
  | _ => none

def step (s : TCPSession) : TCPSessionStep → Option TCPSession
  | .run frame ok n => s.runStep frame ok n
  | .loop k data failed ok => s.loopStep k data failed ok
  | .callClose i =>
    if s.registered ∧ s.closers i = .idle then some (s.setCloser i .closing) else none
  | .closer i => s.closerStep i

end TCPSession
end VlfProto.Session
