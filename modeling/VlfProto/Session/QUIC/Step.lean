import VlfProto.Session.QUIC.State

/-!
# The steps of a QUIC session

`closeFlow` takes whatever is filed under an id, of either kind, out of the tables
and closes it. The handlers of streams, the loops of UDP flows and the workers call
it when their own flow has come to its end, the control loop calls it for the client.
-/
namespace VlfProto.Session
open Platform Transition

inductive CopyDirection where
  | upload
  | download

/-- A step, with what the code does not choose: frames, ids, datagrams and bytes that
are read, the outcome of a write, a dial, a check or a choice, and clock readings. -/
inductive QUICSessionStep where
  | run (frame : Option Frame) (ok : Bool)
  | control (frame : Option Frame) (ok : Bool)
  | acceptor (ok : Bool)
  | pinger (ok : Bool)
  | stream (i : ℕ) (flowID : Option UInt64) (ok : Bool)
  | copy (i : ℕ) (dir : CopyDirection) (data : Bytes) (readEnd : ReadEnd) (ok : Bool) (n : ℕ)
    (now : ℤ)
  | udpReader (k : ℕ) (data : Bytes) (failed ok : Bool) (now : ℤ)
  | datagramReader (raw : Option Bytes) (now : ℤ)
  | worker (i : ℕ) (ok : Bool) (now : ℤ)
  | callClose (i : ℕ)
  | closer (i : ℕ)

namespace QUICSession

def closeTarget (s : QUICSession) (k : ℕ) : QUICSession :=
  s.setTCP k { s.tcp k with targetClosed := true }

def closeStream (s : QUICSession) (i : ℕ) : QUICSession :=
  s.setStream i { s.streams i with closed := true }

def closeUDPConn (s : QUICSession) (k : ℕ) : QUICSession :=
  s.setUDP k { s.udp k with connClosed := true }

/-- The body of a TCP flow's `closeOnce`. -/
def flowBodyStep (s : QUICSession) (k : ℕ) :
    TCPFlowCloseStage → Option (QUICSession × Option TCPFlowCloseStage)
  | .target => some (s.closeTarget k, some .stream)
  | .stream => some ((s.tcp k).stream.elim s s.closeStream, none)

/-- A goroutine in the `closeOnce` of a TCP flow; the flag tells whether it returns. -/
def closeTCPFlow (s : QUICSession) (g : SessionGoroutine) (k : ℕ) : Option (QUICSession × Bool) :=
  ((s.tcp k).closeOnce.act g .target (s.flowBodyStep k) s).map fun r =>
    (r.1.setTCP k { r.1.tcp k with closeOnce := r.2.1 }, r.2.2)

def tableFlows (s : QUICSession) (kind : FlowKind) : List ℕ :=
  (List.range (s.created kind)).filter fun k =>
    (s.table kind).lookup (s.flowID ⟨kind, k⟩) = some k

def bodyStep (s : QUICSession) (g : SessionGoroutine) :
    SessionCloseStage → Option (QUICSession × Option SessionCloseStage)
  | .cancel => some ({ s with cancelled := true }, some .closeConn)
  | .closeConn => some ({ s with connClosed := true }, some .swapFlows)
  | .swapFlows => some ({ s with tcpFlows := ∅, udpFlows := ∅ },
      some (.closeTCP (s.tableFlows .tcp) (s.tableFlows .udp)))
  | .closeTCP [] udp => some (s, some (.closeUDP udp))
  | .closeTCP (k :: rest) udp => (s.closeTCPFlow g k).map fun r =>
    (r.1, some (.closeTCP (if r.2 then rest else k :: rest) udp))
  | .closeUDP [] => some (s, none)
  | .closeUDP (k :: rest) => some (s.closeUDPConn k, some (.closeUDP rest))

/-- A goroutine in `Close`; the flag tells whether it returns. -/
def closeStep (s : QUICSession) (g : SessionGoroutine) : Option (QUICSession × Bool) :=
  (s.once.act g .cancel (s.bodyStep g) s).map fun r => ({ r.1 with once := r.2.1 }, r.2.2)

def afterClose (flowID : ℕ) (notify : Bool) : Option SessionCloseFlowPc :=
  if notify then some (.notify flowID) else none

/-- One action of `closeFlow`, and the next one if it goes on. -/
def closeFlowStep (s : QUICSession) (g : SessionGoroutine) (ok : Bool) :
    SessionCloseFlowPc → Option (QUICSession × Option SessionCloseFlowPc)
  | .delete flowID notify =>
    some ({ s with tcpFlows := s.tcpFlows.erase flowID, udpFlows := s.udpFlows.erase flowID },
      match s.tcpFlows.lookup flowID, s.udpFlows.lookup flowID with
      | some k, udp => some (.closeTCP k udp flowID notify)
      | none, some k => some (.closeUDP k flowID notify)
      | none, none => none)
  | .closeTCP k udp flowID notify => (s.closeTCPFlow g k).map fun r =>
    (r.1, if r.2 then udp.elim (afterClose flowID notify) fun k => some (.closeUDP k flowID notify)
      else some (.closeTCP k udp flowID notify))
  | .closeUDP k flowID notify => some (s.closeUDPConn k, afterClose flowID notify)
  | .notify flowID => (s.writeFrame (.closeFlow flowID) ok).map fun s => (s, none)

/-- What `Run` does with the first frame, `verified` being the verdict of
`VerifySession` on it; `none` if decoding it panics. -/
def authenticate (frame : Frame) (verified : Bool) : Option SessionRunPc :=
  if frame.type ≠ frameAUTH then some (.authFail "first frame must be AUTH")
  else
    match decodeAuthPayload frame.payload with
    | .ok _ => some (if verified then .register else .authFail "AUTH verification failed")
    | .error (.error _) => some (.authFail "invalid AUTH payload")
    | .error .panic => none

def workerCount (s : QUICSession) : ℕ :=
  if s.cfg.datagramWorkers ≤ 0 then 1 else s.cfg.datagramWorkers.toNat

def perWorker (s : QUICSession) : ℕ :=
  let queueCap := if s.cfg.datagramQueue ≤ 0 then 1024 else s.cfg.datagramQueue.toNat
  max 64 (queueCap / s.workerCount)

/-- Start the workers, the reader of datagrams and the three loops. -/
def start (s : QUICSession) : QUICSession :=
  { s with
    wg := s.wg + s.workerCount + 4
    workers := fun i => if i < s.workerCount then .receive else .notStarted
    datagramReader := .receive
    control := .readFrame
    acceptor := .accept
    pinger := .wait }

def runStep (s : QUICSession) (frame : Option Frame) (ok : Bool) : Option QUICSession :=
  match s.run with
  | .acceptControl => some { s with run := if ok then .readFirst else .deferredClose }
  | .readFirst =>
    (frame.elim (some .deferredClose) (authenticate · ok)).map fun pc => { s with run := pc }
  | .authFail reason =>
    (s.writeFrame (.authFail reason) ok).map fun s => { s with run := .deferredClose }
  | .register => some { s with registered := true, run := .writeAuthOK }
  | .writeAuthOK =>
    (s.writeFrame .authOK ok).map fun s => { s with run := if ok then .start else .unregister }
  | .start => some { s.start with run := .waitDone }
  | .waitDone => if s.cancelled then some { s with run := .waitGroup } else none
  | .waitGroup => if s.wg = 0 then some { s with run := .unregister } else none
  | .unregister => some { s with
      registered := false
      limits := s.limits.cleanupSession s.id
      run := .deferredClose }
  | .deferredClose =>
    (s.closeStep .run).map fun r => if r.2 then { r.1 with run := .returned } else r.1
  | .returned => none

/-- What the control loop does with a frame; `none` if decoding it panics, which `unwind` goes
on from. -/
def dispatch (frame : Frame) : Option ControlPc :=
  if frame.type = framePING then some (.reply (.pong frame.payload))
  else if frame.type = framePONG then some .readFrame
  else if frame.type = frameOPENTCP then
    match decodeOpenPayload frame.payload with
    | .ok p => some (.openCheck .tcp p)
    | .error (.error _) => some (.reply (.openFail .tcp 0 (.text "invalid OPEN_TCP payload")))
    | .error .panic => none
  else if frame.type = frameOPENUDP then
    match decodeOpenPayload frame.payload with
    | .ok p => some (.openCheck .udp p)
    | .error (.error _) => some (.reply (.openFail .udp 0 (.text "invalid OPEN_UDP payload")))
    | .error .panic => none
  else if frame.type = frameCLOSEFLOW then
    match decodeCloseFlowPayload frame.payload with
    | .ok flowID => some (.closeFlow (.delete flowID false))
    | .error _ => some .readFrame
  else some .readFrame

/-- The checks of `handleOpenTCP` and `handleOpenUDP` before they dial. -/
def openCheck (s : QUICSession) (kind : FlowKind) (p : OpenPayload) : ControlPc :=
  if p.flowID = 0 then .reply (.openFail kind p.flowID (.text "flow_id must be non-zero"))
  else if s.cfg.maxFlows ≤ s.flowCount then
    .reply (.openFail kind p.flowID (.text "max_flows_per_session exceeded"))
  else
    match TCPSession.addressError p with
    | some message => .reply (.openFail kind p.flowID (.text message))
    | none => .dial kind p.flowID

/-- Create a flow object for a target that has been dialled. -/
def createFlow (s : QUICSession) (flowID : ℕ) : FlowKind → QUICSession
  | .tcp => { s with tcpCreated := s.tcpCreated + 1 }.setTCP s.tcpCreated
      ⟨flowID, false, [], .idle, none⟩
  | .udp => { s with udpCreated := s.udpCreated + 1 }.setUDP s.udpCreated
      ⟨flowID, false, [], 0, .notStarted⟩

def file (s : QUICSession) (f : FlowRef) (flowID : ℕ) : QUICSession :=
  match f.kind with
  | .tcp => { s with tcpFlows := s.tcpFlows.insert flowID f.index }
  | .udp => { s with udpFlows := s.udpFlows.insert flowID f.index }

/-- Close the target of a flow that could not be filed. -/
def dropFlow (s : QUICSession) (f : FlowRef) : QUICSession :=
  match f.kind with
  | .tcp => s.closeTarget f.index
  | .udp => s.closeUDPConn f.index

/-- A UDP flow gets its loop when the client has been answered. -/
def afterOpenOK (f : FlowRef) : ControlPc :=
  match f.kind with
  | .tcp => .readFrame
  | .udp => .spawn f.index

def controlStep (s : QUICSession) (frame : Option Frame) (ok : Bool) : Option QUICSession :=
  match s.control with
  | .readFrame => (frame.elim (some .closing) dispatch).map fun pc => { s with control := pc }
  | .reply frame => (s.writeFrame frame ok).map fun s => { s with control := .readFrame }
  | .openCheck kind p => some { s with control := s.openCheck kind p }
  | .dial kind flowID =>
    if ok ∧ kind = .tcp ∧ s.cancelled then none
    else if ok then
      some { s.createFlow flowID kind with control := .insert ⟨kind, s.created kind⟩ flowID }
    else some { s with control := .reply (.openFail kind flowID .dialError) }
  | .insert f flowID =>
    if ((s.table f.kind).lookup flowID).isSome then
      some { s with control := .closeDuplicate f flowID }
    else some { s.file f flowID with control := .writeOpenOK f flowID }
  | .closeDuplicate f flowID => some { s.dropFlow f with
      control := .reply (.openFail f.kind flowID (.text "flow_id already exists")) }
  | .writeOpenOK f flowID => (s.writeFrame (.openOK f.kind flowID) ok).map fun s =>
    { s with control := if ok then afterOpenOK f else .closeFlow (.delete flowID false) }
  | .spawn k => some { s.setReader k .read with wg := s.wg + 1, control := .readFrame }
  | .closeFlow pc => (s.closeFlowStep .control ok pc).map fun r =>
    { r.1 with control := r.2.elim .readFrame .closeFlow }
  | .closing =>
    (s.closeStep .control).map fun r => if r.2 then { r.1 with control := .exiting } else r.1
  | .exiting => some { s with wg := s.wg - 1, control := .stopped }
  | .notStarted => none
  | .stopped => none

end QUICSession
end VlfProto.Session
