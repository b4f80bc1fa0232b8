import VlfProto.Client.FramedFlow
import VlfProto.Transition.Path

/-!
# The TCP-session client as a step system

Any number of `openTCPFlow` calls, each for a flow id of its own, run beside `readLoop`, the
readers and closers of the flows and the shutdown of the client. `readLoop` looks a flow up
under the lock and pushes after it has released it. The gateway answers a request that was
written and sends the frames of a flow after its OK. Ghost fields record, for each flow, the
frames the gateway sent and those that entered a channel.
-/
namespace VlfProto.Client
open Platform Transition Function

/-- A frame from the gateway, decoded. `control` stands for PING, PONG and the
replies to UDP requests, which concern no TCP flow. -/
inductive GatewayFrame where
  | openOK (flowID : ℕ)
  | openFail (flowID : ℕ)
  | data (flowID : ℕ) (payload : Bytes)
  | close (flowID : ℕ)
  | control
  deriving DecidableEq

def GatewayFrame.flow? : GatewayFrame → Option ℕ
  | .data flowID _ => some flowID
  | .close flowID => some flowID
  | _ => none

/-- Where an `openTCPFlow` call is. -/
inductive OpenPc where
  | idle
  | registered
  | waiting
  | givingUp
  | unregistered
  | accepted
  | opened
  | failed
  deriving DecidableEq

/-- One `openTCPFlow` call with its reply channel of capacity one. -/
structure OpenCall where
  pc : OpenPc
  reply : Option Bool
  replyClosed : Bool

inductive FlowClosePc where
  | live
  | removed
  | written
  | closed
  deriving DecidableEq

inductive LoopPc where
  | reading
  | resolve (flowID : ℕ) (ok : Bool)
  | reply (flowID : ℕ) (ok : Bool)
  | closeReply (flowID : ℕ)
  | lookup (flowID : ℕ) (frame : GatewayFrame)
  | push (flowID : ℕ) (frame : GatewayFrame)
  | closing
  | stopped
  deriving DecidableEq

/-- Where the one body of `closeWithError` is. -/
inductive ShutdownPc where
  | idle
  | cancelled
  | connClosed
  | pendingFailed
  | finished
  deriving DecidableEq

structure ClientState where
  pendingTCP : Finset ℕ
  calls : ℕ → OpenCall
  flows : Finset ℕ
  objects : ℕ → FramedFlow
  closing : ℕ → FlowClosePc
  loop : LoopPc
  shutdown : ShutdownPc
  wire : List GatewayFrame
  requested : Finset ℕ
  accepted : Finset ℕ
  panicked : Bool
  sent : ℕ → List GatewayFrame
  delivered : ℕ → List GatewayFrame

inductive ClientStep where
  | register (flowID : ℕ)
  | writeOpen (flowID : ℕ) (ok : Bool)
  | receive (flowID : ℕ)
  | timeout (flowID : ℕ)
  | unregister (flowID : ℕ)
  | closeReply (flowID : ℕ)
  | insert (flowID : ℕ)
  | gateway (frame : GatewayFrame)
  | loop
  | readError
  | read (flowID n : ℕ) (branch : Branch)
  | closeFlow (flowID : ℕ)
  | shutdown (err : FlowError)

namespace ClientState

def initial : ClientState where
  pendingTCP := ∅
  calls := fun _ => ⟨.idle, none, false⟩
  flows := ∅
  objects := fun _ => .new
  closing := fun _ => .live
  loop := .reading
  shutdown := .idle
  wire := []
  requested := ∅
  accepted := ∅
  panicked := false
  sent := fun _ => []
  delivered := fun _ => []

def setCall (s : ClientState) (flowID : ℕ) (call : OpenCall) : ClientState :=
  { s with calls := update s.calls flowID call }

def setPc (s : ClientState) (flowID : ℕ) (pc : OpenPc) : ClientState :=
  s.setCall flowID { s.calls flowID with pc }

def setObject (s : ClientState) (flowID : ℕ) (flow : FramedFlow) : ClientState :=
  { s with objects := update s.objects flowID flow }

/-- A panic in a goroutine without a recover ends the process. -/
def panic (s : ClientState) : ClientState := { s with panicked := true }

def register (s : ClientState) (f : ℕ) : Option ClientState :=
  if (s.calls f).pc = .idle then
    some ({ s with pendingTCP := insert f s.pendingTCP }.setPc f .registered)
  else none

def writeOpen (s : ClientState) (f : ℕ) (ok : Bool) : Option ClientState :=
  if (s.calls f).pc = .registered then
    if ok then some ({ s with requested := insert f s.requested }.setPc f .waiting)
    else some (s.setPc f .givingUp)
  else none

/-- The reply branch of the select; a closed empty channel yields a failure. -/
def receive (s : ClientState) (f : ℕ) : Option ClientState :=
  if (s.calls f).pc = .waiting then
    match (s.calls f).reply with
    | some true => some (s.setCall f { s.calls f with pc := .accepted, reply := none })
    | some false => some (s.setCall f { s.calls f with pc := .failed, reply := none })
    | none => if (s.calls f).replyClosed then some (s.setPc f .failed) else none
  else none

def timeout (s : ClientState) (f : ℕ) : Option ClientState :=
  if (s.calls f).pc = .waiting then some (s.setPc f .givingUp) else none

def unregister (s : ClientState) (f : ℕ) : Option ClientState :=
  if (s.calls f).pc = .givingUp then
    if f ∈ s.pendingTCP then
      some ({ s with pendingTCP := s.pendingTCP.erase f }.setPc f .unregistered)
    else some (s.setPc f .failed)
  else none

def closeReply (s : ClientState) (f : ℕ) : Option ClientState :=
  if (s.calls f).pc = .unregistered then
    if (s.calls f).replyClosed then some s.panic
    else some (s.setCall f { s.calls f with pc := .failed, replyClosed := true })
  else none

def insertFlow (s : ClientState) (f : ℕ) : Option ClientState :=
  if (s.calls f).pc = .accepted then
    some (({ s with flows := insert f s.flows }.setObject f .new).setPc f .opened)
  else none

/-- The next frame, and where its type takes the loop. -/
def readFrame (s : ClientState) : Option ClientState :=
  match s.wire with
  | [] => none
  | frame :: wire => some { s with
      wire
      loop := match frame with
        | .openOK f => .resolve f true
        | .openFail f => .resolve f false
        | .data f _ => .lookup f frame
        | .close f => .lookup f frame
        | .control => .reading }

/-- A push is over; the frame counts as delivered if the channel had room. -/
def pushed (s : ClientState) (f : ℕ) (frame : GatewayFrame) (room : Bool) : ClientState :=
  { s with
    loop := .reading
    delivered := if room then update s.delivered f (s.delivered f ++ [frame])
      else s.delivered }

/-- The push into a channel of the flow that was found. -/
def push (s : ClientState) (f : ℕ) (frame : GatewayFrame) : ClientState :=
  let flow := s.objects f
  match frame with
  | .data _ payload =>
    match flow.pushData payload with
    | none => s.panic
    | some flow' => (s.setObject f flow').pushed f frame (flow.dataCh.length < FramedFlow.dataCap)
  | _ => (s.setObject f (flow.pushErr .eof)).pushed f frame (flow.errCh.length < FramedFlow.errCap)

def loopStep (s : ClientState) : Option ClientState :=
  match s.loop with
  | .reading => s.readFrame
  | .resolve f ok =>
    if f ∈ s.pendingTCP then some { s with pendingTCP := s.pendingTCP.erase f, loop := .reply f ok }
    else some { s with loop := .reading }
  | .reply f ok =>
    if (s.calls f).replyClosed then some s.panic
    else if (s.calls f).reply = none then
      some { s.setCall f { s.calls f with reply := some ok } with loop := .closeReply f }
    else none
  | .closeReply f =>
    if (s.calls f).replyClosed then some s.panic
    else some { s.setCall f { s.calls f with replyClosed := true } with loop := .reading }
  | .lookup f frame => some { s with loop := if f ∈ s.flows then .push f frame else .reading }
  | .push f frame => some (s.push f frame)
  | .closing => if s.shutdown = .finished then some { s with loop := .stopped } else none
  | .stopped => none

/-- A failed read makes the loop call `closeWithError` and stop. -/
def readError (s : ClientState) : Option ClientState :=
  if s.loop = .reading then
    some { s with
      loop := .closing, shutdown := if s.shutdown = .idle then .cancelled else s.shutdown }
  else none

def readFlow (s : ClientState) (f n : ℕ) (branch : Branch) : Option ClientState :=
  if (s.calls f).pc = .opened then
    ((s.objects f).read (s.shutdown ≠ .idle) n branch).map fun r => s.setObject f r.1
  else none

/-- `Close` of a flow: leave the table, write CLOSE_FLOW, close the data channel. -/
def closeFlow (s : ClientState) (f : ℕ) : Option ClientState :=
  match s.closing f with
  | .live =>
    if (s.calls f).pc = .opened then
      some { s with flows := s.flows.erase f, closing := update s.closing f .removed }
    else none
  | .removed => some { s with closing := update s.closing f .written }
  | .written =>
    some { s.setObject f (s.objects f).closeData with
      closing := update s.closing f .closed }
  | .closed => none

/-- The body of `closeWithError`; each of its two locked sections is one step. -/
def shutdownStep (s : ClientState) (err : FlowError) : Option ClientState :=
  match s.shutdown with
  | .idle => some { s with shutdown := .cancelled }
  | .cancelled => some { s with shutdown := .connClosed }
  | .connClosed => some { s with
      shutdown := .pendingFailed
      pendingTCP := ∅
      calls := fun f =>
        if f ∈ s.pendingTCP then { s.calls f with reply := some false, replyClosed := true }
        else s.calls f }
  | .pendingFailed => some { s with
      shutdown := .finished
      flows := ∅
      objects := fun f => if f ∈ s.flows then (s.objects f).pushErr err else s.objects f }
  | .finished => none

/-- The gateway answers a request once and sends frames of accepted flows. -/
def gateway (s : ClientState) (frame : GatewayFrame) : Option ClientState :=
  let s' := { s with wire := s.wire ++ [frame] }
  match frame with
  | .openOK f =>
    if f ∈ s.requested then
      some { s' with requested := s.requested.erase f, accepted := insert f s.accepted }
    else none
  | .openFail f =>
    if f ∈ s.requested then some { s' with requested := s.requested.erase f } else none
  | .data f _ | .close f =>
    if f ∈ s.accepted then some { s' with sent := update s.sent f (s.sent f ++ [frame]) }
    else none
  | .control => some s'

def step (s : ClientState) (a : ClientStep) : Option ClientState :=
  if s.panicked then none
  else
    match a with
    | .register f => s.register f
    | .writeOpen f ok => s.writeOpen f ok
    | .receive f => s.receive f
    | .timeout f => s.timeout f
    | .unregister f => s.unregister f
    | .closeReply f => s.closeReply f
    | .insert f => s.insertFlow f
    | .gateway frame => s.gateway frame
    | .loop => s.loopStep
    | .readError => s.readError
    | .read f n branch => s.readFlow f n branch
    | .closeFlow f => s.closeFlow f
    | .shutdown err => s.shutdownStep err

end ClientState
end VlfProto.Client
