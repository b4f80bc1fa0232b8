import VlfProto.Client.Session
import VlfProto.Session.TCP.Opens

/-!
# A TCP-session client and its session at the gateway

The client and the session run side by side, joined by two queues of frames: what the
client writes is read by `Run` of the session, and what the session writes is read by
`readLoop` of the client. A frame whose write fails does not enter its queue.
-/
namespace VlfProto.Link
open Platform Transition Client Session

/-- What `readLoop` makes of a frame of the session. -/
def toGateway : ServerFrame → GatewayFrame
  | .openTCPOK flowID => .openOK flowID
  | .openTCPFail flowID _ => .openFail flowID
  | .tcpData flowID data => .data flowID data
  | .closeFlow flowID => .close flowID
  | .authOK => .control
  | .authFail _ => .control
  | .pong _ => .control
  | .openUDPFail _ _ => .control

/-- A session that has just authenticated its client. -/
def authenticated (maxFlows : ℤ) : TCPSession :=
  { TCPSession.new maxFlows with
    registered := true
    frames := [(.authOK, true)]
    run := .readFrame }

theorem authenticated_path {frame : Frame} (maxFlows : ℤ)
    (h : TCPSession.authenticate frame true = some .register) :
    Path TCPSession.step anyLabel (.new maxFlows)
      [.run none true 0, .run (some frame) true 0, .run none true 0, .run none true 0]
      (authenticated maxFlows) := by
  have hfirst : TCPSession.step { TCPSession.new maxFlows with run := .readFirst }
      (.run (some frame) true 0) = some { TCPSession.new maxFlows with run := .register } := by
    simp only [TCPSession.step, TCPSession.runStep, Option.elim_some, h, Option.map_some]
  refine .cons trivial rfl (.cons trivial hfirst ?_)
  refine .cons trivial rfl (.cons trivial ?_ (.nil _))
  rfl

structure TCPLink where
  client : ClientState
  server : TCPSession
  uplink : List Frame

/-- A step of either side. The destination is that of an OPEN_TCP, and `ok` tells whether a
CLOSE_FLOW of the client is written; `send` is any other frame that the client writes. -/
inductive TCPLinkStep where
  | client (a : ClientStep) (dstHost : Bytes) (dstPort : UInt16) (ok : Bool)
  | send (frame : Frame)
  | server (label : TCPSessionStep)

namespace TCPLink

def new (maxFlows : ℤ) : TCPLink := ⟨.initial, authenticated maxFlows, []⟩

def openPayload (flowID : ℕ) (dstHost : Bytes) (dstPort : UInt16) : OpenPayload :=
  ⟨flowID, dstHost, [], dstPort.toNat⟩

/-- The frames that a step of the client writes; `none` for an OPEN_TCP whose id is not a
`uint64` or whose payload cannot be allocated, and for frames of a gateway, which come
from the session. -/
def clientWrites (s : ClientState) (dstHost : Bytes) (dstPort : UInt16) (ok : Bool) :
    ClientStep → Option (List Frame)
  | .writeOpen flowID true =>
    let payload := encodeOpenPayload (openPayload flowID dstHost dstPort)
    if flowID < 2 ^ 64 ∧ payload.length ≤ maxAlloc then some [⟨frameOPENTCP, payload⟩] else none
  | .closeFlow flowID =>
    some (if s.closing flowID = .removed ∧ ok then [⟨frameCLOSEFLOW, bigEndian 8 flowID⟩] else [])
  | .gateway _ => none
  | _ => some []

def clientStep (l : TCPLink) (a : ClientStep) (dstHost : Bytes) (dstPort : UInt16) (ok : Bool) :
    Option TCPLink := do
  let written ← clientWrites l.client dstHost dstPort ok a
  let client ← l.client.step a
  return { l with client, uplink := l.uplink ++ written }

/-- What is left of the frames of the client when the session has taken a step. -/
def consume (l : TCPLink) : TCPSessionStep → Option (List Frame)
  | .run (some frame) _ _ =>
    if l.server.run = .readFrame then
      if l.uplink.head? = some frame then some l.uplink.tail else none
    else some l.uplink
  | _ => some l.uplink

/-- The frames that reach the client when the session goes on to `server`. -/
def arrivals (l : TCPLink) (server : TCPSession) : List GatewayFrame :=
  (server.frames.drop l.server.frames.length).filterMap fun f =>
    if f.2 then some (toGateway f.1) else none

def serverStep (l : TCPLink) (label : TCPSessionStep) : Option TCPLink := do
  let uplink ← l.consume label
  let server ← l.server.step label
  return { client := { l.client with wire := l.client.wire ++ l.arrivals server }, server, uplink }

def step (l : TCPLink) : TCPLinkStep → Option TCPLink
  | .client a dstHost dstPort ok => l.clientStep a dstHost dstPort ok
  | .send frame =>
    if frame.type ∈ [framePING, framePONG, frameOPENUDP, frameTCPDATA] then
      some { l with uplink := l.uplink ++ [frame] }
    else none
  | .server label => l.serverStep label

/-- Both sides have processed all frames. -/
def Settled (l : TCPLink) : Prop :=
  l.uplink = [] ∧ l.client.wire = [] ∧ l.client.loop = .reading ∧ l.server.run = .readFrame

instance (l : TCPLink) : Decidable l.Settled := by
  unfold Settled
  infer_instance

/-- Neither side has begun to close the session. -/
def Open (l : TCPLink) : Prop := l.client.shutdown = .idle ∧ l.server.once = .idle

instance (l : TCPLink) : Decidable l.Open := by
  unfold Open
  infer_instance

end TCPLink
end VlfProto.Link
