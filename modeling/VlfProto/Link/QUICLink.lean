import VlfProto.Client.QUICClient
import VlfProto.Session.QUIC.Opens

/-!
# A QUIC client and its session at the gateway

The client has no reader of its own for the control stream. Whoever has written a request
under `ctrlMu`, an `openFlow` or a `probeRTT`, reads frames until it finds its answer and
drops those that are not for it. The flows get their ids from a counter, so no id is used
twice.
-/
namespace VlfProto.Link
open Platform Transition Client Session

/-- Where a goroutine of the client is in `openFlow` or `probeRTT`. -/
inductive ControlCall where
  | idle
  | writeOpen (kind : FlowKind) (flowID : UInt64) (dstHost : Bytes) (dstPort : UInt16)
  | readOpen (kind : FlowKind) (flowID : UInt64)
  | writeProbe (token : Bytes)
  | readProbe (token : Bytes)
  deriving DecidableEq

structure QUICLink where
  client : QUICClient
  calls : ℕ → ControlCall
  ctrlMu : Option ℕ
  used : UInt64 → Option FlowKind
  tcpFlows : Finset UInt64
  uplink : List Frame
  downlink : List SessionFrame
  server : QUICSession

/-- A step of either side. A goroutine of the client takes the frame that it reads from the
control stream, or none if the read fails; `ok` is the outcome of a write. -/
inductive QUICLinkStep where
  | openFlow (i : ℕ) (kind : FlowKind) (flowID : UInt64) (dstHost : Bytes) (dstPort : UInt16)
  | probeRTT (i : ℕ) (token : Bytes)
  | control (i : ℕ) (frame : Option SessionFrame) (ok : Bool)
  | client (label : QUICStep) (ok : Bool)
  | closeTCP (flowID : UInt64) (ok : Bool)
  | server (label : QUICSessionStep)

/-- A session that has just authenticated its client and started its loops. -/
def started (cfg : SessionConfig) (id : UInt64) (limits : Limits.Manager) : QUICSession :=
  { (QUICSession.new cfg id limits).start with
    registered := true
    frames := [(.authOK, true)]
    run := .waitDone }

theorem started_path {frame : Frame} (cfg : SessionConfig) (id : UInt64) (limits : Limits.Manager)
    (h : QUICSession.authenticate frame true = some .register) :
    Path QUICSession.step anyLabel (.new cfg id limits)
      [.run none true, .run (some frame) true, .run none true, .run none true, .run none true]
      (started cfg id limits) := by
  have hfirst : QUICSession.step { QUICSession.new cfg id limits with run := .readFirst }
      (.run (some frame) true) = some { QUICSession.new cfg id limits with run := .register } := by
    simp only [QUICSession.step, QUICSession.runStep, Option.elim_some, h, Option.map_some]
  refine .cons trivial rfl (.cons trivial hfirst ?_)
  refine .cons trivial rfl (.cons trivial rfl (.cons trivial ?_ (.nil _)))
  rfl

namespace QUICLink

def new (cfg : SessionConfig) (id : UInt64) (limits : Limits.Manager) : QUICLink where
  client := .initial
  calls := fun _ => .idle
  ctrlMu := none
  used := fun _ => none
  tcpFlows := ∅
  uplink := []
  downlink := []
  server := started cfg id limits

def setCall (l : QUICLink) (i : ℕ) (call : ControlCall) : QUICLink :=
  { l with calls := Function.update l.calls i call }

def release (l : QUICLink) (i : ℕ) : QUICLink := { l with ctrlMu := none }.setCall i .idle

def write (l : QUICLink) (frame : Frame) (ok : Bool) : QUICLink :=
  { l with uplink := l.uplink ++ if ok then [frame] else [] }

/-- `openFlow` takes the lock and writes its request. -/
def writeOpen (l : QUICLink) (i : ℕ) (kind : FlowKind) (flowID : UInt64) (dstHost : Bytes)
    (dstPort : UInt16) (ok : Bool) : Option QUICLink :=
  let payload := encodeOpenPayload ⟨flowID.toNat, dstHost, [], dstPort.toNat⟩
  if l.ctrlMu = none ∧ payload.length ≤ maxAlloc then
    if ok then
      some ({ l.write ⟨openType kind, payload⟩ true with ctrlMu := some i }.setCall i
        (.readOpen kind flowID))
    else some (l.setCall i .idle)
  else none

/-- The open was accepted. A UDP flow is entered into the table next, a TCP flow gets a
stream. -/
def accept (l : QUICLink) (i : ℕ) (kind : FlowKind) (flowID : UInt64) : QUICLink :=
  match kind with
  | .tcp => { l.release i with tcpFlows := insert flowID l.tcpFlows }
  | .udp => { l.release i with client := l.client.setUser i (.insert flowID) }

/-- `openFlow` handles a frame in its loop. -/
def readOpen (l : QUICLink) (i : ℕ) (kind : FlowKind) (flowID : UInt64) (ok : Bool) :
    SessionFrame → QUICLink
  | .openOK kind' id => if kind' = kind ∧ id = flowID.toNat then l.accept i kind flowID else l
  | .openFail kind' id _ => if kind' = kind ∧ (id = flowID.toNat ∨ id = 0) then l.release i else l
  | .ping => l.write ⟨framePONG, []⟩ ok
  | _ => l

def readProbe (l : QUICLink) (i : ℕ) (token : Bytes) (ok : Bool) : SessionFrame → QUICLink
  | .pong payload => if payload = token then l.release i else l
  | .ping => l.write ⟨framePONG, []⟩ ok
  | _ => l

def next (l : QUICLink) (frame : SessionFrame) (handle : QUICLink → SessionFrame → QUICLink) :
    Option QUICLink :=
  if l.downlink.head? = some frame then
    some (handle { l with downlink := l.downlink.tail } frame)
  else none

def controlStep (l : QUICLink) (i : ℕ) (frame : Option SessionFrame) (ok : Bool) :
    Option QUICLink :=
  match l.calls i with
  | .idle => none
  | .writeOpen kind flowID dstHost dstPort => l.writeOpen i kind flowID dstHost dstPort ok
  | .readOpen kind flowID =>
    match frame with
    | none => some (l.release i)
    | some frame => l.next frame fun l => l.readOpen i kind flowID ok
  | .writeProbe token =>
    if l.ctrlMu = none then
      if ok then
        some ({ l.write ⟨framePING, token⟩ true with ctrlMu := some i }.setCall i
          (.readProbe token))
      else some (l.setCall i .idle)
    else none
  | .readProbe token =>
    match frame with
    | none => some (l.release i)
    | some frame => l.next frame fun l => l.readProbe i token ok

/-- The goroutine whose step it is. -/
def actor : QUICStep → Option ℕ
  | .openUDPFlow i _ => some i
  | .closeFlow i _ => some i
  | .close i => some i
  | .user i _ => some i
  | _ => none

def closingFlow (c : QUICClient) (i : ℕ) : Option ℕ :=
  match c.users i with
  | .closeFlow k => some k
  | .close =>
    match c.closeOnce with
    | .running j (.closeFlow k _) => if j = i then some k else none
    | _ => none
  | _ => none

/-- The flow whose `Close` is about to write CLOSE_FLOW on goroutine `i`. -/
def notified (c : QUICClient) : QUICStep → Option ℕ
  | .user i _ => (closingFlow c i).filter fun k => (c.flows k).once = .running i .notify
  | _ => none

def closeFrame (flowID : UInt64) : Frame := ⟨frameCLOSEFLOW, bigEndian 8 flowID.toNat⟩

/-- A step of the client outside of its control calls, which are what brings a goroutine to
the end of `openUDPFlow`. `ctrlCloseFlow` takes `ctrlMu`. -/
def clientStep (l : QUICLink) (label : QUICStep) (ok : Bool) : Option QUICLink :=
  match label with
  | .openUDPFlow _ _ => none
  | label =>
    if (∀ i ∈ actor label, l.calls i = .idle) ∧
        ((notified l.client label).isSome → l.ctrlMu = none) then
      (l.client.step label).map fun client =>
        { (notified l.client label).elim l fun k =>
            l.write (closeFrame (l.client.flows k).id) ok with
          client }
    else none

/-- What is left of the frames of the client when the session has taken a step. -/
def consume (l : QUICLink) : QUICSessionStep → Option (List Frame)
  | .control (some frame) _ =>
    if l.server.control = .readFrame then
      if l.uplink.head? = some frame then some l.uplink.tail else none
    else some l.uplink
  | _ => some l.uplink

/-- The frames that were written. -/
def delivered (sent : List (SessionFrame × Bool)) : List SessionFrame :=
  sent.filterMap fun f => if f.2 then some f.1 else none

def arrivals (l : QUICLink) (server : QUICSession) : List SessionFrame :=
  delivered (server.frames.drop l.server.frames.length)

def serverStep (l : QUICLink) (label : QUICSessionStep) : Option QUICLink := do
  let uplink ← l.consume label
  let server ← l.server.step label
  return { l with downlink := l.downlink ++ l.arrivals server, server, uplink }

def step (l : QUICLink) : QUICLinkStep → Option QUICLink
  | .openFlow i kind flowID dstHost dstPort =>
    if l.calls i = .idle ∧ l.client.users i = .idle ∧ l.used flowID = none then
      some ({ l with used := Function.update l.used flowID (some kind) }.setCall i
        (.writeOpen kind flowID dstHost dstPort))
    else none
  | .probeRTT i token =>
    if l.calls i = .idle ∧ l.client.users i = .idle then some (l.setCall i (.writeProbe token))
    else none
  | .control i frame ok => l.controlStep i frame ok
  | .client label ok => l.clientStep label ok
  | .closeTCP flowID ok =>
    if l.ctrlMu = none ∧ flowID ∈ l.tcpFlows then some (l.write (closeFrame flowID) ok) else none
  | .server label => l.serverStep label

end QUICLink
end VlfProto.Link
