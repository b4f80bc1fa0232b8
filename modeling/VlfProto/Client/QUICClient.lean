import VlfProto.Client.FramedFlow
import VlfProto.Platform.Once
import VlfProto.Session.Datagram
import VlfProto.Transition.Path

/-!
# The UDP flows of the QUIC client as a step system

Any number of goroutines open UDP flows, receive from them, close them, and close the client,
beside `datagramLoop`. `udpMu` is not reentrant: a section that takes and releases it around
one access to the table is one step, possible while the lock is free, and `close` of the
client holds it over the `Close` of every flow it finds. A flow that is opened is an object
of its own, also when its id was in use before.
-/
namespace VlfProto.Client
open Platform Session Transition

/-- The next action of the body of a flow's `Close`. -/
inductive UDPCloseStage where
  | delete
  | closeIncoming
  | notify
  deriving DecidableEq

/-- The next action of the body of the client's `close`. The loop over the table has
visited some ids, and may be inside the `Close` of a flow. -/
inductive ClientCloseStage where
  | cancel
  | lock
  | range (visited : List UInt64)
  | closeFlow (k : ℕ) (visited : List UInt64)
  | swap
  | unlock
  | closeControl
  | closeConn
  deriving DecidableEq

structure QUICUDPFlow where
  id : UInt64
  reassembly : Reassembly
  incoming : List Bytes
  incomingClosed : Bool
  errCh : List FlowError
  once : Once ℕ UDPCloseStage

/-- Where `datagramLoop` is. From its lookup to its push it holds a flow. -/
inductive DatagramPc where
  | receive
  | lookup (pkt : DatagramPacket)
  | add (k : ℕ) (pkt : DatagramPacket)
  | push (k : ℕ) (payload : Bytes)
  | failed (err : FlowError)
  | stopped
  deriving DecidableEq

/-- The object that `datagramLoop` holds. -/
def DatagramPc.held : DatagramPc → Option ℕ
  | .add k _ => some k
  | .push k _ => some k
  | _ => none

/-- What a goroutine of the program is doing. -/
inductive UserPc where
  | idle
  | insert (flowID : UInt64)
  | closeFlow (k : ℕ)
  | close
  deriving DecidableEq

namespace QUICUDPFlow

def incomingCap : ℕ := 8192
def errCap : ℕ := 1

def new (id : UInt64) : QUICUDPFlow := ⟨id, newReassembly, [], false, [], .idle⟩

/-- A send on the closed channel panics; a full channel drops the payload. -/
def pushPayload (f : QUICUDPFlow) (payload : Bytes) : Option QUICUDPFlow :=
  if f.incomingClosed then none
  else if f.incoming.length < incomingCap then some { f with incoming := f.incoming ++ [payload] }
  else some f

def pushErr (f : QUICUDPFlow) (err : FlowError) : QUICUDPFlow :=
  if f.errCh.length < errCap then { f with errCh := f.errCh ++ [err] } else f

/-- `Recv`, taking a ready branch of its select; the third one is the caller's context. -/
def recv (f : QUICUDPFlow) : Branch → Option (QUICUDPFlow × ReadResult)
  | .data =>
    match f.incoming with
    | [] => if f.incomingClosed then some (f, .fail .eof) else none
    | payload :: incoming => some ({ f with incoming }, .data payload)
  | .err =>
    match f.errCh with
    | [] => none
    | err :: errCh => some ({ f with errCh }, .fail err)
  | .done => some (f, .fail (.other 0))

end QUICUDPFlow

structure QUICClient where
  cancelled : Bool
  udpMu : Option ℕ
  udpFlows : Table UInt64 ℕ
  flows : ℕ → QUICUDPFlow
  created : ℕ
  closeOnce : Once ℕ ClientCloseStage
  controlClosed : Bool
  connClosed : Bool
  loop : DatagramPc
  users : ℕ → UserPc
  panicked : Bool

inductive QUICStep where
  | openUDPFlow (i : ℕ) (flowID : UInt64)
  | closeFlow (i k : ℕ)
  | close (i : ℕ)
  | user (i : ℕ) (next : Option UInt64)
  | recv (k : ℕ) (branch : Branch)
  | receive (raw : Bytes)
  | receiveError (err : FlowError)
  | loop (now : ℤ)

namespace QUICClient

local instance (s : Finset UInt64) (p : UInt64 → Prop) [DecidablePred p] :
    Decidable (∀ i ∈ s, p i) := Finset.decidableDforallFinset

def initial : QUICClient where
  cancelled := false
  udpMu := none
  udpFlows := ∅
  flows := fun _ => .new 0
  created := 0
  closeOnce := .idle
  controlClosed := false
  connClosed := false
  loop := .receive
  users := fun _ => .idle
  panicked := false

def setFlow (c : QUICClient) (k : ℕ) (flow : QUICUDPFlow) : QUICClient :=
  { c with flows := Function.update c.flows k flow }

def setUser (c : QUICClient) (i : ℕ) (pc : UserPc) : QUICClient :=
  { c with users := Function.update c.users i pc }

/-- One action of the body of the `Close` of flow `k`. It locks `udpMu` to leave the
table. -/
def flowBody (c : QUICClient) (k : ℕ) : UDPCloseStage → Option (QUICClient × Option UDPCloseStage)
  | .delete =>
    if c.udpMu = none then
      some ({ c with udpFlows := c.udpFlows.erase (c.flows k).id }, some .closeIncoming)
    else none
  | .closeIncoming => some (c.setFlow k { c.flows k with incomingClosed := true }, some .notify)
  | .notify => some (c, none)

/-- Goroutine `i` in the `Close` of flow `k`; the flag tells whether it returns. -/
def closeFlowStep (c : QUICClient) (i k : ℕ) : Option (QUICClient × Bool) :=
  ((c.flows k).once.act i .delete (c.flowBody k) c).map fun r =>
    (r.1.setFlow k { r.1.flows k with once := r.2.1 }, r.2.2)

/-- One action of the body of the client's `close` run by goroutine `i`; `next` is the
flow that the loop over the table comes to next, if there is one left. -/
def closeBody (c : QUICClient) (i : ℕ) (next : Option UInt64) :
    ClientCloseStage → Option (QUICClient × Option ClientCloseStage)
  | .cancel => some ({ c with cancelled := true }, some .lock)
  | .lock => if c.udpMu = none then some ({ c with udpMu := some i }, some (.range [])) else none
  | .range visited =>
    match next with
    | some flowID =>
      if flowID ∈ visited then none
      else (c.udpFlows.lookup flowID).map fun k => (c, some (.closeFlow k (flowID :: visited)))
    | none => if ∀ flowID ∈ c.udpFlows.keys, flowID ∈ visited then some (c, some .swap) else none
  | .closeFlow k visited => (c.closeFlowStep i k).map fun r =>
    (r.1, some (if r.2 then .range visited else .closeFlow k visited))
  | .swap => some ({ c with udpFlows := ∅ }, some .unlock)
  | .unlock => some ({ c with udpMu := none }, some .closeControl)
  | .closeControl => some ({ c with controlClosed := true }, some .closeConn)
  | .closeConn => some ({ c with connClosed := true }, none)

def closeStep (c : QUICClient) (i : ℕ) (next : Option UInt64) : Option (QUICClient × Bool) :=
  (c.closeOnce.act i .cancel (c.closeBody i next) c).map fun r =>
    ({ r.1 with closeOnce := r.2.1 }, r.2.2)

/-- The last part of `openUDPFlow`, after the gateway has accepted the flow. -/
def insertFlow (c : QUICClient) (flowID : UInt64) : QUICClient :=
  { c.setFlow c.created (.new flowID) with
    udpFlows := c.udpFlows.insert flowID c.created
    created := c.created + 1 }

def userStep (c : QUICClient) (i : ℕ) (next : Option UInt64) : Option QUICClient :=
  match c.users i with
  | .idle => none
  | .insert flowID => if c.udpMu = none then some ((c.insertFlow flowID).setUser i .idle) else none
  | .closeFlow k => (c.closeFlowStep i k).map fun r => if r.2 then r.1.setUser i .idle else r.1
  | .close => (c.closeStep i next).map fun r => if r.2 then r.1.setUser i .idle else r.1

/-- A datagram arrives; one that does not decode is skipped. -/
def receive (c : QUICClient) (raw : Bytes) : Option QUICClient :=
  if c.loop = .receive then
    match decodeDatagramPacket raw with
    | .error _ => some c
    | .ok pkt => some { c with loop := .lookup pkt }
  else none

def loopStep (c : QUICClient) (now : ℤ) : Option QUICClient :=
  match c.loop with
  | .receive => none
  | .lookup pkt =>
    if c.udpMu = none then
      some { c with
        loop := match c.udpFlows.lookup pkt.flowID with
          | none => .receive
          | some k => .add k pkt }
    else none
  | .add k pkt =>
    let (reassembly, payload) := (c.flows k).reassembly.add now pkt
    some { c.setFlow k { c.flows k with reassembly } with
      loop := match payload with
        | none => .receive
        | some payload => .push k payload }
  | .push k payload =>
    match (c.flows k).pushPayload payload with
    | none => some { c with panicked := true }
    | some flow => some { c.setFlow k flow with loop := .receive }
  | .failed err =>
    if c.udpMu = none then
      some { c with
        flows := fun k =>
          if c.udpFlows.lookup (c.flows k).id = some k then (c.flows k).pushErr err else c.flows k
        loop := .stopped }
    else none
  | .stopped => none

def step (c : QUICClient) (label : QUICStep) : Option QUICClient :=
  if c.panicked then none
  else
    match label with
    | .openUDPFlow i flowID =>
      if c.users i = .idle then some (c.setUser i (.insert flowID)) else none
    | .closeFlow i k =>
      if c.users i = .idle ∧ k < c.created then some (c.setUser i (.closeFlow k)) else none
    | .close i => if c.users i = .idle then some (c.setUser i .close) else none
    | .user i next => c.userStep i next
    | .recv k branch =>
      if k < c.created then ((c.flows k).recv branch).map fun r => c.setFlow k r.1 else none
    | .receive raw => c.receive raw
    | .receiveError err => if c.loop = .receive then some { c with loop := .failed err } else none
    | .loop now => c.loopStep now

end QUICClient
end VlfProto.Client
