import VlfProto.Platform.Table
import VlfProto.Transition.Path

/-!
# The shared session clients of the TUN client

The policy controller keeps one session client for each configuration key and counts the
flows that use it. A flow acquires a client by its key, dialing a new one if there is none or
if the one there is broken, and releases it by the key again. A broken client is closed when
nobody uses it any more. Each critical section of the controller's mutex is one action.
-/
namespace VlfProto.TunClient
open Platform Transition

/-- A dialed client and what the controller keeps with it. -/
structure ManagedClient where
  key : String
  refCount : ℕ
  broken : Bool
  closed : Bool

/-- The clients by their keys, all clients that were ever dialed, and the keys of the
registered flows. -/
structure PolicyController where
  clients : Table String ℕ
  managed : ℕ → ManagedClient
  dialed : ℕ
  flows : Table ℕ String
  nextFlowID : ℕ

namespace PolicyController

def new : PolicyController := ⟨∅, fun _ => ⟨"", 0, false, false⟩, 0, ∅, 0⟩

def setClient (c : PolicyController) (i : ℕ) (mc : ManagedClient) : PolicyController :=
  { c with managed := Function.update c.managed i mc }

/-- The client under a key, if `acquireClient` may hand it out. -/
def usable (c : PolicyController) (key : String) : Option ℕ :=
  (c.clients.lookup key).filter fun i => !(c.managed i).broken

def addRef (c : PolicyController) (i : ℕ) : PolicyController :=
  c.setClient i { c.managed i with refCount := (c.managed i).refCount + 1 }

/-- `sessionclient.Dial` returns a new client, which the controller does not know yet. -/
def dial (c : PolicyController) (key : String) : PolicyController :=
  { c.setClient c.dialed ⟨key, 0, false, false⟩ with dialed := c.dialed + 1 }

/-- Keep a dialed client, with its first reference. -/
def store (c : PolicyController) (key : String) (i : ℕ) : PolicyController :=
  { c.setClient i { c.managed i with refCount := 1 } with clients := c.clients.insert key i }

def drop (c : PolicyController) (key : String) : PolicyController :=
  { c with clients := c.clients.erase key }

def closeClient (c : PolicyController) (i : ℕ) : PolicyController :=
  c.setClient i { c.managed i with closed := true }

/-- The critical section of `releaseClient`, and the client to close after it. -/
def releaseClient (c : PolicyController) (key : String) : PolicyController × Option ℕ :=
  if key = "" then (c, none)
  else
    match c.clients.lookup key with
    | none => (c, none)
    | some i =>
      let c := c.setClient i { c.managed i with refCount := (c.managed i).refCount - 1 }
      if (c.managed i).refCount = 0 ∧ (c.managed i).broken then (c.drop key, some i)
      else (c, none)

/-- The critical section of `markClientBad`, and the client to close after it. -/
def markClientBad (c : PolicyController) (key : String) (fatal : Bool) :
    PolicyController × Option ℕ :=
  if key = "" ∨ fatal = false then (c, none)
  else
    match c.clients.lookup key with
    | none => (c, none)
    | some i =>
      if (c.managed i).broken then (c, none)
      else
        let c := c.setClient i { c.managed i with broken := true }
        if (c.managed i).refCount = 0 then (c.drop key, some i) else (c, none)

def registerFlow (c : PolicyController) (key : String) : PolicyController :=
  { c with flows := c.flows.insert (c.nextFlowID + 1) key, nextFlowID := c.nextFlowID + 1 }

end PolicyController

/-- Where a flow is. A flow that has to close a client goes on when it has done so. -/
inductive FlowPc where
  | idle
  | acquire (key : String)
  | dial (key : String)
  | store (key : String) (i : ℕ)
  | holding (key : String) (i : ℕ)
  | registered (id : ℕ) (key : String) (i : ℕ)
  | unregister (id : ℕ) (key : String) (i : ℕ)
  | release (key : String) (i : ℕ)
  | close (i : ℕ) (next : FlowPc)
  deriving DecidableEq

/-- A flow starts with a key, goes on with the outcome of its dial, reports an error of some
client, registers, or leaves. -/
inductive FlowAction where
  | start (key : String)
  | advance (ok : Bool)
  | markBad (key : String) (fatal : Bool)
  | register
  | leave

structure ClientUse where
  controller : PolicyController
  flowCount : ℕ
  flows : ℕ → FlowPc

namespace ClientUse

def new (flowCount : ℕ) : ClientUse := ⟨.new, flowCount, fun _ => .idle⟩

/-- Flow `k` goes on at `pc`, after it has closed a client if there is one to close. -/
def goOn (s : ClientUse) (k : ℕ) (c : PolicyController) (close : Option ℕ) (pc : FlowPc) :
    ClientUse :=
  { s with controller := c, flows := Function.update s.flows k (close.elim pc (.close · pc)) }

def advanceStep (s : ClientUse) (k : ℕ) (ok : Bool) : Option ClientUse :=
  let c := s.controller
  match s.flows k with
  | .acquire key =>
    match c.usable key with
    | some i => some (s.goOn k (c.addRef i) none (.holding key i))
    | none => some (s.goOn k c none (.dial key))
  | .dial key =>
    if ok then some (s.goOn k (c.dial key) none (.store key c.dialed))
    else some (s.goOn k c none .idle)
  | .store key i =>
    match c.usable key with
    | some j => some (s.goOn k (c.addRef j) (some i) (.holding key j))
    | none => some (s.goOn k (c.store key i) none (.holding key i))
  | .unregister id _ i =>
    match c.flows.lookup id with
    | some key => some (s.goOn k { c with flows := c.flows.erase id } none (.release key i))
    | none => some (s.goOn k c none .idle)
  | .release key _ =>
    let r := c.releaseClient key
    some (s.goOn k r.1 r.2 .idle)
  | .close i next => some (s.goOn k (c.closeClient i) none next)
  | _ => none

/-- A flow may report an error while it does nothing else. -/
def mayMark : FlowPc → Bool
  | .idle => true
  | .holding _ _ => true
  | .registered _ _ _ => true
  | _ => false

def flowStep (s : ClientUse) (k : ℕ) : FlowAction → Option ClientUse
  | .start key =>
    if s.flows k = .idle ∧ key ≠ "" then some (s.goOn k s.controller none (.acquire key)) else none
  | .advance ok => s.advanceStep k ok
  | .markBad key fatal =>
    let r := s.controller.markClientBad key fatal
    if mayMark (s.flows k) then some (s.goOn k r.1 r.2 (s.flows k)) else none
  | .register =>
    match s.flows k with
    | .holding key i => some (s.goOn k (s.controller.registerFlow key) none
        (.registered (s.controller.nextFlowID + 1) key i))
    | _ => none
  | .leave =>
    match s.flows k with
    | .holding key i => some (s.goOn k s.controller none (.release key i))
    | .registered id key i => some (s.goOn k s.controller none (.unregister id key i))
    | _ => none

def step (s : ClientUse) (label : ℕ × FlowAction) : Option ClientUse :=
  if label.1 < s.flowCount then s.flowStep label.1 label.2 else none

end ClientUse
end VlfProto.TunClient
