import VlfProto.Platform.Once
import VlfProto.Transition.Path

/-!
# A UDP flow of the TUN client

`runState` takes a permit, acquires a session client, opens a UDP flow on it, registers the
flow with the policy controller and waits for one of the two pumps to end; where it cannot do
so it falls back to DNS queries over TCP flows or closes the state. The janitor and the
manager's `Close` may close a state of the table at any time. What a flow takes of the
controller and of its client is kept in ledgers, one for `runState` and one for the queries.
-/
namespace VlfProto.TunClient
open Platform Transition

/-- How often something was taken and given back. Registering a flow uses up the permit,
and taking a registered flow out again releases the client that it was registered with. -/
structure Ledger where
  taken : ℕ := 0
  consumed : ℕ := 0
  acquired : ℕ := 0
  released : ℕ := 0
  opened : ℕ := 0
  closed : ℕ := 0
  registered : ℕ := 0
  unregistered : ℕ := 0

namespace Ledger

def acquireFlowPermit (l : Ledger) : Ledger := { l with taken := l.taken + 1 }

def releaseFlowPermit (l : Ledger) : Ledger := { l with consumed := l.consumed + 1 }

def acquireClient (l : Ledger) : Ledger := { l with acquired := l.acquired + 1 }

def releaseClient (l : Ledger) (key : String) : Ledger :=
  if key = "" then l else { l with released := l.released + 1 }

def openFlow (l : Ledger) : Ledger := { l with opened := l.opened + 1 }

def closeFlow (l : Ledger) : Ledger := { l with closed := l.closed + 1 }

def registerFlow (l : Ledger) : Ledger :=
  { l with registered := l.registered + 1, consumed := l.consumed + 1 }

def unregisterFlow (l : Ledger) : Ledger :=
  { l with unregistered := l.unregistered + 1, released := l.released + 1 }

end Ledger

/-- Where `dnsQueryOverTCP` is, with `read` the loop of `runDNSFallback` around it. The
flow is closed and unregistered on the way out, with an answer or without one. -/
inductive DNSPc where
  | read
  | permit
  | acquire
  | dialFailed
  | openFlow (key : String)
  | openFailed (key : String)
  | giveBack (key : String)
  | register
  | exchange
  | closeFlow (answered : Bool)
  | unregister (answered : Bool)
  deriving DecidableEq

inductive RunPc where
  | start
  | permit
  | acquire
  | dialFailed
  | setKey (key : String)
  | openFlow (key : String)
  | openFailed (key : String)
  | giveBack (key : String)
  | clearKey
  | setFlow
  | register
  | setRef
  | pump
  | dns (pc : DNSPc)
  | close
  | returned
  deriving DecidableEq

/-- The goroutines that close a state: `runState` and those outside, which are the janitor
and the callers of the manager's `Close`. -/
inductive Closer where
  | run
  | outside (k : ℕ)
  deriving DecidableEq

/-- The actions of the body of `closeState`. -/
inductive CloseStage where
  | cancel
  | closeLocal
  | closeFlow
  | release
  | releaseClient
  | clear
  | delete
  deriving DecidableEq

structure UDPFlowState where
  dstPort : ℕ
  clientKey : String := ""
  udpFlow : Bool := false
  flowRef : Bool := false
  cancelled : Bool := false
  localClosed : Bool := false
  inFlows : Bool := true
  closeOnce : Once Closer CloseStage := .idle
  run : RunPc := .start
  outside : ℕ → Bool := fun _ => false
  main : Ledger := {}
  query : Ledger := {}

/-- What happens next: `runState` goes on, with the outcome of what it does; it gets a
client under some key; or a goroutine outside goes on. -/
inductive UDPAction where
  | run (ok : Bool)
  | acquired (key : String)
  | outside (k : ℕ)

namespace UDPFlowState

def new (dstPort : ℕ) : UDPFlowState := { dstPort }

/-- What `runState` does where it has no UDP flow. -/
def fallback (s : UDPFlowState) : RunPc := if s.dstPort = 53 then .dns .read else .close

/-- One action of the body of `closeState`, and the next one. -/
def closeBody (s : UDPFlowState) : CloseStage → Option (UDPFlowState × Option CloseStage)
  | .cancel => some ({ s with cancelled := true }, some .closeLocal)
  | .closeLocal => some ({ s with localClosed := true }, some .closeFlow)
  | .closeFlow => some ({ s with main := bif s.udpFlow then s.main.closeFlow else s.main },
      some .release)
  | .release =>
    if s.flowRef then some ({ s with main := s.main.unregisterFlow }, some .clear)
    else if s.clientKey ≠ "" then some (s, some .releaseClient)
    else some (s, some .clear)
  | .releaseClient => some ({ s with main := s.main.releaseClient s.clientKey }, some .clear)
  | .clear => some ({ s with clientKey := "" }, some .delete)
  | .delete => some ({ s with inFlows := false }, none)

/-- One action of a goroutine in `closeState`, and whether it returns. -/
def closeState (s : UDPFlowState) (g : Closer) : Option (UDPFlowState × Bool) :=
  (s.closeOnce.act g .cancel s.closeBody s).map fun r =>
    ({ r.1 with closeOnce := r.2.1 }, r.2.2)

def queryAt (s : UDPFlowState) (pc : DNSPc) (l : Ledger) : UDPFlowState :=
  { s with run := .dns pc, query := l }

def dnsStep (s : UDPFlowState) (ok : Bool) : DNSPc → Option UDPFlowState
  | .read => some { s with run := if ok then .dns .permit else .close }
  | .permit =>
    if ok then some (s.queryAt .acquire s.query.acquireFlowPermit)
    else some { s with run := .close }
  | .acquire => if ok then none else some (s.queryAt .dialFailed s.query)
  | .dialFailed => some { s with run := .close, query := s.query.releaseFlowPermit }
  | .openFlow key =>
    if ok then some (s.queryAt .register s.query.openFlow)
    else some (s.queryAt (.openFailed key) s.query)
  | .openFailed key => some (s.queryAt (.giveBack key) s.query.releaseFlowPermit)
  | .giveBack key => some { s with run := .close, query := s.query.releaseClient key }
  | .register => some (s.queryAt .exchange s.query.registerFlow)
  | .exchange => some (s.queryAt (.closeFlow ok) s.query)
  | .closeFlow answered => some (s.queryAt (.unregister answered) s.query.closeFlow)
  | .unregister answered =>
    some { s with
      run := if answered then .dns .read else .close
      query := s.query.unregisterFlow }

def runStep (s : UDPFlowState) (ok : Bool) : Option UDPFlowState :=
  match s.run with
  | .start => some { s with run := if ok then .permit else s.fallback }
  | .permit =>
    if ok then some { s with run := .acquire, main := s.main.acquireFlowPermit }
    else some { s with run := .close }
  | .acquire => if ok then none else some { s with run := .dialFailed }
  | .dialFailed => some { s with run := s.fallback, main := s.main.releaseFlowPermit }
  | .setKey key => some { s with run := .openFlow key, clientKey := key }
  | .openFlow key =>
    if ok then some { s with run := .setFlow, main := s.main.openFlow }
    else some { s with run := .openFailed key }
  | .openFailed key => some { s with run := .giveBack key, main := s.main.releaseFlowPermit }
  | .giveBack key => some { s with run := .clearKey, main := s.main.releaseClient key }
  | .clearKey => some { s with run := s.fallback, clientKey := "" }
  | .setFlow => some { s with run := .register, udpFlow := true }
  | .register => some { s with run := .setRef, main := s.main.registerFlow }
  | .setRef => some { s with run := .pump, flowRef := true }
  | .pump => some { s with run := .close }
  | .dns pc => s.dnsStep ok pc
  | .close => (s.closeState .run).map fun r =>
      { r.1 with run := if r.2 then .returned else .close }
  | .returned => none

/-- `acquireClient` returns a client, whose key is never empty. -/
def acquiredStep (s : UDPFlowState) (key : String) : Option UDPFlowState :=
  if key = "" then none
  else
    match s.run with
    | .acquire => some { s with run := .setKey key, main := s.main.acquireClient }
    | .dns .acquire => some (s.queryAt (.openFlow key) s.query.acquireClient)
    | _ => none

/-- A goroutine outside looks the state up in the manager's table, closes it and comes
back to look again. -/
def outsideStep (s : UDPFlowState) (k : ℕ) : Option UDPFlowState :=
  if s.outside k then
    (s.closeState (.outside k)).map fun r =>
      { r.1 with outside := Function.update s.outside k (!r.2) }
  else if s.inFlows then some { s with outside := Function.update s.outside k true }
  else none

def step (s : UDPFlowState) : UDPAction → Option UDPFlowState
  | .run ok => s.runStep ok
  | .acquired key => s.acquiredStep key
  | .outside k => s.outsideStep k

end UDPFlowState
end VlfProto.TunClient
