import VlfProto.Relay.Manager

/-!
# The relay lane as a step system

Any number of `Open` calls and of calls on a connection run beside the loops of the
connections, the ticker of the wheel and `Shutdown`. A call by a handler occupies a slot of
its own for good. The callbacks of the ticker and the closes of `Shutdown` are calls of
`Close` made one after the other, each of the two in one slot that it uses again.
-/
namespace VlfProto.Relay
open Platform Transition Function

inductive OpenPc where
  | notCalled
  | check
  | reserve
  | dial
  | newConnID
  | release (err : OpenError)
  | insert
  | add
  | start
  | finished (result : Except OpenError OpenResponse)

structure OpenCall where
  clientID : Bytes
  request : OpenRequest
  pc : OpenPc

inductive Operation where
  | send (payload : Bytes)
  | recv (max : ℤ)
  | ping
  | close
  deriving DecidableEq

/-- What a call returns; a refusal of the byte limiter reports its figures. -/
inductive Answer where
  | result (result : CallResult)
  | forbidden
  | overBudget (excess : Limits.OverBudget)
  | pong (expiresInMS : ℤ)
  deriving DecidableEq

/-- Where a call is; within a connection its place is that of the connection's
caller of the same number. -/
inductive Phase where
  | lookup
  | within (k : ℕ)
  | pingClosed (k : ℕ)
  | pingStore (k : ℕ)
  | pingTouch (k : ℕ)
  | pingExpires (k : ℕ)
  | finished (answer : Answer)
  deriving DecidableEq

structure Call where
  clientID : Bytes
  connID : Bytes
  operation : Operation
  phase : Phase
  deriving DecidableEq

/-- A series of calls of `Close`, one after the other. -/
inductive Sweep where
  | next (rest : List Expiry)
  | await (rest : List Expiry)
  deriving DecidableEq

inductive TickerPc where
  | waiting
  | sweeping (sweep : Sweep)
  | exited
  deriving DecidableEq

inductive ShutdownPc where
  | notCalled
  | sweeping (sweep : Sweep)
  | closeStop
  | wait
  | returned
  deriving DecidableEq

/-- The request a call makes of the connection; `Ping` makes none. -/
def Operation.request : Operation → Option Request
  | .send payload => some (.send payload)
  | .recv max => some (.recv max)
  | .ping => none
  | .close => some .close

/-- What a call returns when it is not given the connection. -/
def Operation.refusal : Operation → LookupError → Answer
  | .close, _ => .result (.closed false)
  | _, .unknownConn => .result .unknownConn
  | _, .forbidden => .forbidden

/-- `Send` and `Recv` touch the timer when they have moved bytes. -/
def CallResult.moved : CallResult → Bool
  | .sent accepted _ => 0 < accepted
  | .received data _ => data ≠ []
  | _ => false

namespace Manager

def openStep (m : Manager) (k : ℕ) (o : OpenCall) (ok : Bool) (raw : Bytes) (now : ℤ) :
    Option (Manager × OpenPc) :=
  match o.pc with
  | .notCalled => none
  | .check => some (m, match o.request.check with
    | some err => .finished (.error err)
    | none => .reserve)
  | .reserve => some (match m.limits.reserveRelayConn o.clientID with
    | .error err => (m, .finished (.error (.limit err)))
    | .ok limits => ({ m with limits }, .dial))
  | .dial => some (m, if ok then .newConnID else .release .dial)
  | .newConnID =>
    if ¬ok then some (m, .release .connID)
    else if raw.length = 10 then
      some (m.setRelayConn k (.new (newConnID raw) o.clientID m.cfg now), .insert)
    else none
  | .release err =>
    some ({ m with limits := m.limits.releaseRelayConn o.clientID }, .finished (.error err))
  | .insert => some ({ m with conns := m.conns.insert (m.relayConns k).id k }, .add)
  | .add =>
    let connID := (m.relayConns k).id
    (m.ttlStore.add ⟨connID, o.clientID, now⟩ m.cfg.idleTimeout (connID, o.clientID)).map
      fun ttlStore => ({ m with ttlStore }, .start)
  | .start => (m.connStep k .reader .start now).map fun m' => (m', .finished (.ok {
      connID := (m.relayConns k).id
      expiresInMS := m.cfg.idleTimeout.toInt.tdiv 1000000
      recvWindow := m.cfg.recvWindow
      sendWindow := m.cfg.sendWindow }))
  | .finished _ => none

/-- A call is given its connection. -/
def enter (m : Manager) (i k : ℕ) (operation : Operation) (now : ℤ) : Option (Manager × Phase) :=
  match operation.request with
  | none => some (m, .pingClosed k)
  | some request =>
    ((m.connStep k (.caller i) (.call i request) now).bind fun m =>
      m.connStep k (.caller i) (.caller i true) now).map fun m => (m, .within k)

def withinStep (m : Manager) (i k : ℕ) (call : Call) (now : ℤ) : Option (Manager × Phase) :=
  let rc := m.relayConns k
  if rc.waits (.caller i) then none
  else match rc.conn.callers i with
  | .sendLimit data =>
    let (limits, refused) := m.limits.allowRelayBytes call.clientID data.length now
    let m := { m with limits }
    match refused with
    | some excess => ((m.connStep k (.caller i) (.caller i false) now).bind fun m =>
        m.connStep k (.caller i) (.collect i) now).map fun m => (m, .finished (.overBudget excess))
    | none => (m.connStep k (.caller i) (.caller i true) now).map fun m => (m, .within k)
  | .finished result =>
    (m.connStep k (.caller i) (.collect i) now).bind fun m =>
      (if result.moved then m.touch call.connID now else some m).map fun m =>
        (m, .finished (.result result))
  | _ => (m.connStep k (.caller i) (.caller i true) now).map fun m => (m, .within k)

def callStep (m : Manager) (i : ℕ) (call : Call) (now : ℤ) : Option (Manager × Phase) :=
  match call.phase with
  | .lookup =>
    match m.getOwnedConn call.clientID call.connID with
    | .error err => some (m, .finished (call.operation.refusal err))
    | .ok k => m.enter i k call.operation now
  | .within k => m.withinStep i k call now
  | .pingClosed k =>
    some (m, if (m.relayConns k).conn.closed then .pingTouch k else .pingStore k)
  | .pingStore k => some (m.setRelayConn k { m.relayConns k with
      lastActive := RelayConn.milliseconds now }, .pingTouch k)
  | .pingTouch k => (m.touch call.connID now).map fun m => (m, .pingExpires k)
  | .pingExpires k =>
    some (m, .finished (.pong ((m.relayConns k).expiresInMS m.cfg.idleTimeout now)))
  | .finished _ => none

end Manager

structure Lane where
  manager : Manager
  opened : ℕ
  opens : ℕ → OpenCall
  calls : ℕ → Option Call
  ticker : TickerPc
  shutdown : ShutdownPc
  stopped : Bool

/-- A step, with the choices the code does not make: the outcome of a dial or of
the random source, what the targets do, the clock, and the order in which a table
is ranged over. -/
inductive LaneStep where
  | openCall (clientID : Bytes) (request : OpenRequest)
  | opener (k : ℕ) (ok : Bool) (raw : Bytes) (now : ℤ)
  | reader (k : ℕ) (data : Bytes) (err : Option TargetError) (now : ℤ)
  | writer (k : ℕ) (ok : Bool) (n : ℕ) (now : ℤ)
  | onClosed (k : ℕ)
  | call (i : ℕ) (clientID connID : Bytes) (operation : Operation)
  | caller (i : ℕ) (now : ℤ)
  | tick (order : List Expiry)
  | ticker
  | exit
  | shutdown (order : List Expiry)
  | shutdowner

namespace Lane

def new (cfg : ManagerConfig) (limits : Limits.Config) : Lane where
  manager := .new cfg limits
  opened := 0
  opens := fun _ => ⟨[], ⟨[], [], 0⟩, .notCalled⟩
  calls := fun _ => none
  ticker := .waiting
  shutdown := .notCalled
  stopped := false

def setCall (l : Lane) (i : ℕ) (call : Option Call) : Lane :=
  { l with calls := update l.calls i call }

/-- The slots of the two goroutines that close connections one after the other;
the handlers use the slots above them. -/
def tickerSlot : ℕ := 0
def shutdownSlot : ℕ := 1

def callFinished (l : Lane) (i : ℕ) : Bool :=
  match l.calls i with
  | some ⟨_, _, _, .finished _⟩ => true
  | _ => false

/-- One step of a series of closes in slot `i`, and what is left of it. -/
def sweepStep (l : Lane) (i : ℕ) : Sweep → Option (Lane × Option Sweep)
  | .next [] => some (l, none)
  | .next ((connID, clientID) :: rest) =>
    some (l.setCall i (some ⟨clientID, connID, .close, .lookup⟩), some (.await rest))
  | .await rest =>
    if l.callFinished i then some (l.setCall i none, some (.next rest)) else none

def tickerStep (l : Lane) : Option Lane :=
  match l.ticker with
  | .sweeping sweep => (l.sweepStep tickerSlot sweep).map fun r =>
    { r.1 with ticker := (r.2.map TickerPc.sweeping).getD .waiting }
  | _ => none

def shutdownStep (l : Lane) : Option Lane :=
  match l.shutdown with
  | .sweeping sweep => (l.sweepStep shutdownSlot sweep).map fun r =>
    { r.1 with shutdown := (r.2.map ShutdownPc.sweeping).getD .closeStop }
  | .closeStop => some { l with stopped := true, shutdown := .wait }
  | .wait => if l.ticker = .exited then some { l with shutdown := .returned } else none
  | _ => none

/-- The ids in the table with the clients of their connections. -/
def registered (l : Lane) : Multiset Expiry :=
  l.manager.conns.entries.map fun e => (e.1, (l.manager.relayConns e.2).clientID)

def step (l : Lane) : LaneStep → Option Lane
  | .openCall clientID request => some { l with
      opened := l.opened + 1
      opens := update l.opens l.opened ⟨clientID, request, .check⟩ }
  | .opener k ok raw now =>
    (l.manager.openStep k (l.opens k) ok raw now).map fun r => { l with
      manager := r.1
      opens := update l.opens k { l.opens k with pc := r.2 } }
  | .reader k data err now =>
    (l.manager.loopStep k .reader (.reader data err) now).map fun manager => { l with manager }
  | .writer k ok n now =>
    (l.manager.loopStep k .writer (.writer ok n) now).map fun manager => { l with manager }
  | .onClosed k => (l.manager.onClosedStep k).map fun manager => { l with manager }
  | .call i clientID connID operation =>
    if shutdownSlot < i ∧ (l.calls i).isNone then
      some (l.setCall i (some ⟨clientID, connID, operation, .lookup⟩))
    else none
  | .caller i now =>
    (l.calls i).bind fun call => (l.manager.callStep i call now).map fun r =>
      { l with manager := r.1 }.setCall i (some { call with phase := r.2 })
  | .tick order =>
    if l.ticker = .waiting ∧ ↑order = l.manager.ttlStore.wheel.callbacks then
      some { l with
        manager := { l.manager with ttlStore := l.manager.ttlStore.tick }
        ticker := .sweeping (.next order) }
    else none
  | .ticker => l.tickerStep
  | .exit => if l.ticker = .waiting ∧ l.stopped then some { l with ticker := .exited } else none
  | .shutdown order =>
    if l.shutdown = .notCalled ∧ ↑order = l.registered then
      some { l with shutdown := .sweeping (.next order) }
    else none
  | .shutdowner => l.shutdownStep

/-- A minute of idle time and windows of 64 KiB. -/
def plainConfig : ManagerConfig := ⟨60000000000, 65536, 65536⟩

/-- The id drawn from ten times the same byte. -/
def plainID (byte : UInt8) : Bytes := newConnID (List.replicate 10 byte)

/-- The `k`-th `Open` from its call to its return, when everything succeeds. -/
def openRun (k : ℕ) (clientID : Bytes) (byte : UInt8) : List LaneStep :=
  .openCall clientID ⟨ascii "tcp", ascii "host", 80⟩ ::
    List.replicate 7 (.opener k true (List.replicate 10 byte) 0)

end Lane
end VlfProto.Relay
