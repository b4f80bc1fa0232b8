import VlfProto.Limits.Manager
import VlfProto.Store.RelayStore
import VlfProto.Relay.Conn

/-!
# The relay manager

The manager keeps the relay connections in a table by id, a timer for each of them in the
store, and its slots in the limits. The connection that the `k`-th `Open` creates is the
object at position `k`, so two connections of one id are still two objects. `onConnClosed`
takes a connection out of the table, drops its timer and gives its slot back, and only then
does anybody return from `Close`.
-/
namespace VlfProto.Relay
open Platform Transition

structure OpenRequest where
  proto : Bytes
  dstHost : Bytes
  dstPort : ℤ

structure OpenResponse where
  connID : Bytes
  expiresInMS : ℤ
  recvWindow : ℤ
  sendWindow : ℤ

inductive OpenError where
  | unsupportedProto (proto : Bytes)
  | badDestination
  | limit (err : Limits.ConnLimitError)
  | dial
  | connID

inductive LookupError where
  | unknownConn
  | forbidden

structure ManagerConfig where
  idleTimeout : Duration
  recvWindow : ℤ
  sendWindow : ℤ

/-- The next action of `onConnClosed`, with the goroutine that runs it. -/
inductive OnClosedPc where
  | notCalled
  | deleteTimer (g : Goroutine)
  | release (g : Goroutine)
  | returned
  deriving DecidableEq

def OnClosedPc.running : OnClosedPc → Option Goroutine
  | .deleteTimer g => some g
  | .release g => some g
  | _ => none

/-- A connection object; `lastActive` is in milliseconds. -/
structure RelayConn where
  id : Bytes
  clientID : Bytes
  conn : Conn
  lastActive : ℤ
  onClosed : OnClosedPc

/-- What a timer calls when it expires: `Close` with this id and this client. -/
abbrev Expiry := Bytes × Bytes

structure Manager where
  cfg : ManagerConfig
  limits : Limits.Manager
  ttlStore : Store.RelayStore Expiry
  conns : Table Bytes ℕ
  relayConns : ℕ → RelayConn

/-- The steps after which a connection notes the time. -/
def Conn.touches (c : Conn) : ConnStep → Bool
  | .reader data _ => c.reader = .read ∧ data ≠ []
  | .writer ok _ =>
    match c.writer with
    | .write _ => ok
    | _ => false
  | .caller i _ =>
    match c.callers i with
    | .enqueueQueued accepted => 0 < accepted
    | .recvRead max => (c.downstream.read max).2.1 ≠ []
    | _ => false
  | _ => false

def Conn.atClose (c : Conn) : Goroutine → Bool
  | .reader => c.reader = .closing
  | .writer => false
  | .caller i =>
    match c.callers i with
    | .closing _ => true
    | _ => false

namespace RelayConn

def milliseconds (now : ℤ) : ℤ := now / 1000000

def new (id clientID : Bytes) (cfg : ManagerConfig) (now : ℤ) : RelayConn where
  id
  clientID
  conn := .new cfg.recvWindow cfg.sendWindow
  lastActive := milliseconds now
  onClosed := .notCalled

/-- The goroutine has to wait until `onConnClosed` returns, either because it runs
it or because it waits for the one that does. -/
def waits (rc : RelayConn) (g : Goroutine) : Bool :=
  match rc.onClosed.running with
  | some g' => g = g' || rc.conn.atClose g
  | none => false

def expiresInMS (rc : RelayConn) (idleTimeout : Duration) (now : ℤ) : ℤ :=
  let remaining := wrapInt64 (idleTimeout.toInt - instantSub now (unixMilli rc.lastActive))
  if remaining < 0 then 0 else remaining / 1000000

end RelayConn

def newConnID (raw : Bytes) : Bytes := ascii "c_" ++ hexEncode raw

def OpenRequest.check (request : OpenRequest) : Option OpenError :=
  if request.proto ≠ ascii "tcp" then some (.unsupportedProto request.proto)
  else if request.dstHost = [] ∨ request.dstPort ≤ 0 ∨ 65535 < request.dstPort then
    some .badDestination
  else none

namespace Manager

def new (cfg : ManagerConfig) (limits : Limits.Config) : Manager where
  cfg
  limits := .new limits
  ttlStore := Store.newRelayStore (Store.newWheel Expiry 1000000000 256)
  conns := ∅
  relayConns := fun _ => .new [] [] cfg 0

def setRelayConn (m : Manager) (k : ℕ) (rc : RelayConn) : Manager :=
  { m with relayConns := Function.update m.relayConns k rc }

def getOwnedConn (m : Manager) (clientID connID : Bytes) : Except LookupError ℕ :=
  match m.conns.lookup connID with
  | none => .error .unknownConn
  | some k => if (m.relayConns k).clientID ≠ clientID then .error .forbidden else .ok k

def touch (m : Manager) (connID : Bytes) (now : ℤ) : Option Manager :=
  (m.ttlStore.touch connID m.cfg.idleTimeout now).map fun r => { m with ttlStore := r.2 }

/-- The start of `onConnClosed`: take the connection out of the table. -/
def takeOut (m : Manager) (k : ℕ) (g : Goroutine) : Manager :=
  let rc := m.relayConns k
  match m.conns.lookup rc.id with
  | none => m.setRelayConn k { rc with onClosed := .returned }
  | some _ => { m with conns := m.conns.erase rc.id }.setRelayConn k
      { rc with onClosed := .deleteTimer g }

/-- The rest of `onConnClosed`. -/
def onClosedStep (m : Manager) (k : ℕ) : Option Manager :=
  let rc := m.relayConns k
  match rc.onClosed with
  | .deleteTimer g => some ({ m with ttlStore := (m.ttlStore.delete rc.id).2 }.setRelayConn k
      { rc with onClosed := .release g })
  | .release _ => some ({ m with limits := m.limits.releaseRelayConn rc.clientID }.setRelayConn k
      { rc with onClosed := .returned })
  | _ => none

/-- A step of goroutine `g` in the connection at position `k`. Where the body of
`Close` takes the connection out of the table, `onConnClosed` begins. -/
def connStep (m : Manager) (k : ℕ) (g : Goroutine) (label : ConnStep) (now : ℤ) :
    Option Manager :=
  let rc := m.relayConns k
  (rc.conn.step label).map fun conn =>
    let m := m.setRelayConn k { rc with
      conn
      lastActive := if rc.conn.touches label then RelayConn.milliseconds now else rc.lastActive }
    if rc.conn.registered ∧ ¬conn.registered then m.takeOut k g else m

/-- A step of one of the two loops. -/
def loopStep (m : Manager) (k : ℕ) (g : Goroutine) (label : ConnStep) (now : ℤ) :
    Option Manager :=
  if (m.relayConns k).waits g then none else m.connStep k g label now

end Manager
end VlfProto.Relay
