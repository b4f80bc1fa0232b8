import VlfProto.Platform.Table
import VlfProto.Platform.Text
import VlfProto.Platform.Clock

/-!
# The limits shared by the relay and the sessions

Relay connections are counted in total and per client. Bytes are charged to windows of a
minute that start with the first charge after the last one ran out, packets to whole seconds
of the clock. Every method runs under one lock, so each is one function of the state and of
the clock reading it takes.
-/
namespace VlfProto.Limits
open Platform Option

structure Config where
  maxConnsPerClient : ℤ
  maxTotalConns : ℤ
  maxBytesPerMinutePerClient : ℤ
  maxBytesPerMinutePerSession : ℤ
  maxUDPPPS : ℤ

structure ByteWindow where
  windowStart : ℤ
  bytes : ℤ

structure PPSWindow where
  secondStart : ℤ
  packets : ℤ

structure Manager where
  cfg : Config
  totalRelayConns : ℤ
  relayConnsByClient : Table Bytes ℤ
  relayBytesByClient : Table Bytes ByteWindow
  sessionBytes : Table UInt64 ByteWindow
  sessionPackets : Table UInt64 PPSWindow

inductive ConnLimitError where
  | maxConnsPerClient
  | maxTotalConns

/-- The figures that the error of a refused charge reports. -/
structure OverBudget where
  used : ℤ
  add : ℤ
  limit : ℤ
  deriving DecidableEq

def minute : ℤ := 60000000000
def second : ℤ := 1000000000

def ByteWindow.current (window : Option ByteWindow) (now : ℤ) : ByteWindow :=
  match window with
  | none => ⟨now, 0⟩
  | some w => if minute ≤ instantSub now w.windowStart then ⟨now, 0⟩ else w

/-- Charge `n` bytes to the window of a key. A refused charge leaves the window
that it would have gone to. -/
def chargeBytes {K : Type*} [DecidableEq K] (limit : ℤ) (windows : Table K ByteWindow) (key : K)
    (n now : ℤ) : Table K ByteWindow × Option OverBudget :=
  if n ≤ 0 then (windows, none)
  else
    let window := ByteWindow.current (windows.lookup key) now
    let sum := wrapInt64 (window.bytes + n)
    if 0 < limit ∧ limit < sum then (windows.insert key window, some ⟨window.bytes, n, limit⟩)
    else (windows.insert key { window with bytes := sum }, none)

/-- The window that a packet at the second `now` goes to. -/
def PPSWindow.current (window : Option PPSWindow) (now : ℤ) : PPSWindow :=
  match window with
  | none => ⟨now, 0⟩
  | some w => if w.secondStart ≠ now then ⟨now, 0⟩ else w

namespace Manager

def new (cfg : Config) : Manager where
  cfg
  totalRelayConns := 0
  relayConnsByClient := ∅
  relayBytesByClient := ∅
  sessionBytes := ∅
  sessionPackets := ∅

/-- The number of slots a client holds. -/
def relayConns (m : Manager) (clientID : Bytes) : ℤ :=
  (m.relayConnsByClient.lookup clientID).getD 0

def reserveRelayConn (m : Manager) (clientID : Bytes) : Except ConnLimitError Manager :=
  if 0 < m.cfg.maxTotalConns ∧ m.cfg.maxTotalConns ≤ m.totalRelayConns then
    .error .maxTotalConns
  else if 0 < m.cfg.maxConnsPerClient ∧ m.cfg.maxConnsPerClient ≤ m.relayConns clientID then
    .error .maxConnsPerClient
  else .ok { m with
    totalRelayConns := m.totalRelayConns + 1
    relayConnsByClient := m.relayConnsByClient.insert clientID (m.relayConns clientID + 1) }

def releaseRelayConn (m : Manager) (clientID : Bytes) : Manager :=
  { m with
    totalRelayConns := if 0 < m.totalRelayConns then m.totalRelayConns - 1 else m.totalRelayConns
    relayConnsByClient :=
      if 1 < m.relayConns clientID then
        m.relayConnsByClient.insert clientID (m.relayConns clientID - 1)
      else m.relayConnsByClient.erase clientID }

def allowRelayBytes (m : Manager) (clientID : Bytes) (n now : ℤ) : Manager × Option OverBudget :=
  let (relayBytesByClient, refused) :=
    chargeBytes m.cfg.maxBytesPerMinutePerClient m.relayBytesByClient clientID n now
  ({ m with relayBytesByClient }, refused)

def allowSessionBytes (m : Manager) (sessionID : UInt64) (n now : ℤ) :
    Manager × Option OverBudget :=
  let (sessionBytes, refused) :=
    chargeBytes m.cfg.maxBytesPerMinutePerSession m.sessionBytes sessionID n now
  ({ m with sessionBytes }, refused)

/-- The flag tells whether the packet may pass. -/
def allowUDPPacket (m : Manager) (sessionID : UInt64) (now : ℤ) : Manager × Bool :=
  let now := now - now % second
  let window := PPSWindow.current (m.sessionPackets.lookup sessionID) now
  if 0 < m.cfg.maxUDPPPS ∧ m.cfg.maxUDPPPS ≤ window.packets then
    ({ m with sessionPackets := m.sessionPackets.insert sessionID window }, false)
  else
    ({ m with sessionPackets :=
        m.sessionPackets.insert sessionID { window with packets := window.packets + 1 } }, true)

def cleanupSession (m : Manager) (sessionID : UInt64) : Manager :=
  { m with
    sessionBytes := m.sessionBytes.erase sessionID
    sessionPackets := m.sessionPackets.erase sessionID }

variable {m m' : Manager} {clientID : Bytes}

theorem reserveRelayConn_ok (h : m.reserveRelayConn clientID = .ok m') :
    (0 < m.cfg.maxTotalConns → m.totalRelayConns < m.cfg.maxTotalConns) ∧
    (0 < m.cfg.maxConnsPerClient → m.relayConns clientID < m.cfg.maxConnsPerClient) ∧
    m'.cfg = m.cfg ∧ m'.totalRelayConns = m.totalRelayConns + 1 ∧
    ∀ client, m'.relayConns client =
      m.relayConns client + if client = clientID then 1 else 0 := by
  unfold reserveRelayConn at h
  split_ifs at h with htotal hclient
  obtain rfl := Except.ok.inj h
  refine ⟨fun hpos => ?_, fun hpos => ?_, rfl, rfl, fun client => ?_⟩
  · exact not_le.mp fun hle => htotal ⟨hpos, hle⟩
  · exact not_le.mp fun hle => hclient ⟨hpos, hle⟩
  · have hlookup := m.relayConnsByClient.lookup_insert_eq clientID client
      (m.relayConns clientID + 1)
    unfold relayConns at hlookup ⊢
    rw [hlookup]
    split_ifs with heq
    · rw [heq, getD_some]
    · rw [add_zero]

/-- Releasing a slot that is held gives it back; the clamps do not act. -/
theorem releaseRelayConn_eq (htotal : 0 < m.totalRelayConns) (hclient : 0 < m.relayConns clientID) :
    (m.releaseRelayConn clientID).totalRelayConns = m.totalRelayConns - 1 ∧
    ∀ client, (m.releaseRelayConn clientID).relayConns client =
      m.relayConns client - if client = clientID then 1 else 0 := by
  refine ⟨if_pos htotal, fun client => ?_⟩
  change (Finmap.lookup client (if 1 < m.relayConns clientID then
    m.relayConnsByClient.insert clientID (m.relayConns clientID - 1)
    else m.relayConnsByClient.erase clientID)).getD 0 = _
  by_cases hmore : 1 < m.relayConns clientID
  · rw [if_pos hmore, Table.lookup_insert_eq]
    split_ifs with heq
    · rw [heq, getD_some]
    · rw [sub_zero, relayConns]
  · rw [if_neg hmore, Table.lookup_erase_eq]
    split_ifs with heq
    · rw [heq, getD_none]
      omega
    · rw [sub_zero, relayConns]

end Manager
end VlfProto.Limits
