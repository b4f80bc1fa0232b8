import VlfProto.Relay.Lane
import VlfProto.Relay.Frame

/-! # What `Open` and the calls do to the manager -/

namespace VlfProto.Relay
open Platform Transition Function Option

namespace OpenPc

/-- The connection object exists. -/
def created : OpenPc → Bool
  | .insert => true
  | .add => true
  | .start => true
  | .finished (.ok _) => true
  | _ => false

/-- The connection has been entered into the table. -/
def inserted : OpenPc → Bool
  | .add => true
  | .start => true
  | .finished (.ok _) => true
  | _ => false

/-- A slot is reserved for a connection that is not in the table yet. -/
def reserved : OpenPc → Bool
  | .dial => true
  | .newConnID => true
  | .release _ => true
  | .insert => true
  | _ => false

theorem created_of_inserted {pc : OpenPc} (h : pc.inserted) : pc.created := by
  cases pc with
  | finished result => cases result <;> exact h
  | _ => first | rfl | cases h

theorem not_inserted {pc : OpenPc} (h : pc.created = false) : pc.inserted = false := by
  by_contra hinserted
  simp [created_of_inserted (by simpa using hinserted)] at h

end OpenPc

/-- The connection a call works on. -/
def Phase.position : Phase → Option ℕ
  | .within k => some k
  | .pingClosed k => some k
  | .pingStore k => some k
  | .pingTouch k => some k
  | .pingExpires k => some k
  | _ => none

/-- The caller of the connection that a step is about. -/
def ConnStep.slot : ConnStep → Option ℕ
  | .call i _ => some i
  | .caller i _ => some i
  | .collect i => some i
  | _ => none

namespace Manager

variable {m m' : Manager} {i k : ℕ} {g : Goroutine} {label : ConnStep} {call : Call}
  {phase : Phase} {now : ℤ}

@[simp] theorem setRelayConn_self (m : Manager) (k : ℕ) (rc : RelayConn) :
    (m.setRelayConn k rc).relayConns k = rc := update_self ..

theorem setRelayConn_of_ne (m : Manager) {j k : ℕ} (rc : RelayConn) (hj : j ≠ k) :
    (m.setRelayConn k rc).relayConns j = m.relayConns j := update_of_ne hj ..

/-- What a step of one connection changes in the manager. -/
structure ConnMoves (m m' : Manager) (k : ℕ) (g : Goroutine) (label : ConnStep) : Prop where
  conn : (m.relayConns k).conn.step label = some (m'.relayConns k).conn
  id : (m'.relayConns k).id = (m.relayConns k).id
  clientID : (m'.relayConns k).clientID = (m.relayConns k).clientID
  others : ∀ j, j ≠ k → m'.relayConns j = m.relayConns j
  cfg : m'.cfg = m.cfg
  limits : m'.limits = m.limits
  ttlStore : m'.ttlStore = m.ttlStore
  stays : ((m.relayConns k).conn.registered → (m'.relayConns k).conn.registered) →
    m'.conns = m.conns ∧ (m'.relayConns k).onClosed = (m.relayConns k).onClosed
  leaves : (m.relayConns k).conn.registered → (m'.relayConns k).conn.registered = false →
    (m.conns.lookup (m.relayConns k).id = none ∧ m'.conns = m.conns ∧
      (m'.relayConns k).onClosed = .returned) ∨
    ((m.conns.lookup (m.relayConns k).id).isSome ∧
      m'.conns = m.conns.erase (m.relayConns k).id ∧
      (m'.relayConns k).onClosed = .deleteTimer g)

theorem connStep_moves (h : m.connStep k g label now = some m') : m.ConnMoves m' k g label := by
  obtain ⟨conn, hstep, rfl⟩ := map_eq_some_iff.mp h
  by_cases hreg : (m.relayConns k).conn.registered ∧ ¬conn.registered
  · have hstays {p : Prop} : ((m.relayConns k).conn.registered → conn.registered) → p :=
      fun hstay => absurd (hstay hreg.1) hreg.2
    dsimp only
    rw [if_pos hreg, takeOut, setRelayConn_self]
    dsimp only [setRelayConn]
    cases hlookup : m.conns.lookup (m.relayConns k).id with
    | none | some j =>
      constructor <;> simp +contextual [hstep, update_of_ne, hlookup]
      exact hstays
  · dsimp only
    rw [if_neg hreg]
    constructor <;> simp +contextual [setRelayConn, hstep, update_of_ne]
    intro hin hout
    simp [hin, hout] at hreg

theorem note_fields (m : Manager) (j k : ℕ) (time : ℤ) :
    let rc := (m.setRelayConn j { m.relayConns j with lastActive := time }).relayConns k
    rc.id = (m.relayConns k).id ∧ rc.clientID = (m.relayConns k).clientID ∧
      rc.conn = (m.relayConns k).conn ∧ rc.onClosed = (m.relayConns k).onClosed := by
  by_cases hk : k = j
  · subst hk
    rw [setRelayConn_self]
    exact ⟨rfl, rfl, rfl, rfl⟩
  · rw [setRelayConn_of_ne m _ hk]
    exact ⟨rfl, rfl, rfl, rfl⟩

/-- The rest of `onConnClosed` drops the timer and then gives the slot back. -/
theorem onClosedStep_cases (h : m.onClosedStep k = some m') :
    (∃ g, (m.relayConns k).onClosed = .deleteTimer g ∧
      m' = { m with ttlStore := (m.ttlStore.delete (m.relayConns k).id).2 }.setRelayConn k
        { m.relayConns k with onClosed := .release g }) ∨
    (∃ g, (m.relayConns k).onClosed = .release g ∧
      m' = { m with limits :=
          m.limits.releaseRelayConn (m.relayConns k).clientID }.setRelayConn k
        { m.relayConns k with onClosed := .returned }) := by
  cases hpc : (m.relayConns k).onClosed <;>
    simp only [onClosedStep, hpc, some.injEq, reduceCtorEq] at h
  case deleteTimer g => exact .inl ⟨g, rfl, h.symm⟩
  case release g => exact .inr ⟨g, rfl, h.symm⟩

/-- What a step of the `k`-th `Open` does, with `ok` the outcome of what it asks for
and `raw` from the random source. -/
inductive OpenMove (m : Manager) (k : ℕ) (o : OpenCall) (ok : Bool) (raw : Bytes) :
    Manager → OpenPc → Prop
  | stays (pc : OpenPc) (hcalled : o.pc ≠ .notCalled)
      (hreserved : pc.reserved = o.pc.reserved) (hbefore : o.pc.created = false)
      (hafter : pc.created = false) : OpenMove m k o ok raw m pc
  | reserves (limits : Limits.Manager) (hpc : o.pc = .reserve)
      (hlimits : m.limits.reserveRelayConn o.clientID = .ok limits) :
      OpenMove m k o ok raw { m with limits } .dial
  | creates (now : ℤ) (hpc : o.pc = .newConnID) (hok : ok) : OpenMove m k o ok raw
      (m.setRelayConn k (.new (newConnID raw) o.clientID m.cfg now)) .insert
  | releases (err : OpenError) (hpc : o.pc = .release err) : OpenMove m k o ok raw
      { m with limits := m.limits.releaseRelayConn o.clientID } (.finished (.error err))
  | inserts (hpc : o.pc = .insert) :
      OpenMove m k o ok raw { m with conns := m.conns.insert (m.relayConns k).id k } .add
  | adds (ttlStore : Store.RelayStore Expiry) (now : ℤ) (hpc : o.pc = .add)
      (hadd : m.ttlStore.add ⟨(m.relayConns k).id, o.clientID, now⟩ m.cfg.idleTimeout
        ((m.relayConns k).id, o.clientID) = some ttlStore) :
      OpenMove m k o ok raw { m with ttlStore } .start
  | starts (m' : Manager) (now : ℤ) (response : OpenResponse) (hpc : o.pc = .start)
      (hconn : m.connStep k .reader .start now = some m') :
      OpenMove m k o ok raw m' (.finished (.ok response))

theorem openStep_move {o : OpenCall} {ok : Bool} {raw : Bytes} {pc : OpenPc}
    (h : m.openStep k o ok raw now = some (m', pc)) : m.OpenMove k o ok raw m' pc := by
  cases hpc : o.pc <;> simp only [openStep, hpc, some.injEq, reduceCtorEq] at h
  case check =>
    cases h
    cases o.request.check <;> exact .stays _ (by simp [hpc]) (hpc ▸ rfl) (hpc ▸ rfl) rfl
  case reserve =>
    split at h
    · cases h
      exact .stays _ (by simp [hpc]) (hpc ▸ rfl) (hpc ▸ rfl) rfl
    · rename_i limits hlimits
      cases h
      exact .reserves limits hpc hlimits
  case dial =>
    cases h
    cases ok <;> exact .stays _ (by simp [hpc]) (hpc ▸ rfl) (hpc ▸ rfl) rfl
  case newConnID =>
    split_ifs at h with hok
    · cases h
      exact .creates now hpc hok
    · cases h
      exact .stays _ (by simp [hpc]) (hpc ▸ rfl) (hpc ▸ rfl) rfl
  case release err =>
    cases h
    exact .releases err hpc
  case insert =>
    cases h
    exact .inserts hpc
  case add =>
    obtain ⟨ttlStore, hadd, hpair⟩ := map_eq_some_iff.mp h
    cases hpair
    exact .adds ttlStore now hpc hadd
  case start =>
    obtain ⟨m₁, hconn, hpair⟩ := map_eq_some_iff.mp h
    obtain ⟨rfl, rfl⟩ := Prod.mk.inj hpair
    exact .starts m₁ now _ hpc hconn

/-- The call is given the connection at position `k`, or already has it. -/
def Reaches (m : Manager) (call : Call) (k : ℕ) : Prop :=
  call.phase = .lookup ∧ m.getOwnedConn call.clientID call.connID = .ok k ∨
    call.phase.position = some k

theorem getOwnedConn_ok {clientID connID : Bytes} :
    m.getOwnedConn clientID connID = .ok k ↔
      m.conns.lookup connID = some k ∧ (m.relayConns k).clientID = clientID := by
  unfold getOwnedConn
  cases hlookup : m.conns.lookup connID with
  | none => simp
  | some j =>
    by_cases hclient : (m.relayConns j).clientID = clientID <;> simp [hclient]
    · rintro rfl
      exact hclient
    · rintro rfl
      exact hclient

section Rule

variable {P : Manager → Prop}

theorem callStep_rule (h : m.callStep i call now = some (m', phase)) (hm : P m)
    (hconn : ∀ k m₁ m₂ label, label.slot = some i → m.Reaches call k → P m₁ →
      m₁.connStep k (.caller i) label now = some m₂ → P m₂)
    (hcharge : ∀ m₁ n, P m₁ →
      P { m₁ with limits := (m₁.limits.allowRelayBytes call.clientID n now).1 })
    (hnote : ∀ k m₁, P m₁ →
      P (m₁.setRelayConn k { m₁.relayConns k with lastActive := RelayConn.milliseconds now }))
    (htouch : ∀ m₁ m₂, P m₁ → m₁.touch call.connID now = some m₂ → P m₂) : P m' := by
  unfold callStep at h
  cases hphase : call.phase
  case within k =>
    have hreach : m.Reaches call k := .inr (by rw [hphase]; rfl)
    simp only [hphase, withinStep] at h
    split at h
    · cases h
    split at h
    · split at h
      · obtain ⟨m₂, hboth, hpair⟩ := map_eq_some_iff.mp h
        cases hpair
        obtain ⟨m₁, hcaller, hcollect⟩ := bind_eq_some_iff.mp hboth
        exact hconn k _ _ _ rfl hreach (hconn k _ _ _ rfl hreach (hcharge m _ hm) hcaller) hcollect
      · obtain ⟨m₁, hcaller, hpair⟩ := map_eq_some_iff.mp h
        cases hpair
        exact hconn k _ _ _ rfl hreach (hcharge m _ hm) hcaller
    · obtain ⟨m₁, hcollect, hrest⟩ := bind_eq_some_iff.mp h
      obtain ⟨m₂, htimer, hpair⟩ := map_eq_some_iff.mp hrest
      cases hpair
      have hm₁ := hconn k _ _ _ rfl hreach hm hcollect
      split_ifs at htimer
      · exact htouch _ _ hm₁ htimer
      · exact some.inj htimer ▸ hm₁
    · obtain ⟨m₁, hcaller, hpair⟩ := map_eq_some_iff.mp h
      cases hpair
      exact hconn k _ _ _ rfl hreach hm hcaller
  case finished answer => simp [hphase] at h
  all_goals simp only [hphase] at h
  case lookup =>
    split at h
    · cases h
      exact hm
    · rename_i k hk
      have hreach : m.Reaches call k := .inl ⟨hphase, hk⟩
      unfold enter at h
      split at h
      · cases h
        exact hm
      · obtain ⟨m₂, hboth, hpair⟩ := map_eq_some_iff.mp h
        cases hpair
        obtain ⟨m₁, hcall, hcaller⟩ := bind_eq_some_iff.mp hboth
        exact hconn k _ _ _ rfl hreach (hconn k _ _ _ rfl hreach hm hcall) hcaller
  case pingStore k =>
    cases h
    exact hnote k m hm
  case pingTouch k =>
    obtain ⟨m₁, htimer, hpair⟩ := map_eq_some_iff.mp h
    cases hpair
    exact htouch _ _ hm htimer
  all_goals
    cases h
    exact hm

end Rule

theorem callStep_position (h : m.callStep i call now = some (m', phase))
    (hk : phase.position = some k) : m.Reaches call k := by
  unfold callStep at h
  cases hphase : call.phase
  case within j =>
    simp only [hphase, withinStep] at h
    right
    rw [hphase]
    split at h
    · cases h
    split at h
    · split at h
      all_goals
        obtain ⟨_, -, hpair⟩ := map_eq_some_iff.mp h
        cases hpair
        first | exact hk | cases hk
    · obtain ⟨_, -, hrest⟩ := bind_eq_some_iff.mp h
      obtain ⟨_, -, hpair⟩ := map_eq_some_iff.mp hrest
      cases hpair
      cases hk
    · obtain ⟨_, -, hpair⟩ := map_eq_some_iff.mp h
      cases hpair
      exact hk
  case finished answer => simp [hphase] at h
  all_goals simp only [hphase] at h
  case lookup =>
    split at h
    · cases h
      cases hk
    · rename_i j hj
      unfold enter at h
      split at h
      · cases h
        exact .inl ⟨hphase, some.inj hk ▸ hj⟩
      · obtain ⟨_, -, hpair⟩ := map_eq_some_iff.mp h
        cases hpair
        exact .inl ⟨hphase, some.inj hk ▸ hj⟩
  case pingClosed j =>
    cases h
    right
    rw [hphase]
    split_ifs at hk <;> exact hk
  case pingTouch j =>
    obtain ⟨_, -, hpair⟩ := map_eq_some_iff.mp h
    cases hpair
    exact .inr (by rw [hphase]; exact hk)
  case pingStore j =>
    cases h
    exact .inr (by rw [hphase]; exact hk)
  case pingExpires j =>
    cases h
    cases hk

end Manager

end VlfProto.Relay
