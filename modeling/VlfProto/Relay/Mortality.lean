import VlfProto.Relay.TimelyRun

/-! # No immortal connection -/

namespace VlfProto.Relay
open Platform Transition Option

namespace Manager

variable {m : Manager} {k : ℕ}

/-- The timer of the connection stands in exactly the slot that it records, and
closes the connection. -/
def InItsSlot (m : Manager) (k : ℕ) : Prop :=
  ∃ entry, m.ttlStore.wheel.entries.lookup (Store.relayKey (m.relayConns k).id) = some entry ∧
    entry.callback = some (m.expiry k) ∧ entry.slot < m.ttlStore.wheel.slotCount ∧
    ∀ i, (m.ttlStore.wheel.slots i).lookup (Store.relayKey (m.relayConns k).id) =
      if i = entry.slot then some entry else none

/-- No timer of the connection is in the wheel. -/
def NotArmed (m : Manager) (k : ℕ) : Prop :=
  m.ttlStore.wheel.entries.lookup (Store.relayKey (m.relayConns k).id) = none ∧
    ∀ i, (m.ttlStore.wheel.slots i).lookup (Store.relayKey (m.relayConns k).id) = none

theorem Armed.inItsSlot (h : m.Armed k) (hw : m.ttlStore.wheel.WellFormed) : m.InItsSlot k := by
  obtain ⟨entry, hentry, hcallback⟩ := map_eq_some_iff.mp h
  refine ⟨entry, hentry, hcallback, (hw.entry_bounds _ entry hentry).1, fun i => ?_⟩
  rw [hw.slot_lookup, hentry, bind_some]
  by_cases hi : entry.slot = i
  · rw [if_pos hi, if_pos hi.symm]
  · rw [if_neg hi, if_neg (Ne.symm hi)]

end Manager

namespace Lane

variable {l : Lane} {k : ℕ}

/-- The expiry callback of the connection has been taken off the wheel and has not
returned: it waits for its turn, or the ticker runs it. -/
def CallbackUnfinished (l : Lane) (k : ℕ) : Prop :=
  l.manager.expiry k ∈ l.ticker.queue ∨
  l.ticker.awaits ∧ l.callFinished tickerSlot = false ∧ ∃ call, l.calls tickerSlot = some call ∧
    call.operation = .close ∧ (call.connID, call.clientID) = l.manager.expiry k

/-- The once-cell of `Close` has been entered and not left, or `onConnClosed` runs. -/
def Closing (l : Lane) (k : ℕ) : Prop :=
  (l.manager.relayConns k).conn.once ≠ .idle ∧ (l.manager.relayConns k).conn.once ≠ .done ∨
    (l.manager.relayConns k).onClosed.running.isSome

theorem Expiring.callbackUnfinished (h : l.Expiring k) : l.CallbackUnfinished k := by
  rcases h with hqueued | ⟨hawaits, ⟨clientID, connID, operation, phase⟩, hcall, hid, hclient,
    hoperation, hphase⟩
  · exact .inl hqueued
  · refine .inr ⟨hawaits, ?_, _, hcall, hoperation, Prod.ext hid hclient⟩
    rcases hphase with rfl | ⟨rfl, -⟩ <;> simp [callFinished, hcall]

/-- A timer that is still armed belongs to a connection whose `onConnClosed` has
not dropped it. -/
theorem Timely.notArmed (hl : l.Timely) (hk : (l.opens k).pc.created)
    (htimed : (l.manager.relayConns k).onClosed.timed = false) : l.manager.NotArmed k := by
  have hnone : l.manager.ttlStore.wheel.entries.lookup
      (Store.relayKey (l.manager.relayConns k).id) = none := by
    rw [← Store.Wheel.armedFor_eq_none, eq_none_iff_forall_ne_some]
    intro callback harmed
    obtain ⟨j, -, hkey, -, hfiled⟩ := hl.timers.armed _ callback harmed
    obtain ⟨i, hi, hid, hitimed⟩ := hl.timers.filed _ hfiled
    have hik : i = k := hl.inOrder.sound.distinct i k
      (OpenPc.created_of_inserted (OpenPc.inserted_of_added hi)) hk
      (hid.trans (Store.relayKey_inj.mp hkey).symm)
    rw [hik, htimed] at hitimed
    cases hitimed
  refine ⟨hnone, fun i => ?_⟩
  rw [hl.timers.wheel.slot_lookup, hnone, bind_none]

/-- When ids are drawn fresh and used only after `Open` has returned them, a connection in the
table that `Open` has returned is timed, has an unfinished expiry callback, or is closing; one
that is neither in the table nor closing has no timer. -/
theorem no_immortal_conn {cfg : ManagerConfig} {limits : Limits.Config} {labels : List LaneStep}
    (hpath : Path step Orderly (new cfg limits) labels l) :
    (∀ connID k, l.manager.conns.lookup connID = some k → (l.opens k).pc.returned →
      (l.manager.relayConns k).id = connID ∧
      (l.manager.InItsSlot k ∨ l.CallbackUnfinished k ∨
        (l.manager.relayConns k).conn.once ≠ .idle)) ∧
    ∀ k, (l.opens k).pc.inserted →
      l.manager.conns.lookup (l.manager.relayConns k).id ≠ some k → ¬l.Closing k →
      l.manager.NotArmed k := by
  have hl := path_timely hpath
  constructor
  · intro connID k hk hreturned
    refine ⟨(hl.inOrder.sound.entry connID k hk).2, ?_⟩
    by_cases hidle : (l.manager.relayConns k).conn.once = .idle
    · have hopen := hl.inOrder.sound.unlisted connID k hk
      rcases hl.expires k (OpenPc.added_of_returned hreturned) hopen hidle with harmed | hexpiring
      · exact .inl (harmed.inItsSlot hl.timers.wheel)
      · exact .inr (.inl hexpiring.callbackUnfinished)
    · exact .inr (.inr hidle)
  · intro k hinserted hgone hclosing
    apply hl.notArmed (OpenPc.created_of_inserted hinserted)
    cases hclosed : (l.manager.relayConns k).onClosed with
    | notCalled => exact absurd (hl.inOrder.sound.listed k hinserted hclosed) hgone
    | deleteTimer g => exact absurd (.inr (by rw [hclosed]; rfl)) hclosing
    | release g | returned => rfl

/-- Connections expire after a second. -/
def secondConfig : ManagerConfig := ⟨1000000000, 65536, 65536⟩

/-- A client opens a connection and pings it, and then its timer runs out. -/
def expiringRun : List LaneStep :=
  openRun 0 (ascii "a") 0 ++ [.call 2 (ascii "a") (plainID 0) .ping] ++
    List.replicate 4 (.caller 2 0) ++ [.tick [(plainID 0, ascii "a")]]

theorem expiringRun_mortal : ∃ l,
    Path step Orderly (new secondConfig ⟨0, 0, 0, 0, 0⟩) expiringRun l ∧
    l.manager.conns.lookup (plainID 0) = some 0 ∧ (l.opens 0).pc.returned ∧
    l.manager.ttlStore.wheel.entries.lookup (Store.relayKey (plainID 0)) = none ∧
    (l.manager.InItsSlot 0 ∨ l.CallbackUnfinished 0 ∨
      (l.manager.relayConns 0).conn.once ≠ .idle) := by
  refine Path.exists_of_run_imp (P := fun l => l.manager.conns.lookup (plainID 0) = some 0 ∧
      (l.opens 0).pc.returned ∧
      l.manager.ttlStore.wheel.entries.lookup (Store.relayKey (plainID 0)) = none)
    (by decide +kernel) fun l hpath ⟨hlisted, hreturned, hnone⟩ => ?_
  exact ⟨hlisted, hreturned, hnone,
    ((no_immortal_conn hpath).1 (plainID 0) 0 hlisted hreturned).2⟩

end Lane
end VlfProto.Relay
