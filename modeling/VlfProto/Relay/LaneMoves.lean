import VlfProto.Relay.ManagerMoves

/-! # What the steps of the relay lane may change -/

namespace VlfProto.Relay
open Platform Transition Function Option

namespace Lane

variable {l l' : Lane} {label : LaneStep}

/-- The step `label` of the lane may contain this step of the connection at
position `k`: a loop of the connection takes its own, a call one of its caller. -/
def Drives (l : Lane) (label : LaneStep) (k : ℕ) (g : Goroutine) (step : ConnStep) : Prop :=
  (g = .reader ∧ ∃ data err, step = .reader data err) ∨
  (g = .writer ∧ ∃ ok n, step = .writer ok n) ∨
  ∃ i now call, label = .caller i now ∧ g = .caller i ∧ step.slot = some i ∧
    l.calls i = some call ∧ l.manager.Reaches call k

@[simp] theorem setCall_calls (l : Lane) (i j : ℕ) (call : Option Call) :
    (l.setCall i call).calls j = if j = i then call else l.calls j :=
  update_apply ..

/-- A series of closes moves only its own slot, in which it makes or takes back a
call. -/
theorem sweepStep_moves {i : ℕ} {sweep : Sweep} {r : Lane × Option Sweep}
    (h : l.sweepStep i sweep = some r) : r.1 = l ∨
      ∃ call, r.1 = l.setCall i call ∧ ∀ c, call = some c → c.phase = .lookup := by
  rcases sweep with (_ | ⟨⟨connID, clientID⟩, rest⟩) | rest
  · cases h
    exact .inl rfl
  · cases h
    refine .inr ⟨_, rfl, ?_⟩
    rintro c ⟨⟩
    rfl
  · obtain ⟨-, rfl⟩ := of_guard h
    refine .inr ⟨_, rfl, ?_⟩
    rintro c ⟨⟩

/-- The manager and the opens are the same, and so are all slots but one, in which
a call has been made or taken back. -/
structure OwnSlot (l l' : Lane) (slot : ℕ) : Prop where
  manager : l'.manager = l.manager
  opens : l'.opens = l.opens
  opened : l'.opened = l.opened
  calls : ∀ i, l'.calls i = l.calls i ∨
    i = slot ∧ ∀ call, l'.calls i = some call → call.phase = .lookup

theorem ownSlot_of_sweepStep {i : ℕ} {sweep : Sweep} {r : Lane × Option Sweep}
    (h : l.sweepStep i sweep = some r) : l.OwnSlot r.1 i := by
  rcases sweepStep_moves h with hr | ⟨call, hr, hlookup⟩
  · rw [hr]
    exact ⟨rfl, rfl, rfl, fun _ => .inl rfl⟩
  · rw [hr]
    refine ⟨rfl, rfl, rfl, fun j => ?_⟩
    by_cases hj : j = i
    · right
      rw [setCall_calls, if_pos hj]
      exact ⟨hj, hlookup⟩
    · left
      rw [setCall_calls, if_neg hj]

theorem tickerStep_ownSlot (h : l.tickerStep = some l') : l.OwnSlot l' tickerSlot := by
  unfold tickerStep at h
  split at h
  · obtain ⟨r, hsweep, rfl⟩ := map_eq_some_iff.mp h
    have hslot := ownSlot_of_sweepStep hsweep
    exact ⟨hslot.manager, hslot.opens, hslot.opened, hslot.calls⟩
  · cases h

theorem shutdownStep_ownSlot (h : l.shutdownStep = some l') : l.OwnSlot l' shutdownSlot := by
  unfold shutdownStep at h
  split at h
  · obtain ⟨r, hsweep, rfl⟩ := map_eq_some_iff.mp h
    have hslot := ownSlot_of_sweepStep hsweep
    exact ⟨hslot.manager, hslot.opens, hslot.opened, hslot.calls⟩
  · cases h
    exact ⟨rfl, rfl, rfl, fun _ => .inl rfl⟩
  · obtain ⟨-, rfl⟩ := of_guard h
    exact ⟨rfl, rfl, rfl, fun _ => .inl rfl⟩
  · cases h

/-- What the parts of a step keep of the manager and the opens, the step keeps. -/
theorem step_rule {P : Manager → (ℕ → OpenCall) → ℕ → Prop} (h : l.step label = some l')
    (hl : P l.manager l.opens l.opened)
    (hopen : ∀ clientID request, P l.manager
      (update l.opens l.opened ⟨clientID, request, .check⟩) (l.opened + 1))
    (hopener : ∀ k ok raw now m pc, label = .opener k ok raw now →
      l.manager.OpenMove k (l.opens k) ok raw m pc →
      P m (update l.opens k { l.opens k with pc }) l.opened)
    (hconn : ∀ k g step now m₁ m₂, l.Drives label k g step → P m₁ l.opens l.opened →
      m₁.connStep k g step now = some m₂ → P m₂ l.opens l.opened)
    (honClosed : ∀ k m, l.manager.onClosedStep k = some m → P m l.opens l.opened)
    (hcharge : ∀ (m : Manager) clientID n now, P m l.opens l.opened →
      P { m with limits := (m.limits.allowRelayBytes clientID n now).1 } l.opens l.opened)
    (hnote : ∀ (m : Manager) k now, P m l.opens l.opened →
      P (m.setRelayConn k { m.relayConns k with lastActive := now }) l.opens l.opened)
    (htouch : ∀ (m m' : Manager) connID now, P m l.opens l.opened →
      m.touch connID now = some m' → P m' l.opens l.opened)
    (htick : ∀ order, label = .tick order → l.ticker = .waiting →
      P { l.manager with ttlStore := l.manager.ttlStore.tick } l.opens l.opened) :
    P l'.manager l'.opens l'.opened := by
  cases label with
  | openCall clientID request =>
    cases h
    exact hopen clientID request
  | opener k ok raw now =>
    obtain ⟨⟨m, pc⟩, hstep, rfl⟩ := map_eq_some_iff.mp h
    exact hopener k ok raw now m pc rfl (Manager.openStep_move hstep)
  | reader k data err now =>
    obtain ⟨m, hstep, rfl⟩ := map_eq_some_iff.mp h
    obtain ⟨-, hstep⟩ := ite_none_left_eq_some.mp hstep
    exact hconn k _ _ now _ _ (.inl ⟨rfl, data, err, rfl⟩) hl hstep
  | writer k ok n now =>
    obtain ⟨m, hstep, rfl⟩ := map_eq_some_iff.mp h
    obtain ⟨-, hstep⟩ := ite_none_left_eq_some.mp hstep
    exact hconn k _ _ now _ _ (.inr (.inl ⟨rfl, ok, n, rfl⟩)) hl hstep
  | onClosed k =>
    obtain ⟨m, hstep, rfl⟩ := map_eq_some_iff.mp h
    exact honClosed k m hstep
  | call i clientID connID operation | exit | shutdown order =>
    obtain ⟨-, rfl⟩ := of_guard h
    exact hl
  | caller i now =>
    obtain ⟨call, hcall, h⟩ := bind_eq_some_iff.mp h
    obtain ⟨⟨m, phase⟩, hstep, rfl⟩ := map_eq_some_iff.mp h
    have hP : P m l.opens l.opened :=
      Manager.callStep_rule hstep hl
        (fun k m₁ m₂ step hslot hreach => hconn k _ step now m₁ m₂
          (.inr (.inr ⟨i, now, call, rfl, rfl, hslot, hcall, hreach⟩)))
        (fun m₁ n => hcharge m₁ _ n now) (fun k m₁ => hnote m₁ k _)
        (fun m₁ m₂ => htouch m₁ m₂ _ now)
    exact hP
  | tick order =>
    obtain ⟨⟨hwaiting, -⟩, rfl⟩ := of_guard h
    exact htick order rfl hwaiting
  | ticker =>
    have hslot := tickerStep_ownSlot h
    rw [hslot.manager, hslot.opens, hslot.opened]
    exact hl
  | shutdowner =>
    have hslot := shutdownStep_ownSlot h
    rw [hslot.manager, hslot.opens, hslot.opened]
    exact hl

/-- What a step does to a slot: nothing, one step of its call, or a call is made in
it or taken back. -/
theorem step_calls (h : l.step label = some l') (i : ℕ) :
    l'.calls i = l.calls i ∨
    (∃ now call m phase, label = .caller i now ∧ l.calls i = some call ∧
      l.manager.callStep i call now = some (m, phase) ∧
      l'.calls i = some { call with phase }) ∨
    (∃ clientID connID operation, label = .call i clientID connID operation ∧ shutdownSlot < i ∧
      l.calls i = none ∧ l' = l.setCall i (some ⟨clientID, connID, operation, .lookup⟩)) ∨
    ((label = .ticker ∨ label = .shutdowner) ∧ i ≤ shutdownSlot ∧
      ∀ call, l'.calls i = some call → call.phase = .lookup) := by
  cases label with
  | openCall clientID request =>
    cases h
    exact .inl rfl
  | opener k ok raw now =>
    obtain ⟨r, -, rfl⟩ := map_eq_some_iff.mp h
    exact .inl rfl
  | reader k data err now | writer k ok n now | onClosed k =>
    obtain ⟨m, -, rfl⟩ := map_eq_some_iff.mp h
    exact .inl rfl
  | call j clientID connID operation =>
    obtain ⟨⟨hj, hfree⟩, rfl⟩ := of_guard h
    by_cases hij : i = j
    · subst hij
      exact .inr (.inr (.inl ⟨_, _, _, rfl, hj, isNone_iff_eq_none.mp hfree, rfl⟩))
    · exact .inl (by simp [hij])
  | caller j now =>
    obtain ⟨call, hcall, h⟩ := bind_eq_some_iff.mp h
    obtain ⟨⟨m, phase⟩, hstep, rfl⟩ := map_eq_some_iff.mp h
    by_cases hij : i = j
    · subst hij
      exact .inr (.inl ⟨now, call, m, phase, rfl, hcall, hstep, by simp⟩)
    · exact .inl (by simp [hij])
  | tick order | exit | shutdown order =>
    obtain ⟨-, rfl⟩ := of_guard h
    exact .inl rfl
  | ticker =>
    rcases (tickerStep_ownSlot h).calls i with hsame | ⟨hi, hlookup⟩
    · exact .inl hsame
    · exact .inr (.inr (.inr ⟨.inl rfl, by rw [hi]; decide, hlookup⟩))
  | shutdowner =>
    rcases (shutdownStep_ownSlot h).calls i with hsame | ⟨hi, hlookup⟩
    · exact .inl hsame
    · exact .inr (.inr (.inr ⟨.inr rfl, hi.le, hlookup⟩))

end Lane
end VlfProto.Relay
