import VlfProto.Relay.Ownership

/-! # Clients of the relay lane do not meet -/

namespace VlfProto.Relay
open Platform Transition Option

/-- The steps of the calls in the dropped slots are left out. -/
def LaneStep.keeps (dropped : ℕ → Bool) : LaneStep → Bool
  | .call i _ _ _ => !dropped i
  | .caller i _ => !dropped i
  | _ => true

namespace Lane

variable {l l' : Lane} {label : LaneStep} {labels : List LaneStep} {i : ℕ} {call : Call}
  {dropped : ℕ → Bool} {clientID : Bytes}

/-- The table gives the client a connection under this id. -/
def Holds (l : Lane) (clientID connID : Bytes) : Prop :=
  ∃ k, l.manager.conns.lookup connID = some k ∧ (l.manager.relayConns k).clientID = clientID

/-- The slots of the client's calls that name ids it does not own. -/
def foreign (l : Lane) (clientID : Bytes) (i : ℕ) : Bool :=
  match l.calls i with
  | some call => decide (shutdownSlot < i) && call.clientID == clientID &&
      !l.owns clientID call.connID
  | none => false

def without (l : Lane) (dropped : ℕ → Bool) : Lane :=
  { l with calls := fun i => if dropped i then none else l.calls i }

theorem foreign_iff : l.foreign clientID i ↔ ∃ call, l.calls i = some call ∧ shutdownSlot < i ∧
    call.clientID = clientID ∧ l.owns clientID call.connID = false := by
  unfold foreign
  cases l.calls i <;> simp [and_assoc]

theorem owns_of_holds (hl : Filed l.manager l.opens l.opened) {connID : Bytes}
    (h : l.Holds clientID connID) : l.owns clientID connID := by
  obtain ⟨k, hk, hclient⟩ := h
  obtain ⟨hinserted, hid⟩ := hl.entry connID k hk
  have hcalled : (l.opens k).pc ≠ .notCalled := by
    intro hpc
    simp [hpc, OpenPc.inserted] at hinserted
  exact owns_iff.mpr ⟨k, hl.called k hcalled, OpenPc.created_of_inserted hinserted, hid, hclient⟩

theorem getOwnedConn_error {connID : Bytes} (h : ¬l.Holds clientID connID) :
    ∃ err, l.manager.getOwnedConn clientID connID = .error err := by
  cases howned : l.manager.getOwnedConn clientID connID with
  | error err => exact ⟨err, rfl⟩
  | ok k => exact absurd ⟨k, Manager.getOwnedConn_ok.mp howned⟩ h

theorem step_refused (hcall : l.calls i = some call) (hphase : call.phase = .lookup)
    (hholds : ¬l.Holds call.clientID call.connID) (now : ℤ) :
    ∃ err, l.manager.getOwnedConn call.clientID call.connID = .error err ∧
      l.step (.caller i now) = some (l.setCall i
        (some { call with phase := .finished (call.operation.refusal err) })) := by
  obtain ⟨err, herr⟩ := getOwnedConn_error hholds
  refine ⟨err, herr, ?_⟩
  simp [step, hcall, Manager.callStep, hphase, herr]

theorem step_call (h : l.step label = some l') (hi : shutdownSlot < i)
    (hcall : l.calls i = some call) : ∃ phase, l'.calls i = some { call with phase } := by
  rcases step_calls h i with hsame | ⟨_, call', _, phase, -, hcall', -, hnext⟩ |
    ⟨_, _, _, -, -, hfree, -⟩ | ⟨-, hslot, -⟩
  · exact ⟨call.phase, hsame.trans hcall⟩
  · obtain rfl := some.inj (hcall.symm.trans hcall')
    exact ⟨phase, hnext⟩
  · simp [hcall] at hfree
  · exact absurd hslot hi.not_ge

/-- A call that is foreign in the end names, as long as it has been made, the
client and an id that the client does not own. -/
theorem foreign_of_path (hpath : Path step anyLabel l labels l') (hforeign : l'.foreign clientID i)
    (hcall : l.calls i = some call) :
    call.clientID = clientID ∧ l.owns clientID call.connID = false := by
  obtain ⟨last, hlast, hi, hclient, howns⟩ := foreign_iff.mp hforeign
  induction hpath generalizing call with
  | nil l =>
    obtain rfl := some.inj (hcall.symm.trans hlast)
    exact ⟨hclient, howns⟩
  | cons hok hstep rest ih =>
    obtain ⟨phase, hcall'⟩ := step_call hstep hi hcall
    obtain ⟨hclient', howns'⟩ := ih hforeign hcall' hlast howns
    refine ⟨hclient', ?_⟩
    by_contra hnow
    simp [step_owns hstep (by simpa using hnow)] at howns'

theorem setCall_without (hi : dropped i = false) (call : Option Call) :
    (l.setCall i call).without dropped = (l.without dropped).setCall i call := by
  unfold without setCall
  congr 1
  funext j
  by_cases hj : j = i
  · subst hj
    simp [hi]
  · simp [Function.update_of_ne hj]

theorem setCall_without_of_dropped (hi : dropped i) (call : Option Call) :
    (l.setCall i call).without dropped = l.without dropped := by
  unfold without setCall
  congr 1
  funext j
  by_cases hj : j = i
  · subst hj
    simp [hi]
  · simp [Function.update_of_ne hj]

theorem calls_without (hi : dropped i = false) : (l.without dropped).calls i = l.calls i := by
  simp [without, hi]

theorem sweepStep_without {sweep : Sweep} {r : Lane × Option Sweep} (hi : dropped i = false)
    (h : l.sweepStep i sweep = some r) :
    (l.without dropped).sweepStep i sweep = some (r.1.without dropped, r.2) := by
  rcases sweep with (_ | ⟨⟨connID, clientID⟩, rest⟩) | rest
  · cases h
    rfl
  · cases h
    rw [setCall_without hi]
    rfl
  · obtain ⟨hfinished, rfl⟩ := of_guard h
    have hfinished' : (l.without dropped).callFinished i := by
      unfold callFinished at hfinished ⊢
      rwa [calls_without hi]
    rw [sweepStep, if_pos hfinished', setCall_without hi]

/-- A step of another slot neither sees nor changes the dropped slots. -/
theorem step_without (hslots : ∀ i, dropped i → shutdownSlot < i) (hkeep : label.keeps dropped)
    (h : l.step label = some l') :
    (l.without dropped).step label = some (l'.without dropped) := by
  have htickerSlot : dropped tickerSlot = false := by
    by_contra hdropped
    exact absurd (hslots _ (by simpa using hdropped)) (by decide)
  have hshutdownSlot : dropped shutdownSlot = false := by
    by_contra hdropped
    exact absurd (hslots _ (by simpa using hdropped)) (by decide)
  cases label with
  | openCall clientID request =>
    cases h
    rfl
  | opener k ok raw now =>
    obtain ⟨r, hstep, rfl⟩ := map_eq_some_iff.mp h
    exact map_eq_some_iff.mpr ⟨r, hstep, rfl⟩
  | reader k data err now | writer k ok n now | onClosed k =>
    obtain ⟨m, hstep, rfl⟩ := map_eq_some_iff.mp h
    exact map_eq_some_iff.mpr ⟨m, hstep, rfl⟩
  | call i clientID connID operation =>
    have hi : dropped i = false := by simpa [LaneStep.keeps] using hkeep
    obtain ⟨hfree, rfl⟩ := of_guard h
    rw [step, calls_without hi, if_pos hfree, setCall_without hi]
  | caller i now =>
    have hi : dropped i = false := by simpa [LaneStep.keeps] using hkeep
    obtain ⟨call, hcall, h⟩ := bind_eq_some_iff.mp h
    obtain ⟨r, hstep, rfl⟩ := map_eq_some_iff.mp h
    rw [setCall_without hi]
    refine bind_eq_some_iff.mpr ⟨call, (calls_without hi).trans hcall, ?_⟩
    exact map_eq_some_iff.mpr ⟨r, hstep, rfl⟩
  | tick order | exit | shutdown order =>
    obtain ⟨hcond, rfl⟩ := of_guard h
    exact if_pos hcond
  | ticker =>
    simp only [step, tickerStep] at h ⊢
    cases hticker : l.ticker with
    | sweeping sweep =>
      simp only [hticker] at h
      obtain ⟨r, hsweep, rfl⟩ := map_eq_some_iff.mp h
      have hticker' : (l.without dropped).ticker = .sweeping sweep := hticker
      simp only [hticker', sweepStep_without htickerSlot hsweep]
      rfl
    | _ => simp [hticker] at h
  | shutdowner =>
    simp only [step, shutdownStep] at h ⊢
    cases hshutdown : l.shutdown <;> simp only [hshutdown, reduceCtorEq] at h
    case sweeping sweep =>
      obtain ⟨r, hsweep, rfl⟩ := map_eq_some_iff.mp h
      have hshutdown' : (l.without dropped).shutdown = .sweeping sweep := hshutdown
      simp only [hshutdown', sweepStep_without hshutdownSlot hsweep]
      rfl
    case closeStop =>
      cases h
      have hshutdown' : (l.without dropped).shutdown = .closeStop := hshutdown
      simp only [hshutdown']
      rfl
    case wait =>
      obtain ⟨hexited, rfl⟩ := of_guard h
      have hshutdown' : (l.without dropped).shutdown = .wait := hshutdown
      simp only [hshutdown']
      exact if_pos hexited

/-! ### Client isolation over whole runs -/

variable {cfg : ManagerConfig} {limits : Limits.Config} {A B : Bytes}

/-- Where the calls in the dropped slots are, and what the table holds. -/
structure Refused (dropped : ℕ → Bool) (l : Lane) : Prop where
  filed : Filed l.manager l.opens l.opened
  outside : ∀ i, dropped i → ∀ call, l.calls i = some call → call.phase.position = none

/-- A call that is not within a connection ends at its lookup if its client does
not own the id. -/
theorem Refused.caller {dropped : ℕ → Bool} {i : ℕ} {now : ℤ} {call : Call} {l' : Lane}
    (hl : l.Refused dropped) (hi : dropped i) (hcall : l.calls i = some call)
    (howns : l.owns call.clientID call.connID = false) (h : l.step (.caller i now) = some l') :
    ∃ answer, l' = l.setCall i (some { call with phase := .finished answer }) := by
  have hposition := hl.outside i hi call hcall
  cases hphase : call.phase with
  | lookup =>
    have hholds : ¬l.Holds call.clientID call.connID := by
      intro hholds
      simp [owns_of_holds hl.filed hholds] at howns
    obtain ⟨err, -, hstep⟩ := step_refused hcall hphase hholds now
    exact ⟨_, some.inj (h.symm.trans hstep)⟩
  | finished answer => simp [step, hcall, Manager.callStep, hphase] at h
  | _ => simp [hphase, Phase.position] at hposition

theorem Refused.step {l' last : Lane} {label : LaneStep} (hl : l.Refused (last.foreign B))
    (h : l.step label = some l') (hpath : Path step anyLabel l' labels last) :
    l'.Refused (last.foreign B) := by
  refine ⟨step_filed h hl.filed, fun i hi call hcall => ?_⟩
  obtain ⟨-, -, hslot, -⟩ := foreign_iff.mp hi
  rcases step_calls h i with hsame | ⟨now, before, _, phase, rfl, hbefore, -, hnext⟩ |
    ⟨_, _, _, -, -, -, rfl⟩ | ⟨-, hsmall, -⟩
  · exact hl.outside i hi call (hsame ▸ hcall)
  · obtain ⟨hclient, howns⟩ := foreign_of_path (.cons trivial h hpath) hi hbefore
    obtain ⟨answer, rfl⟩ := hl.caller hi hbefore (hclient ▸ howns) h
    simp only [setCall_calls, if_true, some.injEq] at hcall
    rw [← hcall]
    rfl
  · simp only [setCall_calls, if_true, some.injEq] at hcall
    rw [← hcall]
    rfl
  · exact absurd hsmall hslot.not_ge

/-- A run without the client's calls on ids that it does not own is a run, and
leads to the same state but for the slots of these calls. -/
theorem path_without_foreign (hpath : Path step anyLabel (new cfg limits) labels l) (B : Bytes) :
    Path step anyLabel (new cfg limits) (labels.filter (LaneStep.keeps (l.foreign B)))
      (l.without (l.foreign B)) := by
  have hslots : ∀ i, l.foreign B i → shutdownSlot < i := by
    intro i hi
    obtain ⟨-, -, hi, -⟩ := foreign_iff.mp hi
    exact hi
  have hnew : (new cfg limits).without (l.foreign B) = new cfg limits := by
    simp [without, new]
  have hinv : ∀ (s : Lane) a u as, s.Refused (l.foreign B) → s.step a = some u →
      Path step anyLabel u as l → u.Refused (l.foreign B) :=
    fun s a u as hs hstep hrest => hs.step hstep hrest
  have hkept : ∀ (s : Lane) a u as, s.Refused (l.foreign B) →
      LaneStep.keeps (l.foreign B) a = true → s.step a = some u → Path step anyLabel u as l →
      (s.without (l.foreign B)).step a = some (u.without (l.foreign B)) :=
    fun s a u as _ hkeep hstep _ => step_without hslots hkeep hstep
  have hdropped : ∀ (s : Lane) a u as, s.Refused (l.foreign B) →
      LaneStep.keeps (l.foreign B) a = false → s.step a = some u → Path step anyLabel u as l →
      u.without (l.foreign B) = s.without (l.foreign B) := by
    intro s a u as hs hkeep hstep hrest
    cases a with
    | call i clientID connID operation =>
      obtain ⟨-, rfl⟩ := of_guard hstep
      exact setCall_without_of_dropped (by simpa [LaneStep.keeps] using hkeep) _
    | caller i now =>
      have hi : l.foreign B i := by simpa [LaneStep.keeps] using hkeep
      obtain ⟨call, hcall, -⟩ := bind_eq_some_iff.mp hstep
      obtain ⟨hclient, howns⟩ := foreign_of_path (.cons trivial hstep hrest) hi hcall
      obtain ⟨answer, rfl⟩ := hs.caller hi hcall (hclient ▸ howns) hstep
      exact setCall_without_of_dropped hi _
    | _ => simp [LaneStep.keeps] at hkeep
  have hstart : (new cfg limits).Refused (l.foreign B) :=
    ⟨new_filed cfg limits, fun i _ call hcall => by simp [new] at hcall⟩
  rw [← hnew]
  exact Path.filter hinv hkept hdropped hpath hstart

/-- A call of `B` under an id that the table does not give to `B` is refused at its lookup and
changes nothing else; and without all of these calls, the run leads to the same manager, the
same `Open` calls and the same calls of `A`. -/
theorem client_isolation (hpath : Path step anyLabel (new cfg limits) labels l) (hne : A ≠ B) :
    (∀ i connID operation l', l.step (.call i B connID operation) = some l' →
      l' = l.setCall i (some ⟨B, connID, operation, .lookup⟩)) ∧
    (∀ i connID operation now, l.calls i = some ⟨B, connID, operation, .lookup⟩ →
      ¬l.Holds B connID → ∃ err, (l.Holds A connID → err = .forbidden) ∧
        l.step (.caller i now) = some (l.setCall i
          (some ⟨B, connID, operation, .finished (operation.refusal err)⟩))) ∧
    ∃ l', Path step anyLabel (new cfg limits)
        (labels.filter (LaneStep.keeps (l.foreign B))) l' ∧
      l'.manager = l.manager ∧ l'.opens = l.opens ∧
      ∀ i call, call.clientID = A → (l'.calls i = some call ↔ l.calls i = some call) := by
  refine ⟨?_, ?_, l.without (l.foreign B), path_without_foreign hpath B, rfl, rfl, ?_⟩
  · intro i connID operation l' h
    obtain ⟨-, h⟩ := ite_none_right_eq_some.mp h
    exact (some.inj h).symm
  · intro i connID operation now hcall hholds
    obtain ⟨err, herr, hstep⟩ := step_refused hcall rfl hholds now
    refine ⟨err, ?_, hstep⟩
    rintro ⟨k, hk, hclient⟩
    simpa [Manager.getOwnedConn, hk, hclient, hne, eq_comm] using herr
  · intro i call hclient
    by_cases hforeign : l.foreign B i
    · obtain ⟨call', hcall', -, hclient', -⟩ := foreign_iff.mp hforeign
      simp only [without, hforeign, if_true, hcall', some.injEq, reduceCtorEq, false_iff]
      rintro rfl
      exact hne (hclient.symm.trans hclient')
    · rw [calls_without (by simpa using hforeign)]

def noLimits : Limits.Config := ⟨0, 0, 0, 0, 0⟩

/-- One client opens a connection; another calls `Close` on it. -/
def openAndProbe : List LaneStep :=
  openRun 0 (ascii "a") 0 ++ [.call 2 (ascii "b") (plainID 0) .close]

theorem openAndProbe_isolated : ∃ l l',
    Path step anyLabel (new plainConfig noLimits) openAndProbe l ∧
    l.Holds (ascii "a") (plainID 0) ∧ l.step (.caller 2 0) = some l' ∧
    l'.calls 2 = some ⟨ascii "b", plainID 0, .close, .finished (.result (.closed false))⟩ ∧
    l'.manager = l.manager ∧ l.foreign (ascii "b") 2 := by
  obtain ⟨l, hpath, hcall, hlookup, hclient, hforeign⟩ : ∃ l,
      Path step anyLabel (new plainConfig noLimits) openAndProbe l ∧
      l.calls 2 = some ⟨ascii "b", plainID 0, .close, .lookup⟩ ∧
      l.manager.conns.lookup (plainID 0) = some 0 ∧
      (l.manager.relayConns 0).clientID = ascii "a" ∧ l.foreign (ascii "b") 2 = true :=
    Path.exists_of_run (by decide +kernel)
  have hne : ascii "a" ≠ ascii "b" := by decide
  have hholds : ¬l.Holds (ascii "b") (plainID 0) := by
    rintro ⟨k, hk, hb⟩
    obtain rfl := some.inj (hlookup.symm.trans hk)
    exact hne (hclient.symm.trans hb)
  obtain ⟨err, -, hstep⟩ := (client_isolation hpath hne).2.1 2 (plainID 0) .close 0 hcall hholds
  exact ⟨l, _, hpath, ⟨0, hlookup, hclient⟩, hstep, by simp [Operation.refusal], rfl, hforeign⟩

end Lane
end VlfProto.Relay
