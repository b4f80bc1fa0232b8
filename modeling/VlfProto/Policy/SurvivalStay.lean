import VlfProto.Policy.Survival

/-! # Survival mode is not left early -/

namespace VlfProto.Policy
open Transition Option

namespace PolicyRun

variable {s t : PolicyRun}

/-- If this is survival, it may be left for `next`. -/
def MayLeave (s : PolicyRun) (next : Mode) : Prop :=
  s.controller.currentMode = .survival → next ≠ .survival →
    s.controller.survivalUntil < s.clock ∧ s.controller.quicFailTimes = [] ∧
      s.controller.errorSpikeTime = []

/-- What a tick has seen, or decided, agrees with the controller. -/
def Current (s : PolicyRun) : TickPc → Prop
  | .idle => True
  | .snapped now snapshot =>
    now ≤ s.clock ∧ snapshot = ⟨s.controller.currentMode, s.controller.quicFailTimes.length,
      s.controller.errorSpikeTime.length, s.controller.survivalUntil⟩
  | .switching next => s.MayLeave next
  | .locked next _ => s.MayLeave next

structure Watched (s : PolicyRun) : Prop where
  remembers : s.controller.Remembers s.clock s.failures
  stamped : ∀ k kind now, s.recorders k = .stamped kind now → now ≤ s.clock
  current : s.Current s.tick

theorem new_watched (now : ℤ) : (new now).Watched :=
  ⟨by simp [new, Controller.Remembers], fun _ _ _ h => RecorderPc.noConfusion h, trivial⟩

/-- What a tick knows stays true while the modes stay as they are and the clock goes on. -/
theorem current_same {pc : TickPc} (hs : s.Current pc)
    (hsame : s.controller.SameModes t.controller) (hclock : s.clock ≤ t.clock) :
    t.Current pc := by
  obtain ⟨-, hmode, huntil, hquic, herrs⟩ := hsame
  have hleave : ∀ next, s.MayLeave next → t.MayLeave next := by
    intro next hs hsurvival hnext
    rw [hmode] at hsurvival
    rw [huntil, hquic, herrs]
    obtain ⟨hover, hempty⟩ := hs hsurvival hnext
    exact ⟨hover.trans_le hclock, hempty⟩
  cases pc with
  | idle => trivial
  | snapped now snapshot =>
    obtain ⟨hnow, hsnapshot⟩ := hs
    refine ⟨hnow.trans hclock, ?_⟩
    rw [hmode, hquic, herrs, huntil]
    exact hsnapshot
  | switching next | locked next now => exact hleave next hs

theorem Watched.same (hs : s.Watched) {c : Controller} (hsame : s.controller.SameModes c)
    {pc : TickPc} (hpc : s.Current pc) : Watched { s with controller := c, tick := pc } :=
  ⟨hs.remembers.same hsame le_rfl, hs.stamped, current_same hpc hsame le_rfl⟩

theorem Watched.clock_watched (hs : s.Watched) {now : ℤ} (hnow : s.clock ≤ now) :
    Watched { s with clock := now } :=
  ⟨hs.remembers.same (.refl _) hnow, fun k kind t h => (hs.stamped k kind t h).trans hnow,
    current_same hs.current (.refl _) hnow⟩

theorem Watched.snapshotStep_watched (hs : s.Watched) {now : ℤ}
    (h : s.snapshotStep now = some t) : t.Watched := by
  rw [snapshotStep] at h
  split_ifs at h with hok
  cases h
  refine ⟨hs.remembers.policySnapshot_remembers hok.2, hs.stamped, ?_⟩
  dsimp only
  by_cases hauto : s.controller.configured = .auto
  · rw [Controller.policySnapshot, if_neg (not_not.mpr hauto)]
    exact ⟨hok.2, rfl⟩
  · rw [Controller.policySnapshot, if_pos hauto]
    trivial

theorem Watched.decideStep_watched (hs : s.Watched) {order : List ℕ}
    (h : s.decideStep order = some t) : t.Watched := by
  rw [decideStep] at h
  split at h
  · rename_i now snapshot htick
    cases h
    obtain ⟨hnow, hsnapshot⟩ : s.Current (.snapped now snapshot) := htick ▸ hs.current
    refine hs.same (Controller.policyDecision_modes _ now snapshot order) ?_
    cases hnext : (s.controller.policyDecision now snapshot order).2 with
    | none => trivial
    | some next =>
      change s.MayLeave next
      rintro hsurvival -
      have hmode : snapshot.mode = .survival := by rw [hsnapshot]; exact hsurvival
      obtain ⟨-, hover, hquic, herrs⟩ := Controller.policyDecision_survival hmode hnext
      rw [hsnapshot] at hover hquic herrs
      exact ⟨hover.trans_le hnow, List.length_eq_zero_iff.mp hquic,
        List.length_eq_zero_iff.mp herrs⟩
  · cases h

theorem switchMode_remembers {c : Controller} {clock : ℤ} {failures : List ℤ}
    (hc : c.Remembers clock failures) (next : Mode) (now : ℤ) :
    (c.switchMode next now).Remembers clock failures := by
  rw [Controller.switchMode]
  split_ifs <;> exact hc

theorem Watched.tickStep_watched (hs : s.Watched) (h : s.tickStep = some t) : t.Watched := by
  rw [tickStep] at h
  split at h
  · rename_i next htick
    cases h
    exact ⟨hs.remembers, hs.stamped, (htick ▸ hs.current :)⟩
  · cases h
    exact ⟨switchMode_remembers hs.remembers _ _, hs.stamped, trivial⟩
  · cases h

theorem stamped_update {k : ℕ} {pc : RecorderPc} {clock : ℤ}
    (hs : ∀ k kind now, s.recorders k = .stamped kind now → now ≤ clock)
    (hpc : ∀ kind now, pc = .stamped kind now → now ≤ clock) :
    ∀ j kind now, (s.setRecorder k pc).recorders j = .stamped kind now → now ≤ clock := by
  intro j kind now hj
  by_cases hjk : j = k
  · subst hjk
    exact hpc kind now ((Function.update_self ..).symm.trans hj)
  · exact hs j kind now ((Function.update_of_ne hjk ..).symm.trans hj)

theorem Watched.recorderStep_watched (hs : s.Watched) {k : ℕ}
    (hok : s.Uninterrupted (.recorder k)) (h : s.recorderStep k = some t) : t.Watched := by
  rw [recorderStep] at h
  split at h
  · rename_i kind now hstamped
    cases h
    have hidle : s.tick = .idle := hok (hstamped ▸ rfl)
    refine ⟨hs.remembers.recordFailure_remembers (hs.stamped k kind now hstamped) kind, ?_, ?_⟩
    · refine stamped_update hs.stamped fun kind' now' hpc => ?_
      cases hflag : (s.controller.recordFailure kind now).2 <;> rw [hflag] at hpc <;> cases hpc
    · change Current _ s.tick
      rw [hidle]
      trivial
  · cases h
    exact ⟨hs.remembers, stamped_update hs.stamped (fun _ _ h => RecorderPc.noConfusion h),
      current_same hs.current (.refl _) le_rfl⟩
  · rename_i now hlocked
    cases h
    have hidle : s.tick = .idle := hok (hlocked ▸ rfl)
    refine ⟨switchMode_remembers hs.remembers _ _,
      stamped_update hs.stamped (fun _ _ h => RecorderPc.noConfusion h), ?_⟩
    change Current _ s.tick
    rw [hidle]
    trivial
  · cases h

theorem Watched.step_watched (hs : s.Watched) {a : PolicyAction} (hok : s.Uninterrupted a)
    (h : s.step a = some t) : t.Watched := by
  cases a with
  | clock now =>
    rw [step] at h
    split_ifs at h with hnow
    cases h
    exact hs.clock_watched hnow
  | snapshot now => exact hs.snapshotStep_watched h
  | decide order => exact hs.decideStep_watched h
  | tick => exact hs.tickStep_watched h
  | fail k kind =>
    rw [step] at h
    split_ifs at h
    cases h
    refine ⟨hs.remembers, stamped_update hs.stamped fun _ _ h => ?_,
      current_same hs.current (.refl _) le_rfl⟩
    cases h
    exact le_rfl
  | recorder k => exact hs.recorderStep_watched hok h
  | register transport =>
    cases h
    exact hs.same (Controller.registerFlow_modes _ transport _) hs.current
  | unregister id =>
    cases h
    have hsame : s.controller.SameModes (s.controller.unregisterFlow id) :=
      ⟨rfl, rfl, rfl, rfl, rfl⟩
    exact hs.same hsame hs.current
  | download id n =>
    cases h
    have hsame : s.controller.SameModes (s.controller.download id n) := ⟨rfl, rfl, rfl, rfl, rfl⟩
    exact hs.same hsame hs.current

theorem leaves_survival {a : PolicyAction} (h : s.step a = some t)
    (hbefore : s.controller.currentMode = .survival)
    (hafter : t.controller.currentMode ≠ .survival) :
    ∃ next now, s.tick = .locked next now ∧ next ≠ .survival := by
  have hsame : s.controller.SameModes t.controller → False := fun hsame =>
    hafter (hsame.currentMode.trans hbefore)
  cases a with
  | clock now | fail k kind =>
    rw [step] at h
    split_ifs at h
    cases h
    exact absurd hbefore hafter
  | snapshot now =>
    simp only [step, snapshotStep] at h
    split_ifs at h
    cases h
    refine absurd ?_ hafter
    dsimp only [Controller.policySnapshot]
    split_ifs <;> exact hbefore
  | decide order =>
    simp only [step, decideStep] at h
    split at h
    · cases h
      exact (hsame (Controller.policyDecision_modes _ _ _ _)).elim
    · cases h
  | tick =>
    simp only [step, tickStep] at h
    split at h
    · cases h
      exact absurd hbefore hafter
    · rename_i next now htick
      cases h
      refine ⟨next, now, htick, ?_⟩
      rintro rfl
      refine hafter ?_
      dsimp only [Controller.switchMode]
      rw [if_pos hbefore]
      exact hbefore
    · cases h
  | recorder k =>
    simp only [step, recorderStep] at h
    split at h
    · rename_i kind now _
      cases h
      cases kind <;> exact absurd hbefore hafter
    · cases h
      exact absurd hbefore hafter
    · cases h
      refine absurd ?_ hafter
      dsimp only [Controller.switchMode]
      rw [if_pos hbefore]
      exact hbefore
    · cases h
  | register transport =>
    cases h
    exact (hsame (Controller.registerFlow_modes _ transport _)).elim
  | unregister id | download id n =>
    cases h
    exact absurd hbefore hafter

/-- Where nobody records a failure or switches between a tick's snapshot and its switch,
survival is left only after the end of its minimum stay, with all failures older than thirty
seconds. -/
theorem survival_minimum_stay {start : ℤ} {as : List PolicyAction} {a : PolicyAction}
    (hpath : Path step Uninterrupted (new start) as s) (h : s.step a = some t)
    (hbefore : s.controller.currentMode = .survival)
    (hafter : t.controller.currentMode ≠ .survival) :
    s.controller.survivalUntil < s.clock ∧
      ∀ f ∈ s.failures, f < s.clock - failureWindowDuration := by
  have hs : s.Watched :=
    hpath.invariant (fun _ _ _ hs hok h => hs.step_watched hok h) (new_watched start)
  obtain ⟨next, now, htick, hnext⟩ := leaves_survival h hbefore hafter
  have hleave : s.MayLeave next := by
    have hcurrent := hs.current
    rw [htick] at hcurrent
    exact hcurrent
  obtain ⟨hover, hquic, herrs⟩ := hleave hbefore hnext
  refine ⟨hover, fun f hf => ?_⟩
  have hf := hs.remembers f hf
  rw [hquic, herrs] at hf
  simpa using hf

/-- Somebody records a failure, at the time at which it happens. -/
def failureRun (k : ℕ) : List PolicyAction := [.fail k .quic, .recorder k]

/-- Three failures lead to survival. -/
def enteredRun : List PolicyAction :=
  failureRun 0 ++ failureRun 0 ++ failureRun 0 ++ [.recorder 0, .recorder 0]

/-- Survival is entered, and a tick of the time after its minimum stay leaves it. -/
def recoveredRun : List PolicyAction :=
  enteredRun ++ [.clock (61 * second), .snapshot (61 * second), .decide [], .tick]

theorem recoveredRun_stayed : ∃ s t, Path step Uninterrupted (new 0) recoveredRun s ∧
    s.step .tick = some t ∧ s.controller.currentMode = .survival ∧
    t.controller.currentMode = .normal ∧ s.controller.survivalUntil < s.clock ∧
    ∀ f ∈ s.failures, f < s.clock - failureWindowDuration := by
  have hrun : ∃ s, Path step Uninterrupted (new 0) recoveredRun s ∧
      s.controller.currentMode = .survival ∧
      (s.step .tick).any (fun t => t.controller.currentMode = .normal) :=
    Path.exists_of_run (by decide +kernel)
  obtain ⟨s, hpath, hbefore, hstep⟩ := hrun
  obtain ⟨t, h, hafter⟩ := (any_eq_true _ _).mp hstep
  have hnormal : t.controller.currentMode = .normal := of_decide_eq_true hafter
  exact ⟨s, t, hpath, h, hbefore, hnormal,
    survival_minimum_stay hpath h hbefore (by simp [hnormal])⟩

/-- A tick in the normal mode finds a long flow; before it switches, three failures lead to
survival. -/
def overtakenRun : List PolicyAction :=
  [.register .quic, .clock (10 * second), .snapshot (10 * second), .decide [1]] ++ enteredRun ++
    [.tick]

/-- A tick decides to leave survival; before it switches, a failure is recorded. -/
def failedLateRun : List PolicyAction :=
  enteredRun ++ [.clock (61 * second), .snapshot (61 * second), .decide []] ++ failureRun 1 ++
    [.tick]

/-- A tick that was overtaken leaves survival right after it was entered, and one that a
failure came in between leaves it with a failure of this moment. -/
theorem survival_left_early :
    (∃ s t, Path step anyLabel (new 0) overtakenRun s ∧ s.step .tick = some t ∧
      s.controller.currentMode = .survival ∧ t.controller.currentMode = .fast ∧
      s.clock < s.controller.survivalUntil) ∧
    (∃ s t, Path step anyLabel (new 0) failedLateRun s ∧ s.step .tick = some t ∧
      s.controller.currentMode = .survival ∧ t.controller.currentMode = .normal ∧
      s.clock ∈ s.failures) := by
  have hrun : (∃ s, Path step anyLabel (new 0) overtakenRun s ∧
        (s.controller.currentMode = .survival ∧ s.clock < s.controller.survivalUntil) ∧
        (s.step .tick).any (fun t => t.controller.currentMode = .fast)) ∧
      ∃ s, Path step anyLabel (new 0) failedLateRun s ∧
        (s.controller.currentMode = .survival ∧ s.clock ∈ s.failures) ∧
        (s.step .tick).any (fun t => t.controller.currentMode = .normal) :=
    ⟨Path.exists_of_run (by decide +kernel), Path.exists_of_run (by decide +kernel)⟩
  obtain ⟨⟨s, hpath, ⟨hmode, hclock⟩, hstep⟩, s', hpath', ⟨hmode', hclock'⟩, hstep'⟩ := hrun
  obtain ⟨t, h, hafter⟩ := (any_eq_true _ _).mp hstep
  obtain ⟨t', h', hafter'⟩ := (any_eq_true _ _).mp hstep'
  exact ⟨⟨s, t, hpath, h, hmode, of_decide_eq_true hafter, hclock⟩,
    ⟨s', t', hpath', h', hmode', of_decide_eq_true hafter', hclock'⟩⟩

end PolicyRun
end VlfProto.Policy
