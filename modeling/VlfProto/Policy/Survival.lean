import Mathlib.Data.List.TakeWhile
import VlfProto.Policy.Controller
import VlfProto.Transition.Path

/-!
# The stay in survival mode

The policy tick takes a snapshot under the lock, decides without it, reads the clock and
switches under the lock again. If no failure is recorded and nobody switches between a tick's
snapshot and its switch, survival is left only after its minimum stay and with no failure of
the last thirty seconds. The condition is needed: a tick that decided in the normal mode, or
before a failure, switches all the same.
-/
namespace VlfProto.Policy
open Transition List

inductive FailureKind where
  | quic
  | transport
  deriving DecidableEq

/-- Where the policy tick is, with the time that it was started for. -/
inductive TickPc where
  | idle
  | snapped (now : ℤ) (snapshot : Controller.Snapshot)
  | switching (next : Mode)
  | locked (next : Mode) (now : ℤ)
  deriving DecidableEq

inductive RecorderPc where
  | idle
  | stamped (kind : FailureKind) (now : ℤ)
  | switching
  | locked (now : ℤ)
  deriving DecidableEq

/-- A recorder that would record or switch now. -/
def RecorderPc.locks : RecorderPc → Bool
  | .stamped _ _ => true
  | .locked _ => true
  | _ => false

/-- The controller, the clock, the tick and those who record failures, and the times of all
failures that were ever recorded. -/
structure PolicyRun where
  controller : Controller
  clock : ℤ
  tick : TickPc := .idle
  recorders : ℕ → RecorderPc := fun _ => .idle
  failures : List ℤ := []

/-- What happens next. A tick may be started for a time that is past; `decide` carries the
order in which it finds the flows. -/
inductive PolicyAction where
  | clock (now : ℤ)
  | snapshot (now : ℤ)
  | decide (order : List ℕ)
  | tick
  | fail (k : ℕ) (kind : FailureKind)
  | recorder (k : ℕ)
  | register (transport : Transport)
  | unregister (id : ℕ)
  | download (id : ℕ) (n : ℤ)

namespace Controller

/-- The critical section of `recordQUICFailure` or of `recordTransportError`. -/
def recordFailure (c : Controller) : FailureKind → ℤ → Controller × Bool
  | .quic, now => c.recordQUICFailure now
  | .transport, now => c.recordTransportError now

end Controller

namespace PolicyRun

def new (now : ℤ) : PolicyRun := { controller := newController .auto now, clock := now }

def snapshotStep (s : PolicyRun) (now : ℤ) : Option PolicyRun :=
  if s.tick = .idle ∧ now ≤ s.clock then
    some { s with
      controller := (s.controller.policySnapshot now).1
      tick := (s.controller.policySnapshot now).2.elim .idle (.snapped now) }
  else none

def decideStep (s : PolicyRun) (order : List ℕ) : Option PolicyRun :=
  match s.tick with
  | .snapped now snapshot =>
    some { s with
      controller := (s.controller.policyDecision now snapshot order).1
      tick := (s.controller.policyDecision now snapshot order).2.elim .idle .switching }
  | _ => none

def tickStep (s : PolicyRun) : Option PolicyRun :=
  match s.tick with
  | .switching next => some { s with tick := .locked next s.clock }
  | .locked next now => some { s with
      controller := s.controller.switchMode next now, tick := .idle }
  | _ => none

def setRecorder (s : PolicyRun) (k : ℕ) (pc : RecorderPc) : PolicyRun :=
  { s with recorders := Function.update s.recorders k pc }

def recorderStep (s : PolicyRun) (k : ℕ) : Option PolicyRun :=
  match s.recorders k with
  | .stamped kind now =>
    let r := s.controller.recordFailure kind now
    some { s.setRecorder k (bif r.2 then .switching else .idle) with
      controller := r.1
      failures := now :: s.failures }
  | .switching => some (s.setRecorder k (.locked s.clock))
  | .locked now => some { s.setRecorder k .idle with
      controller := s.controller.switchMode .survival now }
  | .idle => none

def step (s : PolicyRun) : PolicyAction → Option PolicyRun
  | .clock now => if s.clock ≤ now then some { s with clock := now } else none
  | .snapshot now => s.snapshotStep now
  | .decide order => s.decideStep order
  | .tick => s.tickStep
  | .fail k kind =>
    if s.recorders k = .idle then some (s.setRecorder k (.stamped kind s.clock)) else none
  | .recorder k => s.recorderStep k
  | .register transport =>
    some { s with controller := s.controller.registerFlow transport s.clock }
  | .unregister id => some { s with controller := s.controller.unregisterFlow id }
  | .download id n => some { s with controller := s.controller.download id n }

/-- No failure is recorded and nobody else switches between a tick's snapshot and its
switch. -/
def Uninterrupted (s : PolicyRun) : PolicyAction → Prop
  | .recorder k => (s.recorders k).locks = true → s.tick = .idle
  | _ => True

instance (s : PolicyRun) : (a : PolicyAction) → Decidable (s.Uninterrupted a)
  | .recorder k => inferInstanceAs (Decidable ((s.recorders k).locks = true → s.tick = .idle))
  | .clock _ => inferInstanceAs (Decidable True)
  | .snapshot _ => inferInstanceAs (Decidable True)
  | .decide _ => inferInstanceAs (Decidable True)
  | .tick => inferInstanceAs (Decidable True)
  | .fail _ _ => inferInstanceAs (Decidable True)
  | .register _ => inferInstanceAs (Decidable True)
  | .unregister _ => inferInstanceAs (Decidable True)
  | .download _ _ => inferInstanceAs (Decidable True)

end PolicyRun

namespace Controller

variable {c c' : Controller} {failures : List ℤ}

/-- What the modes depend on stays as it is. -/
structure SameModes (c c' : Controller) : Prop where
  configured : c'.configured = c.configured
  currentMode : c'.currentMode = c.currentMode
  survivalUntil : c'.survivalUntil = c.survivalUntil
  quicFailTimes : c'.quicFailTimes = c.quicFailTimes
  errorSpikeTime : c'.errorSpikeTime = c.errorSpikeTime

theorem SameModes.refl (c : Controller) : c.SameModes c := ⟨rfl, rfl, rfl, rfl, rfl⟩

theorem registerFlow_modes (c : Controller) (transport : Transport) (now : ℤ) :
    c.SameModes (c.registerFlow transport now) := by
  rw [registerFlow, noteTransport]
  split
  · exact ⟨rfl, rfl, rfl, rfl, rfl⟩
  · split_ifs <;> exact ⟨rfl, rfl, rfl, rfl, rfl⟩

theorem visitFlows_modes (now : ℤ) (order : List ℕ) (c : Controller) :
    c.SameModes (c.visitFlows now order).1 := by
  rw [visitFlows_fst]
  exact ⟨rfl, rfl, rfl, rfl, rfl⟩

theorem policyDecision_modes (c : Controller) (now : ℤ) (s : Snapshot) (order : List ℕ) :
    c.SameModes (c.policyDecision now s order).1 := by
  unfold policyDecision
  split_ifs
  all_goals first | exact .refl c | exact visitFlows_modes now order c

/-- A tick that has seen survival leaves it only after the minimum stay and without
failures. -/
theorem policyDecision_survival {now : ℤ} {s : Snapshot} {order : List ℕ} {next : Mode}
    (hmode : s.mode = .survival) (h : (c.policyDecision now s order).2 = some next) :
    next = .normal ∧ s.survivalUntil < now ∧ s.quicFails = 0 ∧ s.transportErrs = 0 := by
  simp only [policyDecision, hmode, ne_eq, not_true_eq_false, false_and, if_false, if_true] at h
  split_ifs at h with hover
  cases h
  exact ⟨rfl, hover⟩

theorem mem_pruneTimes {items : List ℤ} {f : ℤ} (cutoff : ℤ) (hf : f ∈ items) :
    f ∈ pruneTimes items cutoff ∨ f < cutoff := by
  rw [← takeWhile_append_dropWhile (p := fun t => decide (t < cutoff)) (l := items)] at hf
  rcases mem_append.mp hf with hf | hf
  · exact .inr (by simpa using mem_takeWhile_imp hf)
  · exact .inl hf

/-- Each failure that was recorded is in a window or older than the windows. -/
def Remembers (c : Controller) (clock : ℤ) (failures : List ℤ) : Prop :=
  ∀ f ∈ failures, f ∈ c.quicFailTimes ∨ f ∈ c.errorSpikeTime ∨ f < clock - failureWindowDuration

theorem Remembers.same {clock clock' : ℤ} (hc : c.Remembers clock failures) (hsame : c.SameModes c')
    (hclock : clock ≤ clock') : c'.Remembers clock' failures := by
  intro f hf
  rw [hsame.quicFailTimes, hsame.errorSpikeTime]
  rcases hc f hf with hquic | herrs | hold
  · exact .inl hquic
  · exact .inr (.inl herrs)
  · exact .inr (.inr (by omega))

theorem Remembers.policySnapshot_remembers {clock now : ℤ} (hc : c.Remembers clock failures)
    (hnow : now ≤ clock) : (c.policySnapshot now).1.Remembers clock failures := by
  rw [policySnapshot]
  split_ifs with hauto
  · exact hc
  · intro f hf
    rcases hc f hf with hquic | herrs | hold
    · rcases mem_pruneTimes (now - failureWindowDuration) hquic with hkept | hpruned
      · exact .inl hkept
      · exact .inr (.inr (by omega))
    · rcases mem_pruneTimes (now - failureWindowDuration) herrs with hkept | hpruned
      · exact .inr (.inl hkept)
      · exact .inr (.inr (by omega))
    · exact .inr (.inr hold)

theorem Remembers.recordFailure_remembers {clock now : ℤ} (hc : c.Remembers clock failures)
    (hnow : now ≤ clock) (kind : FailureKind) :
    (c.recordFailure kind now).1.Remembers clock (now :: failures) := by
  cases kind with
  | quic =>
    intro f hf
    have hmem : f ∈ c.quicFailTimes ++ [now] ∨ f ∈ c.errorSpikeTime ∨
        f < clock - failureWindowDuration := by
      rcases mem_cons.mp hf with rfl | hf
      · exact .inl (by simp)
      · exact (hc f hf).imp_left (mem_append_left _)
    rcases hmem with hquic | hrest
    · rcases mem_pruneTimes (now - failureWindowDuration) hquic with hkept | hpruned
      · exact .inl hkept
      · exact .inr (.inr (by omega))
    · exact .inr hrest
  | transport =>
    intro f hf
    have hmem : f ∈ c.quicFailTimes ∨ f ∈ c.errorSpikeTime ++ [now] ∨
        f < clock - failureWindowDuration := by
      rcases mem_cons.mp hf with rfl | hf
      · exact .inr (.inl (by simp))
      · exact (hc f hf).imp_right (Or.imp_left (mem_append_left _))
    rcases hmem with hquic | herrs | hold
    · exact .inl hquic
    · rcases mem_pruneTimes (now - failureWindowDuration) herrs with hkept | hpruned
      · exact .inr (.inl hkept)
      · exact .inr (.inr (by omega))
    · exact .inr (.inr hold)

end Controller
end VlfProto.Policy
