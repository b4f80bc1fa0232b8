import VlfProto.Policy.Controller
import VlfProto.Transition.Path

/-!
# How many permits are granted in a second

The loop of `acquireFlowPermit` reads the clock before it takes the lock, so that callers may
come to the critical section in another order than that of their readings.
-/
namespace VlfProto.Policy
open Platform Transition Function

/-- The settings and the counter of the cap stay as they are. -/
structure Controller.SameCap (c c' : Controller) : Prop where
  configured : c'.configured = c.configured
  capEnabled : c'.capEnabled = c.capEnabled
  capMaxNewPerSec : c'.capMaxNewPerSec = c.capMaxNewPerSec
  capWindowSec : c'.capWindowSec = c.capWindowSec
  capOpenedThisSec : c'.capOpenedThisSec = c.capOpenedThisSec

/-- A caller reads the clock or enters the critical section, or the controller is changed by
something else. -/
inductive PermitStep where
  | read (i : ℕ) (now : ℤ)
  | enter (i : ℕ)
  | other (c : Controller)

/-- The callers of `acquireFlowPermit`, each with the clock reading that it brings to the lock,
and the readings of the calls that have got a permit. -/
structure Permits where
  controller : Controller
  clock : ℤ
  readings : ℕ → Option ℤ
  granted : List ℤ

namespace Permits

def new (c : Controller) (clock : ℤ) : Permits := ⟨c, clock, fun _ => none, []⟩

def step (s : Permits) : PermitStep → Option Permits
  | .read i now =>
    if s.clock ≤ now ∧ s.readings i = none then
      some { s with clock := now, readings := update s.readings i (some now) }
    else none
  | .enter i => (s.readings i).map fun now =>
    { s with
      controller := (s.controller.acquireFlowPermit now).1
      readings := update s.readings i none
      granted := if (s.controller.acquireFlowPermit now).2 then now :: s.granted else s.granted }
  | .other c => some { s with controller := c }

/-- The cap stays as it is, and no caller enters with a reading from before the second that the
cap is counting for. -/
def InOrder (s : Permits) : PermitStep → Prop
  | .read _ _ => True
  | .enter i => ∀ now, s.readings i = some now → s.controller.capWindowSec ≤ now / second
  | .other c => s.controller.SameCap c

end Permits

/-- How many of the readings are in the given second. -/
def grantedIn (granted : List ℤ) (sec : ℤ) : ℕ := granted.countP fun now => now / second = sec

namespace Controller

/-- The controller with a cap of `max` permits a second that has granted the given ones. -/
structure Rated (max : ℕ) (granted : List ℤ) (c : Controller) : Prop where
  configured : c.configured = .auto
  capEnabled : c.capEnabled = true
  capMaxNewPerSec : c.capMaxNewPerSec = max
  within : ∀ sec, grantedIn granted sec ≤ max
  counted : grantedIn granted c.capWindowSec ≤ c.capOpenedThisSec
  later : ∀ sec, c.capWindowSec < sec → grantedIn granted sec = 0

variable {c : Controller} {max : ℕ} {granted : List ℤ} {now : ℤ}

/-- A caller that comes in order finds the permits of its second counted. -/
theorem Rated.rollWindow (h : c.Rated max granted) (hnow : c.capWindowSec ≤ now / second) :
    (c.rollWindow now).Rated max granted ∧ (c.rollWindow now).capWindowSec = now / second := by
  unfold Controller.rollWindow
  split_ifs with hroll
  · refine ⟨{ h with counted := ?_, later := fun sec hsec => ?_ }, rfl⟩
    · exact (h.later _ (lt_of_le_of_ne hnow (Ne.symm hroll))).le
    · exact h.later sec (hnow.trans_lt hsec)
  · exact ⟨h, (not_not.mp hroll).symm⟩

theorem Rated.acquire (h : c.Rated max granted) (hnow : c.capWindowSec ≤ now / second) :
    (c.acquireFlowPermit now).1.Rated max
      (if (c.acquireFlowPermit now).2 then now :: granted else granted) := by
  obtain ⟨hrolled, hsec⟩ := h.rollWindow hnow
  have hcapped : ¬(c.configured ≠ .auto ∨ c.capEnabled = false) := by
    simp [h.configured, h.capEnabled]
  have hcons (sec : ℤ) : grantedIn (now :: granted) sec =
      grantedIn granted sec + if now / second = sec then 1 else 0 := by
    simp [grantedIn, List.countP_cons]
  unfold acquireFlowPermit
  rw [if_neg hcapped]
  by_cases hroom : c.flows.card + c.pendingPermits < c.capMaxActiveFlows ∧
      (c.rollWindow now).capOpenedThisSec < c.capMaxNewPerSec
  · rw [if_pos hroom]
    change Rated max (now :: granted) _
    have hcounted := hrolled.counted
    rw [h.capMaxNewPerSec] at hroom
    refine ⟨hrolled.configured, hrolled.capEnabled, hrolled.capMaxNewPerSec, fun sec => ?_, ?_,
      fun sec hlater => ?_⟩
    · have hwithin := h.within sec
      rw [hcons]
      split_ifs with hsame
      · rw [hsec, hsame] at hcounted
        omega
      · exact hwithin
    · have hcount : grantedIn (now :: granted) (c.rollWindow now).capWindowSec ≤
          (c.rollWindow now).capOpenedThisSec + 1 := by
        rw [hcons]
        split_ifs <;> omega
      exact hcount
    · replace hlater : now / second < sec := hsec ▸ hlater
      rw [hcons, if_neg hlater.ne]
      exact hrolled.later sec (hsec ▸ hlater)
  · rw [if_neg hroom]
    exact hrolled

end Controller

namespace Permits

variable {s s' : Permits} {max : ℕ} {label : PermitStep}

theorem step_rated (h : s.controller.Rated max s.granted) (hok : s.InOrder label)
    (hstep : s.step label = some s') : s'.controller.Rated max s'.granted := by
  cases label with
  | read i now =>
    obtain ⟨-, rfl⟩ := of_guard hstep
    exact h
  | enter i =>
    obtain ⟨now, hnow, rfl⟩ := Option.map_eq_some_iff.mp hstep
    exact h.acquire (hok now hnow)
  | other c =>
    cases hstep
    obtain ⟨hconfigured, henabled, hmax, hsec, hopened⟩ := hok
    exact ⟨hconfigured.trans h.configured, henabled.trans h.capEnabled,
      hmax.trans h.capMaxNewPerSec, h.within, by rw [hsec, hopened]; exact h.counted,
      by rw [hsec]; exact h.later⟩

/-- If the callers come in the order of the seconds of their readings, a second sees no more
permits than the cap allows. -/
theorem permits_within_rate (c : Controller) (clock : ℤ) (labels : List PermitStep) (s : Permits)
    (hauto : c.configured = .auto) (henabled : c.capEnabled = true)
    (hpath : Path step InOrder (new c clock) labels s) (sec : ℤ) :
    grantedIn s.granted sec ≤ c.capMaxNewPerSec := by
  have hnew : c.Rated c.capMaxNewPerSec [] :=
    ⟨hauto, henabled, rfl, fun _ => Nat.zero_le _, Nat.zero_le _, fun _ _ => rfl⟩
  have hs := hpath.invariant
    (fun s _ _ (h : s.controller.Rated c.capMaxNewPerSec s.granted) hok hstep =>
      step_rated h hok hstep) hnew
  exact hs.within sec

/-- A controller that has just enabled its cap of two flows a second, in the first second. -/
def justCapped : Controller := (newController .auto 0).enableCap second 0

/-- Three callers read the clock in the first second and one in the second. The last one enters
before the third of the others, which then finds a new window. -/
theorem stale_reading_exceeds :
    justCapped.configured = .auto ∧ justCapped.capEnabled = true ∧ justCapped.capMaxNewPerSec = 2 ∧
    ∃ s, Path step anyLabel (new justCapped second)
        [.read 0 second, .read 1 second, .read 2 second, .read 3 (2 * second), .enter 0, .enter 1,
          .enter 3, .enter 2] s ∧ grantedIn s.granted 1 = 3 :=
  ⟨rfl, rfl, rfl, Path.exists_of_run (by decide +kernel)⟩

theorem two_in_order_granted : ∃ s, Path step InOrder (new justCapped second)
    [.read 0 second, .enter 0, .read 1 second, .enter 1, .read 2 second, .enter 2] s ∧
    s.granted = [second, second] ∧ grantedIn s.granted 1 ≤ 2 := by
  have henter (s : Permits) (i : ℕ) (now : ℤ) (hi : s.readings i = some now)
      (hsec : s.controller.capWindowSec ≤ now / second) : s.InOrder (.enter i) :=
    fun now' h => by cases hi.symm.trans h; exact hsec
  have hpath : Path step InOrder (new justCapped second)
      [.read 0 second, .enter 0, .read 1 second, .enter 1, .read 2 second, .enter 2] _ :=
    .cons trivial rfl (.cons (henter _ 0 second rfl (by decide)) rfl
      (.cons trivial rfl (.cons (henter _ 1 second rfl (by decide)) rfl
        (.cons trivial rfl (.cons (henter _ 2 second rfl (by decide)) rfl (.nil _))))))
  exact ⟨_, hpath, rfl, permits_within_rate justCapped second _ _ rfl rfl hpath 1⟩

end Permits
end VlfProto.Policy
