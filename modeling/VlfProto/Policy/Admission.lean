import VlfProto.Platform.Counting
import VlfProto.Policy.Cap
import VlfProto.Transition.Path

/-!
# Admission of flows

A permit of the policy controller is given back if the dial, the opening of the flow or one
of the replies to the client fails, and it becomes a registered flow otherwise. The pending
permits are those of the handlers that are on their way, and while there is a cap they and
the flows together are no more than it says.
-/
namespace VlfProto.Policy
open Platform Transition Finset

/-- Who opens flows, by the replies that are sent to the client before the flow counts. -/
inductive HandlerKind where
  | handleConnect
  | handleBind
  | getOrCreateEntry

def HandlerKind.replies : HandlerKind → ℕ
  | .handleConnect => 1
  | .handleBind => 2
  | .getOrCreateEntry => 0

inductive HandlerPc where
  | admission
  | dial
  | openFlow
  | reply (left : ℕ)
  | register
  | release
  | serving (id : ℕ)
  | returned

/-- The handler has a permit that it has neither released nor turned into a flow. -/
def HandlerPc.holdsPermit : HandlerPc → Bool
  | .dial => true
  | .openFlow => true
  | .reply _ => true
  | .register => true
  | .release => true
  | _ => false

def HandlerPc.afterReplies : ℕ → HandlerPc
  | 0 => .register
  | n + 1 => .reply (n + 1)

/-- A controller and the handlers that use it. -/
structure Admission where
  controller : Controller
  handlerCount : ℕ
  kinds : ℕ → HandlerKind
  handlers : ℕ → HandlerPc

/-- A handler goes on, with the outcome of what it does, the clock and the transport of its
client; or somebody uses the controller for something else. -/
inductive AdmissionAction where
  | handler (k : ℕ) (ok : Bool) (now : ℤ) (transport : Transport)
  | quicFailure (now : ℤ)
  | transportError (now : ℤ)
  | switchMode (next : Mode) (now : ℤ)
  | policySnapshot (now : ℤ)
  | visitFlows (now : ℤ) (order : List ℕ)
  | probe (now : ℤ) (ms : ℚ)
  | printStats (now : ℤ)
  | download (id : ℕ) (n : ℤ)

namespace Admission

def new (configured : Mode) (now : ℤ) (handlerCount : ℕ) (kinds : ℕ → HandlerKind) : Admission :=
  ⟨newController configured now, handlerCount, kinds, fun _ => .admission⟩

/-- Handler `k` goes on at `pc`. -/
def goOn (s : Admission) (k : ℕ) (c : Controller) (pc : HandlerPc) : Admission :=
  { s with controller := c, handlers := Function.update s.handlers k pc }

def handlerStep (s : Admission) (k : ℕ) (ok : Bool) (now : ℤ) (transport : Transport) :
    Option Admission :=
  let c := s.controller
  match s.handlers k with
  | .admission =>
    let r := c.acquireFlowPermit now
    some (s.goOn k r.1 (if r.2 then .dial else if ok then .admission else .returned))
  | .dial => some (s.goOn k c (if ok then .openFlow else .release))
  | .openFlow =>
    some (s.goOn k c (if ok then .afterReplies (s.kinds k).replies else .release))
  | .reply left => some (s.goOn k c (if ok then .afterReplies (left - 1) else .release))
  | .register =>
    some (s.goOn k (c.registerFlow transport now) (.serving (c.nextFlowID + 1)))
  | .release => some (s.goOn k c.releaseFlowPermit .returned)
  | .serving id => some (s.goOn k (c.unregisterFlow id) .returned)
  | .returned => none

def step (s : Admission) : AdmissionAction → Option Admission
  | .handler k ok now transport =>
    if k < s.handlerCount then s.handlerStep k ok now transport else none
  | .quicFailure now => some { s with controller := (s.controller.recordQUICFailure now).1 }
  | .transportError now => some { s with controller := (s.controller.recordTransportError now).1 }
  | .switchMode next now => some { s with controller := s.controller.switchMode next now }
  | .policySnapshot now => some { s with controller := (s.controller.policySnapshot now).1 }
  | .visitFlows now order => some { s with controller := (s.controller.visitFlows now order).1 }
  | .probe now ms => some { s with controller := s.controller.appendRTTSample now ms }
  | .printStats now => some { s with controller := s.controller.printStats now }
  | .download id n => some { s with controller := s.controller.download id n }

def permitHolders (s : Admission) : Finset ℕ :=
  (Finset.range s.handlerCount).filter fun k => (s.handlers k).holdsPermit

variable {s t : Admission} {k : ℕ}

structure Sound (s : Admission) : Prop where
  capped : s.controller.Capped
  permits : s.controller.pendingPermits = s.permitHolders.card

theorem permitHolders_card (s : Admission) : s.permitHolders.card =
    ∑ k ∈ Finset.range s.handlerCount, (s.handlers k).holdsPermit.toNat := by
  rw [permitHolders, card_filter]
  refine sum_congr rfl fun k _ => ?_
  cases (s.handlers k).holdsPermit <;> rfl

theorem goOn_permitHolders (hk : k < s.handlerCount) (c : Controller) (pc : HandlerPc) :
    (s.goOn k c pc).permitHolders.card + (s.handlers k).holdsPermit.toNat =
      s.permitHolders.card + pc.holdsPermit.toNat := by
  rw [permitHolders_card, permitHolders_card]
  exact sum_range_update (fun pc => pc.holdsPermit.toNat) s.handlers pc hk

theorem Sound.goOn_sound (hs : s.Sound) (hk : k < s.handlerCount) {c : Controller}
    (hc : c.Capped) (pc : HandlerPc)
    (hpermits : c.pendingPermits + (s.handlers k).holdsPermit.toNat =
      s.controller.pendingPermits + pc.holdsPermit.toNat) : (s.goOn k c pc).Sound := by
  refine ⟨hc, ?_⟩
  have hcard := goOn_permitHolders hk c pc
  have hbefore := hs.permits
  change c.pendingPermits = _
  omega

theorem holdsPermit_afterReplies (n : ℕ) : (HandlerPc.afterReplies n).holdsPermit = true := by
  cases n <;> rfl

/-- A permit that a handler holds is pending, so that the clamps do not act. -/
theorem Sound.pendingPermits_pos (hs : s.Sound) (hk : k < s.handlerCount)
    (hholds : (s.handlers k).holdsPermit = true) : 0 < s.controller.pendingPermits := by
  rw [hs.permits]
  exact card_pos.mpr ⟨k, mem_filter.mpr ⟨mem_range.mpr hk, hholds⟩⟩

theorem Sound.handlerStep_sound (hs : s.Sound) (hk : k < s.handlerCount) {ok : Bool}
    {now : ℤ} {transport : Transport} (h : s.handlerStep k ok now transport = some t) :
    t.Sound := by
  have hcapped := hs.capped
  cases hpc : s.handlers k <;> simp only [handlerStep, hpc] at h
  case admission =>
    cases h
    obtain ⟨hc, hpermits⟩ := hcapped.acquireFlowPermit_capped now
    refine hs.goOn_sound hk hc _ ?_
    rw [hpc, hpermits]
    cases (s.controller.acquireFlowPermit now).2 <;> cases ok <;> rfl
  case dial =>
    cases h
    refine hs.goOn_sound hk hcapped _ ?_
    rw [hpc]
    cases ok <;> rfl
  case openFlow | reply left =>
    cases h
    refine hs.goOn_sound hk hcapped _ ?_
    rw [hpc]
    cases ok with
    | true => rw [if_pos rfl, holdsPermit_afterReplies]; rfl
    | false => rfl
  case register =>
    cases h
    have hholds := hs.pendingPermits_pos hk (hpc ▸ rfl)
    obtain ⟨hc, hpermits⟩ := hcapped.registerFlow_capped hholds transport now
    refine hs.goOn_sound hk hc _ ?_
    rw [hpc, ← hpermits]
    rfl
  case release =>
    cases h
    have hholds := hs.pendingPermits_pos hk (hpc ▸ rfl)
    refine hs.goOn_sound hk hcapped.releaseFlowPermit_capped _ ?_
    rw [hpc]
    exact Controller.releaseFlowPermit_pending hholds
  case serving id =>
    cases h
    refine hs.goOn_sound hk (hcapped.unregisterFlow_capped id) _ ?_
    rw [hpc]
    rfl
  case returned => cases h

/-- Somebody uses the controller for something that admission is not about. -/
theorem Sound.controller_sound (hs : s.Sound) {c : Controller}
    (h : s.controller.SameAdmission c) : Sound { s with controller := c } :=
  ⟨hs.capped.same h, h.pendingPermits.trans hs.permits⟩

theorem Sound.step_sound (hs : s.Sound) {action : AdmissionAction} (h : s.step action = some t) :
    t.Sound := by
  cases action with
  | handler k ok now transport =>
    rw [step] at h
    split_ifs at h with hk
    exact hs.handlerStep_sound hk h
  | quicFailure now | transportError now | download id n =>
    cases h
    exact hs.controller_sound ⟨rfl, rfl, rfl, rfl, rfl, rfl⟩
  | switchMode next now =>
    cases h
    exact hs.controller_sound (Controller.switchMode_admission _ next now)
  | policySnapshot now =>
    cases h
    exact hs.controller_sound (Controller.policySnapshot_admission _ now)
  | visitFlows now order =>
    cases h
    exact hs.controller_sound (Controller.visitFlows_admission now order _)
  | probe now ms =>
    cases h
    exact hs.controller_sound (Controller.appendRTTSample_admission _ now ms)
  | printStats now =>
    cases h
    obtain ⟨hcapped, hpermits⟩ := hs.capped.printStats_capped now
    exact ⟨hcapped, hpermits.trans hs.permits⟩

theorem new_sound (configured : Mode) (now : ℤ) (handlerCount : ℕ) (kinds : ℕ → HandlerKind) :
    (new configured now handlerCount kinds).Sound := by
  refine ⟨Controller.newController_capped configured now, ?_⟩
  rw [permitHolders_card]
  exact (sum_eq_zero fun _ _ => rfl).symm

/-- In every state the pending permits are those of the handlers that hold one, and where
there is a cap the flows and the pending permits are within it. -/
theorem permits_counted_and_capped {configured : Mode} {now : ℤ} {handlerCount : ℕ}
    {kinds : ℕ → HandlerKind} {as : List AdmissionAction}
    (hpath : Path step anyLabel (new configured now handlerCount kinds) as s) :
    s.controller.pendingPermits = s.permitHolders.card ∧
      (s.controller.capEnabled = true →
        s.controller.flows.card + s.controller.pendingPermits ≤
          s.controller.capMaxActiveFlows) := by
  have hs : s.Sound := hpath.invariant (fun _ _ _ hs _ h => hs.step_sound h)
    (new_sound configured now handlerCount kinds)
  exact ⟨hs.permits, hs.capped.capped⟩

/-- Slow round trips enable the cap while one handler is on its way, and a second one fails
to dial. -/
def cappedRun : List AdmissionAction :=
  [.handler 0 true 0 .quic, .probe (5 * second) 300, .printStats (10 * second),
    .probe (15 * second) 300, .printStats (20 * second), .handler 1 true (21 * second) .quic,
    .handler 1 false (21 * second) .quic, .handler 0 true (21 * second) .quic,
    .handler 0 true (21 * second) .quic, .handler 0 true (21 * second) .quic,
    .handler 0 true (22 * second) .quic]

theorem cappedRun_within_cap : ∃ s,
    Path step anyLabel (new .auto 0 3 fun _ => .handleConnect) cappedRun s ∧
      s.controller.capEnabled = true ∧ s.controller.flows = {1} ∧
      s.permitHolders = {1} ∧ s.controller.pendingPermits = 1 ∧
      s.controller.flows.card + s.controller.pendingPermits ≤
        s.controller.capMaxActiveFlows := by
  refine Path.exists_of_run_imp (P := fun s => s.controller.capEnabled = true ∧
      s.controller.flows = {1} ∧ s.permitHolders = {1})
    (by decide +kernel) fun s hpath ⟨henabled, hflows, hholders⟩ => ?_
  obtain ⟨hpermits, hcapped⟩ := permits_counted_and_capped hpath
  exact ⟨henabled, hflows, hholders, by rw [hpermits, hholders]; rfl, hcapped henabled⟩

end Admission
end VlfProto.Policy
