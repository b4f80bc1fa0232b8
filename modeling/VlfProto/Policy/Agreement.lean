import VlfProto.Policy.Controller

/-!
# The policy controllers of the two clients

The controller of the TUN client takes the time that a flow's setup took as a sample of the
round trip. The controllers agree as long as no setup takes a microsecond. The order in which
their loops meet the flows matters only when a flow asks for the fast mode: then the loop
leaves the flows that it has not met yet without a sample.
-/
namespace VlfProto
open Platform

/-- `registerFlow` of the SOCKS client; it gets the time of the setup and does not use it. -/
def SocksClient.registerFlow (c : Policy.Controller) (transport : Policy.Transport)
    (_setupDuration now : ℤ) : Policy.Controller :=
  c.registerFlow transport now

/-- `registerFlow` of the TUN client. The microseconds of the setup are a sample, in
milliseconds. -/
def TunClient.registerFlow (c : Policy.Controller) (transport : Policy.Transport)
    (setupDuration now : ℤ) : Policy.Controller :=
  if 0 < setupDuration then
    (c.registerFlow transport now).appendRTTSample now ((setupDuration.tdiv 1000 : ℤ) / 1000)
  else c.registerFlow transport now

namespace Policy

/-- An order in which a loop ranges over the flows. -/
structure VisitOrder where
  list : Finset ℕ → List ℕ
  list_val : ∀ s, (list s : Multiset ℕ) = s.val

namespace VisitOrder

theorem nodup (order : VisitOrder) (s : Finset ℕ) : (order.list s).Nodup := by
  rw [← Multiset.coe_nodup, order.list_val]
  exact s.nodup

theorem mem_list (order : VisitOrder) {s : Finset ℕ} {id : ℕ} :
    id ∈ order.list s ↔ id ∈ s := by
  rw [← Multiset.mem_coe, order.list_val, Finset.mem_val]

end VisitOrder

/-- What happens to a controller, with the readings of the clock. A tick has the orders in which
the controllers of the SOCKS client and of the TUN client visit their flows. -/
inductive ControllerEvent where
  | acquire (now : ℤ)
  | release
  | register (transport : Transport) (setupDuration now : ℤ)
  | unregister (id : ℕ)
  | quicFailure (now switchAt : ℤ)
  | transportError (now switchAt : ℤ)
  | probe (now : ℤ) (ms : ℚ)
  | policyTick (now switchAt : ℤ) (orders : VisitOrder × VisitOrder)
  | statsTick (now : ℤ)
  | download (id : ℕ) (n : ℤ)

namespace Controller

def recordedQUICFailure (c : Controller) (now switchAt : ℤ) : Controller :=
  bif (c.recordQUICFailure now).2 then (c.recordQUICFailure now).1.switchMode .survival switchAt
  else (c.recordQUICFailure now).1

def recordedTransportError (c : Controller) (now switchAt : ℤ) : Controller :=
  bif (c.recordTransportError now).2 then
    (c.recordTransportError now).1.switchMode .survival switchAt
  else (c.recordTransportError now).1

def evaluateAutoPolicy (c : Controller) (now switchAt : ℤ) (order : List ℕ) : Controller :=
  match c.policySnapshot now with
  | (c, none) => c
  | (c, some snapshot) =>
    match c.policyDecision now snapshot order with
    | (c, none) => c
    | (c, some next) => c.switchMode next switchAt

end Controller

/-- One event at a controller with the given `registerFlow` and with its own one of the two
orders. -/
def eventStep (registerFlow : Controller → Transport → ℤ → ℤ → Controller)
    (own : VisitOrder × VisitOrder → VisitOrder) (c : Controller) : ControllerEvent → Controller
  | .acquire now => (c.acquireFlowPermit now).1
  | .release => c.releaseFlowPermit
  | .register transport setupDuration now => registerFlow c transport setupDuration now
  | .unregister id => c.unregisterFlow id
  | .quicFailure now switchAt => c.recordedQUICFailure now switchAt
  | .transportError now switchAt => c.recordedTransportError now switchAt
  | .probe now ms => c.appendRTTSample now ms
  | .policyTick now switchAt orders =>
    c.evaluateAutoPolicy now switchAt ((own orders).list c.flows)
  | .statsTick now => c.printStats now
  | .download id n => c.download id n

def socksRun (c : Controller) (events : List ControllerEvent) : Controller :=
  events.foldl (eventStep SocksClient.registerFlow Prod.fst) c

def tunRun (c : Controller) (events : List ControllerEvent) : Controller :=
  events.foldl (eventStep TunClient.registerFlow Prod.snd) c

/-- What the two controllers should agree about. -/
structure Agree (c c' : Controller) : Prop where
  currentMode : c'.currentMode = c.currentMode
  switches : c'.switches = c.switches
  quicFailTimes : c'.quicFailTimes = c.quicFailTimes
  errorSpikeTime : c'.errorSpikeTime = c.errorSpikeTime
  rttSamples : c'.rttSamples = c.rttSamples
  highRTTTicks : c'.highRTTTicks = c.highRTTTicks
  lowRTTTicks : c'.lowRTTTicks = c.lowRTTTicks
  capEnabled : c'.capEnabled = c.capEnabled
  capMaxNewPerSec : c'.capMaxNewPerSec = c.capMaxNewPerSec
  capMaxActiveFlows : c'.capMaxActiveFlows = c.capMaxActiveFlows
  capWindowSec : c'.capWindowSec = c.capWindowSec
  capOpenedThisSec : c'.capOpenedThisSec = c.capOpenedThisSec
  pendingPermits : c'.pendingPermits = c.pendingPermits

theorem Agree.refl (c : Controller) : Agree c c :=
  ⟨rfl, rfl, rfl, rfl, rfl, rfl, rfl, rfl, rfl, rfl, rfl, rfl, rfl⟩

namespace Controller

variable {c c' : Controller} {now : ℤ}

def AsksFast (now : ℤ) (f : FlowState) : Prop :=
  fastFlowDurationThreshold ≤ instantSub now f.startedAt ∨ fastDownloadThreshold ≤ f.downBytes ∨
    fastDownrateThresholdMbps ≤ (avgDownrateMbps f now).2

/-- A loop that finds no flow that asks for the fast mode has sampled all of them. -/
theorem visitFlows_of_quiet {order : List ℕ} (hnodup : order.Nodup) :
    ∀ {c : Controller}, (∀ id ∈ order, ¬ AsksFast now (c.flowStates id)) →
      c.visitFlows now order = ({ c with flowStates := fun id =>
        if id ∈ order then (avgDownrateMbps (c.flowStates id) now).1 else c.flowStates id },
          false) := by
  induction order with
  | nil => exact fun _ => rfl
  | cons id order ih =>
    intro c hquiet
    obtain ⟨hid, hnodup⟩ := List.nodup_cons.mp hnodup
    obtain ⟨hfirst, hquiet⟩ := List.forall_mem_cons.mp hquiet
    simp only [AsksFast, not_or] at hfirst
    -- the rest of the loop meets the other flows as they were
    have hother : ∀ j ∈ order, (c.sampleFlow id now).flowStates j = c.flowStates j :=
      fun j hj => Function.update_of_ne (ne_of_mem_of_not_mem hj hid) ..
    rw [visitFlows, if_neg hfirst.1, if_neg hfirst.2.1, if_neg hfirst.2.2,
      ih hnodup fun j hj => (hother j hj).symm ▸ hquiet j hj]
    congr 2
    funext j
    by_cases hj : j ∈ order
    · rw [if_pos hj, if_pos (.tail _ hj), hother j hj]
    · obtain rfl | hne := eq_or_ne j id
      · simp [hj, sampleFlow]
      · simp [hj, hne, sampleFlow]

end Controller

open Controller

namespace ControllerEvent

/-- The setup of an event's flow gives no sample. -/
def Instant : ControllerEvent → Prop
  | .register _ setupDuration _ => setupDuration < 1000
  | _ => True

/-- Where a tick meets a flow that asks for the fast mode, both loops visit the flows in one
order. -/
def FindsAlike (c : Controller) : ControllerEvent → Prop
  | .policyTick now _ orders =>
    (∃ id ∈ c.flows, AsksFast now (c.flowStates id)) → orders.1 = orders.2
  | _ => True

end ControllerEvent

/-- All ticks of a run of the SOCKS client's controller do so. -/
def FindAlike (c : Controller) : List ControllerEvent → Prop
  | [] => True
  | e :: events => e.FindsAlike c ∧
    FindAlike (eventStep SocksClient.registerFlow Prod.fst c e) events

theorem registerFlow_eq_of_instant (c : Controller) (transport : Transport)
    {setupDuration : ℤ} (h : setupDuration < 1000) (now : ℤ) :
    TunClient.registerFlow c transport setupDuration now =
      SocksClient.registerFlow c transport setupDuration now := by
  rw [TunClient.registerFlow, SocksClient.registerFlow]
  split_ifs with hpos
  · have hzero : setupDuration.tdiv 1000 = 0 := Int.tdiv_eq_zero_of_lt (by omega) h
    rw [hzero, Controller.appendRTTSample, if_pos (by norm_num)]
  · rfl

theorem evaluateAutoPolicy_eq {c : Controller} {now switchAt : ℤ} {orders : VisitOrder × VisitOrder}
    (h : (∃ id ∈ c.flows, AsksFast now (c.flowStates id)) → orders.1 = orders.2) :
    c.evaluateAutoPolicy now switchAt (orders.2.list c.flows) =
      c.evaluateAutoPolicy now switchAt (orders.1.list c.flows) := by
  by_cases hasks : ∃ id ∈ c.flows, AsksFast now (c.flowStates id)
  · rw [h hasks]
  · have hstates : (c.policySnapshot now).1.flowStates = c.flowStates := by
      rw [policySnapshot]
      split_ifs <;> rfl
    have hvisit : ∀ order : VisitOrder, (c.policySnapshot now).1.visitFlows now
        (order.list c.flows) = ({ (c.policySnapshot now).1 with flowStates := fun id =>
          if id ∈ c.flows then (avgDownrateMbps (c.flowStates id) now).1 else c.flowStates id },
            false) := by
      intro order
      rw [visitFlows_of_quiet (order.nodup _)]
      · simp only [order.mem_list, hstates]
      · rw [hstates]
        exact fun id hid hfast => hasks ⟨id, order.mem_list.mp hid, hfast⟩
    rw [evaluateAutoPolicy, evaluateAutoPolicy]
    split
    · rfl
    · simp_all only [policyDecision]

theorem tunRun_take_eq {events : List ControllerEvent} (hinstant : ∀ e ∈ events, e.Instant) :
    ∀ {c : Controller}, FindAlike c events →
      ∀ k, tunRun c (events.take k) = socksRun c (events.take k) := by
  induction events with
  | nil => exact fun _ k => by rw [List.take_nil]; rfl
  | cons e events ih =>
    rintro c ⟨hfinds, hrest⟩ (_ | k)
    · rfl
    · obtain ⟨he, hinstant⟩ := List.forall_mem_cons.mp hinstant
      have hstep : eventStep TunClient.registerFlow Prod.snd c e =
          eventStep SocksClient.registerFlow Prod.fst c e := by
        cases e with
        | register transport setupDuration now =>
          exact registerFlow_eq_of_instant c transport he now
        | policyTick now switchAt orders => exact evaluateAutoPolicy_eq hfinds
        | _ => rfl
      change tunRun (eventStep _ _ c e) _ = _
      rw [hstep]
      exact ih hinstant hrest k

theorem dropWhile_append_ne {α : Type} {p : α → Bool} {x : α} (hx : p x = false) (l : List α) :
    (l ++ [x]).dropWhile p ≠ l := by
  intro h
  cases l with
  | nil => simp [hx] at h
  | cons a l =>
    -- what is left does not begin with an element that is dropped, so nothing was
    have ha := List.head?_dropWhile_not p (a :: l ++ [x])
    rw [h] at ha
    simpa [show p a = false from ha] using congrArg List.length h

/-- A setup of a microsecond or more gives the controller of the TUN client a sample. -/
theorem registerFlow_ne_of_not_instant {c c' : Controller} {transport : Transport}
    {setupDuration now : ℤ} (h : ¬ setupDuration < 1000) (hsamples : c'.rttSamples = c.rttSamples) :
    (TunClient.registerFlow c' transport setupDuration now).rttSamples ≠
      (SocksClient.registerFlow c transport setupDuration now).rttSamples := by
  have hregister : ∀ c : Controller, (c.registerFlow transport now).rttSamples = c.rttSamples := by
    intro c
    rw [Controller.registerFlow, noteTransport]
    split
    · rfl
    · split_ifs <;> rfl
  have hms : ¬ ((setupDuration.tdiv 1000 : ℤ) : ℚ) / 1000 ≤ 0 := by
    have hpos : 0 < setupDuration.tdiv 1000 := by
      rw [Int.tdiv_eq_ediv_of_nonneg (by omega)]
      omega
    exact not_le.mpr (div_pos (by exact_mod_cast hpos) (by norm_num))
  rw [TunClient.registerFlow, if_pos (by omega), appendRTTSample, if_neg hms,
    SocksClient.registerFlow, hregister c, ← hsamples, ← hregister c']
  have hkept : ¬ now < now - rttWindow := by
    simp only [rttWindow, second]
    omega
  exact dropWhile_append_ne (p := fun s : RTTSample => s.time < now - rttWindow)
    (decide_eq_false hkept) _

/-- The two controllers agree after all the events, and after every part of them, if and only
if no flow's setup takes a microsecond. -/
theorem instant_setups_agree {events : List ControllerEvent} (configured : Mode) (start : ℤ)
    (hfinds : FindAlike (newController configured start) events) :
    (∀ k, Agree (socksRun (newController configured start) (events.take k))
      (tunRun (newController configured start) (events.take k))) ↔
    ∀ e ∈ events, e.Instant := by
  constructor
  · intro hagree e he
    obtain ⟨k, hk, rfl⟩ := List.getElem_of_mem he
    have hbefore := (hagree k).rttSamples
    have hafter := (hagree (k + 1)).rttSamples
    rw [← List.take_concat_get' _ _ hk, socksRun, tunRun, List.foldl_append, List.foldl_append]
      at hafter
    cases hevent : events[k] with
    | register transport setupDuration now =>
      rw [hevent] at hafter
      by_contra hslow
      exact registerFlow_ne_of_not_instant hslow hbefore hafter
    | _ => trivial
  · intro hinstant k
    rw [tunRun_take_eq hinstant hfinds k]
    exact .refl _

def upward : VisitOrder where
  list s := (List.range (s.sup id + 1)).filter (· ∈ s)
  list_val s := by
    refine (Multiset.Nodup.ext (Multiset.coe_nodup.mpr (List.nodup_range.filter _)) s.nodup).mpr ?_
    intro k
    have hle : k ∈ s → k ≤ s.sup id := Finset.le_sup (f := id)
    simpa [Nat.lt_succ_iff] using hle

def downward : VisitOrder where
  list s := (upward.list s).reverse
  list_val s := by rw [Multiset.coe_reverse, upward.list_val]

/-- Two flows without a noticeable setup, which the loops meet in opposite orders, and
failures that lead to survival. -/
theorem instant_setups_reach_survival :
    let events : List ControllerEvent :=
      [.acquire 0, .register .quic 0 0, .acquire 1, .register .tcp 500 1, .download 2 1000,
        .policyTick 2 2 (upward, downward), .quicFailure 2 2, .quicFailure 3 3,
        .quicFailure 4 4, .probe 5 300, .statsTick (10 * second)]
    (∀ k, Agree (socksRun (newController .auto 0) (events.take k))
      (tunRun (newController .auto 0) (events.take k))) ∧
      (socksRun (newController .auto 0) events).currentMode = .survival ∧
      (socksRun (newController .auto 0) events).switches = 2 := by
  intro events
  have hinstant : ∀ e ∈ events, e.Instant := by
    simp [events, ControllerEvent.Instant]
  have hquiet : ¬ ∃ id ∈ (socksRun (newController .auto 0) (events.take 5)).flows,
      AsksFast 2 ((socksRun (newController .auto 0) (events.take 5)).flowStates id) := by
    simp only [AsksFast]
    decide +kernel
  have hfinds : FindAlike (newController .auto 0) events :=
    ⟨trivial, trivial, trivial, trivial, trivial, fun hasks => absurd hasks hquiet, trivial,
      trivial, trivial, trivial, trivial, trivial⟩
  exact ⟨(instant_setups_agree .auto 0 hfinds).mpr hinstant, by decide +kernel, by decide +kernel⟩

/-- Two flows whose setup took 300 ms make the controller of the TUN client cap the number of
flows, and the one of the SOCKS client has not seen a sample. -/
theorem slow_setups_differ :
    let events : List ControllerEvent :=
      [.acquire 0, .register .quic (300 * 1000000) (5 * second), .statsTick (10 * second),
        .acquire 0, .register .quic (300 * 1000000) (15 * second), .statsTick (20 * second)]
    let socks := socksRun (newController .auto 0) events
    let tun := tunRun (newController .auto 0) events
    socks.rttSamples = [] ∧ tun.rttSamples = [⟨5 * second, 300⟩, ⟨15 * second, 300⟩] ∧
      socks.capEnabled = false ∧ tun.capEnabled = true := by
  decide +kernel

end Policy
end VlfProto
