import Mathlib.Data.List.Sort
import VlfProto.Platform.Clock

/-!
# The policy controller

The SOCKS client and the TUN client have a policy controller each. This is the code that the
two have in common, function by function; each function is one critical section of the mutex,
and what follows a critical section is returned. Times are given to the functions that read
the clock, and samples and rates are exact.
-/
namespace VlfProto.Policy
open Platform Function

inductive Mode where
  | auto
  | normal
  | fast
  | survival
  deriving DecidableEq

inductive Transport where
  | quic
  | tcp
  | relay
  deriving DecidableEq

def second : ℤ := 1000000000

def fastFlowDurationThreshold : ℤ := 10 * second
def fastDownloadThreshold : ℤ := 64 * 1024 * 1024
def fastDownrateThresholdMbps : ℚ := 20
def fastDownrateWindow : ℤ := 5 * second
def failureWindowDuration : ℤ := 30 * second
def quicFailureThreshold : ℕ := 3
def transportErrorThreshold : ℕ := 8
def survivalRecoveryMinDelay : ℤ := 60 * second
def statsPrintInterval : ℤ := 10 * second
def rttWindow : ℤ := 120 * second
def capRTTHighMs : ℚ := 250
def capRTTLowMs : ℚ := 150
def capEnableConsecutive : ℕ := 2
def capDisableConsecutive : ℕ := 3
def capMaxNewFlowsPerSecond : ℕ := 2
def capActiveFlowsMargin : ℕ := 4

/-- The instant of a time that was never set. -/
def zeroTime : ℤ := -62135596800 * second

structure DownSample where
  time : ℤ
  total : ℤ

structure FlowState where
  startedAt : ℤ := 0
  transport : Transport := .quic
  downBytes : ℤ := 0
  downSamples : List DownSample := []

structure RTTSample where
  time : ℤ
  ms : ℚ
  deriving DecidableEq

/-- The controller. `flowStates` has all flows that were ever registered, `flows` the
numbers of those that still are. -/
structure Controller where
  configured : Mode
  currentMode : Mode
  nextFlowID : ℕ := 0
  flows : Finset ℕ := ∅
  flowStates : ℕ → FlowState := fun _ => {}
  lastTransport : Option Transport := none
  switches : ℕ := 0
  quicFailTimes : List ℤ := []
  errorSpikeTime : List ℤ := []
  survivalSince : ℤ := zeroTime
  survivalUntil : ℤ := zeroTime
  rttSamples : List RTTSample := []
  lastStatsAt : ℤ
  highRTTTicks : ℕ := 0
  lowRTTTicks : ℕ := 0
  capEnabled : Bool := false
  capMaxNewPerSec : ℕ := 0
  capMaxActiveFlows : ℕ := 0
  capWindowSec : ℤ := 0
  capOpenedThisSec : ℕ := 0
  pendingPermits : ℕ := 0

/-- `newPolicyController`. -/
def newController (configured : Mode) (now : ℤ) : Controller where
  configured
  currentMode := if configured = .auto then .normal else configured
  lastStatsAt := now

namespace Controller

/-- A new second of the clock starts with no flows. -/
def rollWindow (c : Controller) (now : ℤ) : Controller :=
  if now / second ≠ c.capWindowSec then
    { c with capWindowSec := now / second, capOpenedThisSec := 0 }
  else c

/-- One round of the loop of `acquireFlowPermit`; the flag tells whether it returns with a
permit. -/
def acquireFlowPermit (c : Controller) (now : ℤ) : Controller × Bool :=
  if c.configured ≠ .auto ∨ c.capEnabled = false then
    ({ c with pendingPermits := c.pendingPermits + 1 }, true)
  else if c.flows.card + c.pendingPermits < c.capMaxActiveFlows ∧
      (c.rollWindow now).capOpenedThisSec < c.capMaxNewPerSec then
    ({ c.rollWindow now with
      pendingPermits := c.pendingPermits + 1
      capOpenedThisSec := (c.rollWindow now).capOpenedThisSec + 1 }, true)
  else (c.rollWindow now, false)

def releaseFlowPermit (c : Controller) : Controller :=
  { c with
    pendingPermits := if 0 < c.pendingPermits then c.pendingPermits - 1 else c.pendingPermits }

def noteTransport (c : Controller) (transport : Transport) : Controller :=
  match c.lastTransport with
  | none => { c with lastTransport := some transport }
  | some last =>
    if last = transport then c
    else { c with lastTransport := some transport, switches := c.switches + 1 }

/-- The new flow's number is `nextFlowID` afterwards. -/
def addFlow (c : Controller) (transport : Transport) (now : ℤ) : Controller :=
  { c with
    nextFlowID := c.nextFlowID + 1
    flows := insert (c.nextFlowID + 1) c.flows
    flowStates := update c.flowStates (c.nextFlowID + 1) { startedAt := now, transport } }

def registerFlow (c : Controller) (transport : Transport) (now : ℤ) : Controller :=
  (c.releaseFlowPermit.addFlow transport now).noteTransport transport

def unregisterFlow (c : Controller) (id : ℕ) : Controller := { c with flows := c.flows.erase id }

def pruneTimes (items : List ℤ) (cutoff : ℤ) : List ℤ := items.dropWhile (· < cutoff)

/-- The critical section of `recordQUICFailure`; the flag tells whether it goes on to switch
to survival. -/
def recordQUICFailure (c : Controller) (now : ℤ) : Controller × Bool :=
  let times := pruneTimes (c.quicFailTimes ++ [now]) (now - failureWindowDuration)
  ({ c with quicFailTimes := times },
    c.configured = .auto ∧ c.currentMode ≠ .survival ∧ quicFailureThreshold ≤ times.length)

/-- The critical section of `recordTransportError`; the flag tells whether it goes on to
switch to survival. -/
def recordTransportError (c : Controller) (now : ℤ) : Controller × Bool :=
  let times := pruneTimes (c.errorSpikeTime ++ [now]) (now - failureWindowDuration)
  ({ c with errorSpikeTime := times },
    c.configured = .auto ∧ c.currentMode ≠ .survival ∧ transportErrorThreshold ≤ times.length)

def switchMode (c : Controller) (next : Mode) (now : ℤ) : Controller :=
  if c.currentMode = next then c
  else
    { c with
      currentMode := next
      switches := c.switches + 1
      survivalSince := if next = .survival then now else c.survivalSince
      survivalUntil :=
        if next = .survival then now + survivalRecoveryMinDelay else c.survivalUntil }

/-- What `evaluateAutoPolicy` has read under the lock. -/
structure Snapshot where
  mode : Mode
  quicFails : ℕ
  transportErrs : ℕ
  survivalUntil : ℤ
  deriving DecidableEq

/-- The critical section of `evaluateAutoPolicy`. -/
def policySnapshot (c : Controller) (now : ℤ) : Controller × Option Snapshot :=
  if c.configured ≠ .auto then (c, none)
  else
    let quic := pruneTimes c.quicFailTimes (now - failureWindowDuration)
    let errs := pruneTimes c.errorSpikeTime (now - failureWindowDuration)
    ({ c with quicFailTimes := quic, errorSpikeTime := errs },
      some ⟨c.currentMode, quic.length, errs.length, c.survivalUntil⟩)

def bytesToMbps (deltaBytes : ℤ) (secs : ℚ) : ℚ :=
  if deltaBytes ≤ 0 ∨ secs ≤ 0 then 0 else deltaBytes * 8 / secs / 1000000

/-- The samples that `avgDownrateMbps` keeps: all of the window, and always the last one. -/
def keepSamples (cutoff : ℤ) : List DownSample → List DownSample
  | [] => []
  | [s] => [s]
  | s :: s' :: rest => if s.time < cutoff then keepSamples cutoff (s' :: rest) else s :: s' :: rest

/-- The flow with its samples, and the rate. -/
def avgDownrateMbps (flow : FlowState) (now : ℤ) : FlowState × ℚ :=
  let samples :=
    keepSamples (now - fastDownrateWindow) (flow.downSamples ++ [⟨now, flow.downBytes⟩])
  ({ flow with downSamples := samples },
    match samples.head?, samples.getLast? with
    | some first, some last =>
      if samples.length < 2 then 0
      else bytesToMbps (last.total - first.total) (instantSub last.time first.time / second)
    | _, _ => 0)

def sampleFlow (c : Controller) (id : ℕ) (now : ℤ) : Controller :=
  { c with flowStates :=
      update c.flowStates id (avgDownrateMbps (c.flowStates id) now).1 }

/-- The loop of `evaluateAutoPolicy` over the flows, in the order in which it finds them;
the flag tells whether it has found a flow that asks for the fast mode. -/
def visitFlows (c : Controller) (now : ℤ) : List ℕ → Controller × Bool
  | [] => (c, false)
  | id :: order =>
    if fastFlowDurationThreshold ≤ instantSub now (c.flowStates id).startedAt then (c, true)
    else if fastDownloadThreshold ≤ (c.flowStates id).downBytes then (c, true)
    else if fastDownrateThresholdMbps ≤ (avgDownrateMbps (c.flowStates id) now).2 then
      (c.sampleFlow id now, true)
    else (c.sampleFlow id now).visitFlows now order

/-- The loop changes nothing but the samples of the flows. -/
theorem visitFlows_fst (now : ℤ) (order : List ℕ) : ∀ c : Controller,
    (c.visitFlows now order).1 =
      { c with flowStates := (c.visitFlows now order).1.flowStates } := by
  induction order with
  | nil => exact fun c => rfl
  | cons id order ih =>
    intro c
    rw [visitFlows]
    split_ifs
    · rfl
    · rfl
    · rfl
    · exact ih (c.sampleFlow id now)

/-- What `evaluateAutoPolicy` decides after its critical section: the mode that it switches
to. -/
def policyDecision (c : Controller) (now : ℤ) (s : Snapshot) (order : List ℕ) :
    Controller × Option Mode :=
  if s.mode ≠ .survival ∧ quicFailureThreshold ≤ s.quicFails then (c, some .survival)
  else if s.mode ≠ .survival ∧ transportErrorThreshold ≤ s.transportErrs then (c, some .survival)
  else if s.mode = .survival then
    (c, if s.survivalUntil < now ∧ s.quicFails = 0 ∧ s.transportErrs = 0 then some .normal
      else none)
  else if s.mode ≠ .normal then (c, none)
  else
    let r := c.visitFlows now order
    (r.1, if r.2 then some .fast else none)

def pruneRTTSamples (c : Controller) (cutoff : ℤ) : Controller :=
  { c with rttSamples := c.rttSamples.dropWhile (·.time < cutoff) }

def appendRTTSample (c : Controller) (now : ℤ) (ms : ℚ) : Controller :=
  if ms ≤ 0 then c
  else
    let samples := c.rttSamples ++ [{ time := now, ms }]
    { c with rttSamples := samples }.pruneRTTSamples (now - rttWindow)

/-- The samples that `collectRTTWindowLocked` returns, after it has pruned. -/
def windowSamples (c : Controller) (start : ℤ) : List ℚ :=
  (c.rttSamples.filter fun s => start ≤ s.time).map (·.ms)

def percentile (samples : List ℚ) (p : ℚ) : ℚ :=
  let cp := samples.insertionSort (· ≤ ·)
  if p ≤ 0 then cp.headD 0
  else if 100 ≤ p then cp.getLastD 0
  else
    let pos := p / 100 * ((cp.length : ℚ) - 1)
    let lo := pos.floor.toNat
    if cp.length ≤ lo + 1 then cp.getD lo 0
    else cp.getD lo 0 * (1 - (pos - lo)) + cp.getD (lo + 1) 0 * (pos - lo)

def disableCap (c : Controller) : Controller :=
  { c with
    capEnabled := false, capMaxNewPerSec := 0, capMaxActiveFlows := 0, capOpenedThisSec := 0 }

def enableCap (c : Controller) (now : ℤ) (activeFlows : ℕ) : Controller :=
  { c with
    capEnabled := true
    capMaxNewPerSec := capMaxNewFlowsPerSecond
    capMaxActiveFlows := activeFlows + c.pendingPermits + capActiveFlowsMargin
    capWindowSec := now / second
    capOpenedThisSec := 0 }

def setTicks (c : Controller) (high low : ℕ) : Controller :=
  { c with highRTTTicks := high, lowRTTTicks := low }

def updateAdaptiveCap (c : Controller) (now : ℤ) (activeFlows : ℕ) (rttP95 : Option ℚ) :
    Controller :=
  if c.configured ≠ .auto then c.disableCap.setTicks 0 0
  else
    match rttP95 with
    | none => c.setTicks 0 0
    | some value =>
      if capRTTHighMs < value then
        if c.capEnabled = false ∧ capEnableConsecutive ≤ c.highRTTTicks + 1 then
          (c.setTicks (c.highRTTTicks + 1) 0).enableCap now activeFlows
        else c.setTicks (c.highRTTTicks + 1) 0
      else if value < capRTTLowMs then
        if c.capEnabled = true ∧ capDisableConsecutive ≤ c.lowRTTTicks + 1 then
          (c.setTicks 0 (c.lowRTTTicks + 1)).disableCap
        else c.setTicks 0 (c.lowRTTTicks + 1)
      else c.setTicks 0 0

/-- The 95th percentile of the round trips since the last statistics, if there are any. -/
def rttP95 (c : Controller) : Option ℚ :=
  if c.windowSamples c.lastStatsAt = [] then none
  else some (percentile (c.windowSamples c.lastStatsAt) 95)

/-- The critical section of `printStats`. -/
def printStats (c : Controller) (now : ℤ) : Controller :=
  if instantSub now c.lastStatsAt < statsPrintInterval then c
  else
    let c := c.pruneRTTSamples (now - rttWindow)
    { c.updateAdaptiveCap now c.flows.card c.rttP95 with lastStatsAt := now }

def download (c : Controller) (id : ℕ) (n : ℤ) : Controller :=
  let flow := c.flowStates id
  { c with flowStates :=
      update c.flowStates id { flow with downBytes := flow.downBytes + n } }

end Controller
end VlfProto.Policy
