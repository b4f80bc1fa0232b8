import VlfProto.Session.FlowEnds
import VlfProto.Session.QUIC.Opens

/-! # The counters of the datagram queues -/

namespace VlfProto.Session
open Platform Transition Function List

/-- The counter of the metrics and that of the session. -/
inductive QueueGauge where
  | metrics
  | session
  deriving DecidableEq

/-- The counter that an action is about. -/
def CounterPc.gauge : CounterPc → QueueGauge
  | .addMetrics => .metrics
  | .clampMetrics => .metrics
  | .addLen => .session
  | .clampLen => .session

def CounterPc.adds : CounterPc → Bool
  | .addMetrics => true
  | .addLen => true
  | _ => false

/-- The task that a goroutine at this action has not counted yet. -/
def uncounted (gauge : QueueGauge) : Option CounterPc → ℤ
  | some .addMetrics => 1
  | some .addLen => if gauge = .session then 1 else 0
  | _ => 0

namespace QUICSession

variable {s s' t : QUICSession} {i : ℕ} {ok : Bool} {now : ℤ} {raw : Option Bytes}
  {frame : Option Frame} {label : QUICSessionStep} {q : ℕ → List DatagramPacket}
  {pkt : DatagramPacket}

def gauge (s : QUICSession) : QueueGauge → ℤ
  | .metrics => s.metricsQueue
  | .session => s.datagramQLen

def queued (s : QUICSession) : ℕ := ∑ i ∈ Finset.range s.workerCount, (s.queues i).length

def uncountedByWorkers (s : QUICSession) (gauge : QueueGauge) : ℤ :=
  ∑ i ∈ Finset.range s.workerCount, uncounted gauge (s.workers i).counting

/-- No goroutine is between an operation on a queue and its changes of the counters. -/
def NotCounting (s : QUICSession) : Prop :=
  s.datagramReader.counting = none ∧ ∀ i < s.workerCount, (s.workers i).counting = none

instance (s : QUICSession) : Decidable s.NotCounting :=
  inferInstanceAs (Decidable (_ ∧ _))

/-- A worker takes a task off a counter that shows one. -/
def CountsAbove (s : QUICSession) : QUICSessionStep → Prop
  | .worker i _ _ => ∀ pc ∈ (s.workers i).counting, 0 < s.gauge pc.gauge
  | _ => True

instance (s : QUICSession) (label : QUICSessionStep) : Decidable (s.CountsAbove label) := by
  induction label using QUICSessionStep.casesOn <;>
    first | exact instDecidableTrue | exact Option.decidableForallMem _

structure Counted (s : QUICSession) : Prop where
  balance : ∀ gauge, s.gauge gauge + uncounted gauge s.datagramReader.counting =
    s.queued + s.uncountedByWorkers gauge
  nonneg : ∀ gauge, 0 ≤ s.gauge gauge
  readerAdds : ∀ pc ∈ s.datagramReader.counting, pc.adds
  workerAdds : ∀ i, ∀ pc ∈ (s.workers i).counting, pc.adds
  unstarted : s.run.early → s.datagramReader = .notStarted ∧ ∀ i, s.workers i = .notStarted
  beyond : ∀ i, s.workerCount ≤ i → s.workers i = .notStarted

theorem new_counted (cfg : SessionConfig) (id : UInt64) (limits : Limits.Manager) :
    (new cfg id limits).Counted where
  balance gauge := by
    cases gauge <;> simp [new, QUICSession.gauge, queued, uncountedByWorkers, uncounted,
      WorkerPc.counting, DatagramReaderPc.counting]
  nonneg gauge := by cases gauge <;> exact le_rfl
  readerAdds _ h := by cases h
  workerAdds _ _ h := by cases h
  unstarted _ := ⟨rfl, fun _ => rfl⟩
  beyond _ _ := rfl

theorem Counted.lt_workerCount (h : s.Counted) (hi : s.workers i ≠ .notStarted) :
    i < s.workerCount := by
  by_contra hle
  exact hi (h.beyond i (not_lt.mp hle))

theorem Counted.not_early (h : s.Counted)
    (hi : s.datagramReader ≠ .notStarted ∨ s.workers i ≠ .notStarted) : ¬s.run.early := by
  intro hearly
  obtain ⟨hreader, hworkers⟩ := h.unstarted hearly
  rcases hi with hi | hi
  · exact hi hreader
  · exact hi (hworkers i)

theorem Counted.apart (h : s.Counted) (hs : s.Apart t) : t.Counted := by
  obtain ⟨hmetrics, hlen⟩ := hs.counters
  have hcount : t.workerCount = s.workerCount := by simp only [workerCount, hs.cfg]
  have hgauge : ∀ gauge, t.gauge gauge = s.gauge gauge := fun gauge => by
    cases gauge
    · exact hmetrics
    · exact hlen
  constructor
  · intro gauge
    simp only [hgauge, queued, uncountedByWorkers, hcount, hs.queues, hs.workers,
      hs.datagramReader]
    exact h.balance gauge
  · exact fun gauge => hgauge gauge ▸ h.nonneg gauge
  · exact hs.datagramReader ▸ h.readerAdds
  · exact hs.workers ▸ h.workerAdds
  · rw [hs.run, hs.datagramReader, hs.workers]
    exact h.unstarted
  · rw [hcount, hs.workers]
    exact h.beyond

theorem countStep_queued (s : QUICSession) (delta : ℤ) (clamps : Bool) (pc : CounterPc) :
    (s.countStep delta clamps pc).1.queued = s.queued := by
  cases pc <;> rfl

/-- An action that does not go below zero changes its counter by what it has to count. -/
theorem countStep_adds {delta : ℤ} (clamps : Bool) {pc : CounterPc} (hadds : pc.adds)
    (hge : 0 ≤ s.gauge pc.gauge + delta) (hnonneg : ∀ gauge, 0 ≤ s.gauge gauge) :
    (∀ gauge, (s.countStep delta clamps pc).1.gauge gauge = s.gauge gauge +
      delta * (uncounted gauge (some pc) - uncounted gauge (s.countStep delta clamps pc).2)) ∧
    (∀ gauge, 0 ≤ (s.countStep delta clamps pc).1.gauge gauge) ∧
    ∀ next ∈ (s.countStep delta clamps pc).2, next.adds := by
  cases pc with
  | addMetrics =>
    have hnot : ¬s.metricsQueue + delta < 0 := not_lt.mpr hge
    refine ⟨fun gauge => ?_, fun gauge => ?_, by simp [countStep, hnot, CounterPc.adds]⟩
    · cases gauge <;> simp [countStep, hnot, QUICSession.gauge, uncounted]
    · cases gauge
      · exact hge
      · exact hnonneg .session
  | addLen =>
    have hnot : ¬s.datagramQLen + delta < 0 := not_lt.mpr hge
    refine ⟨fun gauge => ?_, fun gauge => ?_, by simp [countStep, hnot]⟩
    · cases gauge <;> simp [countStep, hnot, QUICSession.gauge, uncounted]
    · cases gauge
      · exact hnonneg .metrics
      · exact hge
  | clampMetrics | clampLen => cases hadds

/-- The reader of datagrams moves, and the counters with what it has to count move as
the queues do. -/
theorem Counted.setReader {pc : DatagramReaderPc} {m n : ℤ} (hs : s.Counted)
    (ht : t = { s with queues := q, metricsQueue := m, datagramQLen := n, datagramReader := pc })
    (hstarted : s.datagramReader ≠ .notStarted)
    (hgauge : ∀ gauge, t.gauge gauge + uncounted gauge pc.counting + s.queued =
      s.gauge gauge + uncounted gauge s.datagramReader.counting + t.queued)
    (hnonneg : ∀ gauge, 0 ≤ t.gauge gauge) (hadds : ∀ next ∈ pc.counting, next.adds) :
    t.Counted := by
  subst ht
  have hlate := hs.not_early (i := 0) (.inl hstarted)
  refine { hs with balance := fun gauge => ?_, nonneg := hnonneg, readerAdds := hadds,
                   unstarted := fun hearly => absurd hearly hlate }
  have hbalance := hs.balance gauge
  have hmove := hgauge gauge
  change _ + uncounted gauge pc.counting = _ + s.uncountedByWorkers gauge
  omega

theorem Counted.enqueue (hs : s.Counted) (hpc : s.datagramReader = .enqueue pkt) :
    { s with
      queues := update s.queues (s.queueOf pkt) (s.queues (s.queueOf pkt) ++ [pkt])
      datagramReader := .count .addMetrics }.Counted := by
  have hsum := sum_range_update List.length s.queues (s.queues (s.queueOf pkt) ++ [pkt])
    (s.queueOf_lt pkt)
  rw [length_append, length_singleton] at hsum
  refine hs.setReader rfl (by simp [hpc]) (fun gauge => ?_) hs.nonneg ?_
  · rw [hpc]
    change s.gauge gauge + 1 + ((∑ j ∈ Finset.range s.workerCount, (s.queues j).length : ℕ) : ℤ) =
      s.gauge gauge + 0 + ((∑ j ∈ Finset.range s.workerCount, (update s.queues
        (s.queueOf pkt) (s.queues (s.queueOf pkt) ++ [pkt]) j).length : ℕ) : ℤ)
    omega
  · rintro pc ⟨⟩
    rfl

theorem datagramReadStep_counted (h : s.datagramReadStep raw now = some s') (hs : s.Counted) :
    s'.Counted := by
  cases datagramReadStep_cases h with
  | enqueue hpc hroom => exact hs.enqueue hpc
  | full hpc hfull =>
    refine hs.setReader rfl (by simp [hpc]) (fun gauge => ?_) hs.nonneg (by rintro pc ⟨⟩)
    rw [hpc]
    rfl
  | @count pc hpc =>
    have hcounting : s.datagramReader.counting = some pc := by rw [hpc]; rfl
    have hge : 0 ≤ s.gauge pc.gauge + 1 := add_nonneg (hs.nonneg _) zero_le_one
    obtain ⟨hgauge, hnonneg, hadds⟩ :=
      countStep_adds false (hs.readerAdds pc hcounting) hge hs.nonneg
    obtain ⟨m, n, hfields⟩ := s.countStep_fields 1 false pc
    have hnext : ((s.countStep 1 false pc).2.elim .receive .count : DatagramReaderPc).counting =
        (s.countStep 1 false pc).2 := by cases (s.countStep 1 false pc).2 <;> rfl
    refine hs.setReader (q := s.queues) (m := m) (n := n) (by rw [hfields]) (by simp [hpc])
      (fun gauge => ?_) hnonneg (hnext ▸ hadds)
    have hadd := hgauge gauge
    rw [hnext, hcounting]
    change (s.countStep 1 false pc).1.gauge gauge + _ + _ =
      _ + ((s.countStep 1 false pc).1.queued : ℤ)
    rw [countStep_queued]
    omega
  | other hstarted henqueue hpc hnext ht =>
    refine (hs.apart ht).setReader rfl (ht.datagramReader ▸ hstarted) (fun gauge => ?_)
      (hs.apart ht).nonneg (by simp [hnext])
    rw [hnext, ht.datagramReader, hpc]
    rfl

/-- A worker moves, and the counters with what it has to count move as the queues do. -/
theorem Counted.setWorker {pc : WorkerPc} {m n : ℤ} (hs : s.Counted)
    (ht : t = { s with queues := q, metricsQueue := m, datagramQLen := n }.setWorker i pc)
    (hstarted : s.workers i ≠ .notStarted)
    (hgauge : ∀ gauge, t.gauge gauge + uncounted gauge (s.workers i).counting + s.queued =
      s.gauge gauge + uncounted gauge pc.counting + t.queued)
    (hnonneg : ∀ gauge, 0 ≤ t.gauge gauge) (hadds : ∀ next ∈ pc.counting, next.adds) :
    t.Counted := by
  subst ht
  have hi := hs.lt_workerCount hstarted
  have hlate := hs.not_early (.inr hstarted)
  refine { hs with balance := fun gauge => ?_, nonneg := hnonneg, workerAdds := fun j => ?_,
                   unstarted := fun hearly => absurd hearly hlate,
                   beyond := fun j hj => ?_ }
  · have hsum := sum_range_update (fun pc : WorkerPc => uncounted gauge pc.counting) s.workers pc hi
    have hbalance := hs.balance gauge
    have hmove := hgauge gauge
    change _ + uncounted gauge s.datagramReader.counting = _ +
      ∑ j ∈ Finset.range s.workerCount, uncounted gauge (update s.workers i pc j).counting
    unfold uncountedByWorkers at hbalance
    omega
  · by_cases hj : j = i
    · simpa [QUICSession.setWorker, hj] using hadds
    · simpa [QUICSession.setWorker, hj] using hs.workerAdds j
  · have hne : j ≠ i := fun h => absurd (h ▸ hi) (not_lt.mpr hj)
    exact (update_of_ne hne _ _).trans (hs.beyond j hj)

theorem Counted.take {rest : List DatagramPacket} {task : Option DatagramPacket} (hs : s.Counted)
    (hqueue : s.queues i = pkt :: rest) (hstarted : s.workers i ≠ .notStarted)
    (hidle : (s.workers i).counting = none) :
    ({ s with queues := update s.queues i rest }.setWorker i
      (.count task .addMetrics)).Counted := by
  have hsum := sum_range_update List.length s.queues rest (hs.lt_workerCount hstarted)
  rw [hqueue, length_cons] at hsum
  refine hs.setWorker rfl hstarted (fun gauge => ?_) hs.nonneg ?_
  · rw [hidle]
    change s.gauge gauge + 0 + ((∑ j ∈ Finset.range s.workerCount, (s.queues j).length : ℕ) : ℤ) =
      s.gauge gauge + 1 +
        ((∑ j ∈ Finset.range s.workerCount, (update s.queues i rest j).length : ℕ) : ℤ)
    omega
  · rintro pc ⟨⟩
    rfl

theorem Counted.idle {pc : WorkerPc} (hs : s.Counted) (hstarted : s.workers i ≠ .notStarted)
    (hidle : (s.workers i).counting = none) (hnext : pc.counting = none) :
    (s.setWorker i pc).Counted := by
  refine hs.setWorker rfl hstarted (fun gauge => ?_) hs.nonneg (by simp [hnext])
  rw [hidle, hnext]
  rfl

theorem workerStep_counted (h : s.workerStep i ok now = some s')
    (hok : s.CountsAbove (.worker i ok now)) (hs : s.Counted) : s'.Counted := by
  cases workerStep_cases h with
  | take hpc hqueue | discard hpc hqueue => exact hs.take hqueue (by simp [hpc]) (by rw [hpc]; rfl)
  | @count task pc hpc =>
    have hcounting : (s.workers i).counting = some pc := by rw [hpc]; rfl
    have hge : 0 ≤ s.gauge pc.gauge + -1 := by
      have := hok pc hcounting
      omega
    obtain ⟨hgauge, hnonneg, hadds⟩ :=
      countStep_adds true (hs.workerAdds i pc hcounting) hge hs.nonneg
    obtain ⟨m, n, hfields⟩ := s.countStep_fields (-1) true pc
    have hnext : ((s.countStep (-1) true pc).2.elim (task.elim .drain .reassemble)
        (.count task) : WorkerPc).counting = (s.countStep (-1) true pc).2 := by
      cases (s.countStep (-1) true pc).2
      · cases task <;> rfl
      · rfl
    refine hs.setWorker (q := s.queues) (m := m) (n := n) (by rw [hfields]) (by simp [hpc])
      (fun gauge => ?_) hnonneg (hnext ▸ hadds)
    have hadd := hgauge gauge
    rw [hnext, hcounting]
    change (s.countStep (-1) true pc).1.gauge gauge + _ + _ =
      _ + ((s.countStep (-1) true pc).1.queued : ℤ)
    rw [countStep_queued]
    omega
  | @reassemble pkt hpc =>
    have ht : { s with reassembly := (s.reassembly.add now pkt).1 }.Counted := { hs with }
    refine ht.idle (by simp [hpc]) (by simp [hpc, WorkerPc.counting]) ?_
    cases (s.reassembly.add now pkt).2 <;> rfl
  | @limit flowID payload hpc =>
    have ht : { s with limits := (s.limits.allowSessionBytes s.id payload.length now).1 }.Counted :=
      { hs with }
    refine ht.idle (by simp [hpc]) (by simp [hpc, WorkerPc.counting]) ?_
    split_ifs <;> rfl
  | @lookup flowID payload hpc =>
    refine hs.idle (by simp [hpc]) (by rw [hpc]; rfl) ?_
    cases s.udpFlows.lookup flowID <;> rfl
  | @write k flowID payload hpc hok =>
    have ht : (s.setUDP k { s.udp k with
      written := (s.udp k).written ++ [payload] }).Counted := { hs with }
    exact ht.idle (by simp [setUDP, hpc]) (by simp [setUDP, hpc, WorkerPc.counting]) rfl
  | writeFails hpc hok | cancelled hpc => exact hs.idle (by simp [hpc]) (by rw [hpc]; rfl) rfl
  | other hstarted hidle hnext hdraining ht =>
    exact (hs.apart ht).idle (ht.workers ▸ hstarted) (ht.workers ▸ hidle.1) hnext.1

theorem start_counting (s : QUICSession) (i : ℕ) : (s.start.workers i).counting = none := by
  change (if i < s.workerCount then WorkerPc.receive else .notStarted).counting = none
  split_ifs <;> rfl

theorem uncountedByWorkers_eq_zero (h : ∀ i < s.workerCount, (s.workers i).counting = none)
    (gauge : QueueGauge) : s.uncountedByWorkers gauge = 0 :=
  Finset.sum_eq_zero fun i hi => by rw [h i (Finset.mem_range.mp hi)]; rfl

theorem Counted.start (hs : s.Counted) (hrun : s.run = .start) :
    { s.start with run := .waitDone }.Counted := by
  obtain ⟨hreader, hworkers⟩ := hs.unstarted (by rw [hrun]; rfl)
  refine ⟨fun gauge => ?_, hs.nonneg, by rintro pc ⟨⟩, fun i pc hpc => ?_, by rintro ⟨⟩,
    fun i hi => if_neg (not_lt.mpr hi)⟩
  · have hbalance := hs.balance gauge
    rw [hreader, uncountedByWorkers_eq_zero fun i _ => by rw [hworkers i]; rfl] at hbalance
    change s.gauge gauge + 0 = s.queued + s.start.uncountedByWorkers gauge
    rw [uncountedByWorkers_eq_zero fun i _ => s.start_counting i]
    exact hbalance
  · rw [show _ = none from s.start_counting i] at hpc
    cases hpc

theorem step_counted (s : QUICSession) (label : QUICSessionStep) (s' : QUICSession)
    (hs : s.Counted) (hok : s.CountsAbove label) (h : s.step label = some s') : s'.Counted := by
  cases label with
  | run frame ok =>
    rcases runStep_still h with ht | ⟨hrun, rfl⟩
    · have hs' := hs.apart ht.apart
      have hearly : s'.run.early → s.run.early := runStep_early h
      exact { hs' with unstarted := fun he => hs'.unstarted (hearly he) }
    · exact hs.start hrun
  | datagramReader raw now => exact datagramReadStep_counted h hs
  | worker i ok now => exact workerStep_counted h hok hs
  | _ => exact hs.apart (step_apart (by simp) (by simp) (by simp) h)

/-- While no goroutine is counting, both counters show how many tasks wait, provided that
no worker has counted a task before the reader of datagrams. -/
theorem queue_gauges_exact (cfg : SessionConfig) (id : UInt64) (limits : Limits.Manager)
    (labels : List QUICSessionStep) (s : QUICSession)
    (hpath : Path step CountsAbove (new cfg id limits) labels s) (hidle : s.NotCounting) :
    s.metricsQueue = s.queued ∧ s.datagramQLen = s.queued := by
  have hs : s.Counted := hpath.invariant step_counted (new_counted cfg id limits)
  have hexact : ∀ gauge, s.gauge gauge = s.queued := fun gauge => by
    have hbalance := hs.balance gauge
    rw [hidle.1, uncountedByWorkers_eq_zero hidle.2] at hbalance
    simpa [uncounted] using hbalance
  exact ⟨hexact .metrics, hexact .session⟩

/-- A client authenticates, and the pipeline starts. -/
def startRun : List QUICSessionStep :=
  [.run none true, .run (some ⟨frameAUTH, List.replicate 19 0⟩) true, .run none true,
    .run none true, .run none true]

/-- A packet for flow 1 is received, admitted and put into the queue. -/
def enqueueRun : List QUICSessionStep :=
  [.datagramReader (some [0, 0, 0, 0, 0, 0, 0, 1, 0, 0, 0, 0, 0, 104]) 0, .datagramReader none 0,
    .datagramReader none 0]

/-- Two packets are counted as they are put into the queue, and then a worker takes one. -/
def countedRun : List QUICSessionStep :=
  startRun ++ enqueueRun ++ List.replicate 2 (.datagramReader none 0) ++ enqueueRun ++
    List.replicate 2 (.datagramReader none 0) ++ List.replicate 3 (.worker 0 true 0)

theorem countedRun_exact : ∃ s, Path step CountsAbove (new twoFlows 1 noLimits) countedRun s ∧
    s.NotCounting ∧ s.queued = 1 ∧ s.metricsQueue = s.queued ∧ s.datagramQLen = s.queued := by
  refine Path.exists_of_run_imp (P := fun s => s.NotCounting ∧ s.queued = 1) (by decide +kernel)
    fun s hpath ⟨hidle, hqueued⟩ => ?_
  exact ⟨hidle, hqueued, queue_gauges_exact twoFlows 1 noLimits countedRun s hpath hidle⟩

/-- A worker takes a packet and counts it before the reader of datagrams does. -/
def overtakenRun : List QUICSessionStep :=
  startRun ++ enqueueRun ++ List.replicate 5 (.worker 0 true 0) ++
    List.replicate 2 (.datagramReader none 0)

theorem overtakenRun_miscounts :
    ∃ s, Path step anyLabel (new twoFlows 1 noLimits) overtakenRun s ∧ s.NotCounting ∧
      s.queued = 0 ∧ s.metricsQueue = 1 ∧ s.datagramQLen = 1 :=
  Path.exists_of_run (by decide +kernel)

end QUICSession
end VlfProto.Session
