import VlfProto.Session.QUIC.BesideSteps
import VlfProto.Session.QUIC.ControlCases

/-! # The steps of the datagram pipeline -/

namespace VlfProto.Session
open Platform Transition Function Option

namespace QUICSession

variable {s s' t : QUICSession} {i k n : ℕ} {ok failed : Bool} {data : Bytes} {now : ℤ}
  {g : SessionGoroutine} {frame : Option Frame} {label : QUICSessionStep}

structure Apart (s s' : QUICSession) : Prop where
  run : s'.run = s.run
  pipeline : s'.pipeline = s.pipeline
  written : ∀ k, (s'.udp k).written = (s.udp k).written ∨
    s.udpCreated ≤ k ∧ (s'.udp k).written = []

theorem Apart.refl (s : QUICSession) : s.Apart s := ⟨rfl, rfl, fun _ => .inl rfl⟩

theorem Apart.of_eq (h : s.Apart t) (hrun : s'.run = t.run) (hpipeline : s'.pipeline = t.pipeline)
    (hudp : s'.udp = t.udp) : s.Apart s' :=
  ⟨hrun.trans h.run, hpipeline.trans h.pipeline, fun k => hudp ▸ h.written k⟩

theorem Apart.cfg (h : s.Apart t) : t.cfg = s.cfg := congrArg Prod.fst h.pipeline

theorem Apart.queues (h : s.Apart t) : t.queues = s.queues := congrArg (·.2.1) h.pipeline

theorem Apart.counters (h : s.Apart t) :
    t.metricsQueue = s.metricsQueue ∧ t.datagramQLen = s.datagramQLen :=
  ⟨congrArg (·.2.2.1) h.pipeline, congrArg (·.2.2.2.1) h.pipeline⟩

theorem Apart.reassembly (h : s.Apart t) : t.reassembly = s.reassembly :=
  congrArg (·.2.2.2.2.1) h.pipeline

theorem Apart.datagramReader (h : s.Apart t) : t.datagramReader = s.datagramReader :=
  congrArg (·.2.2.2.2.2.1) h.pipeline

theorem Apart.workers (h : s.Apart t) : t.workers = s.workers :=
  congrArg (·.2.2.2.2.2.2) h.pipeline

theorem Apart.setUDP {flow : SessionUDPFlow} (h : s.Apart t)
    (hwritten : flow.written = (t.udp k).written) : s.Apart (t.setUDP k flow) := by
  refine { h with written := fun j => ?_ }
  have hj := h.written j
  by_cases hjk : j = k
  · subst hjk
    simpa [QUICSession.setUDP, hwritten] using hj
  · simpa [QUICSession.setUDP, hjk] using hj

theorem Apart.setReader {pc : UDPReadPc} (h : s.Apart t) : s.Apart (t.setReader k pc) :=
  h.setUDP rfl

theorem Aside.apart (h : s.Aside s') : s.Apart s' :=
  ⟨h.run, h.pipeline, fun k => .inl (h.written k)⟩

theorem createFlow_apart (s : QUICSession) (flowID : ℕ) (kind : FlowKind) :
    s.Apart (s.createFlow flowID kind) := by
  cases kind with
  | tcp => exact (Apart.refl s).of_eq rfl rfl rfl
  | udp =>
    refine ⟨rfl, rfl, fun k => ?_⟩
    by_cases hk : k = s.udpCreated
    · exact .inr ⟨hk.ge, by simp [createFlow, QUICSession.setUDP, hk]⟩
    · exact .inl (by simp [createFlow, QUICSession.setUDP, hk])

theorem file_apart (s : QUICSession) (f : FlowRef) (flowID : ℕ) : s.Apart (s.file f flowID) := by
  obtain ⟨kind, k⟩ := f
  cases kind <;> exact (Apart.refl s).of_eq rfl rfl rfl

theorem controlStep_apart (h : s.controlStep frame ok = some s') : s.Apart s' := by
  cases controlStep_cases h with
  | dial => exact (s.createFlow_apart _ _).of_eq rfl rfl rfl
  | insert => exact (s.file_apart _ _).of_eq rfl rfl rfl
  | closeDuplicate => exact (s.dropFlow_shuts _).toAside.apart.of_eq rfl rfl rfl
  | spawn => exact ((Apart.refl s).setReader).of_eq rfl rfl rfl
  | closeFlow _ hr => exact (closeFlowStep_shuts hr).toAside.apart.of_eq rfl rfl rfl
  | closing _ hr =>
    split_ifs
    · exact (closeStep_shuts hr).toAside.apart.of_eq rfl rfl rfl
    · exact (closeStep_shuts hr).toAside.apart
  | _ => exact (Apart.refl s).of_eq rfl rfl rfl

theorem step_apart (hrun : ∀ frame ok, label ≠ .run frame ok)
    (hreader : ∀ raw now, label ≠ .datagramReader raw now)
    (hworker : ∀ i ok now, label ≠ .worker i ok now) (h : s.step label = some s') : s.Apart s' := by
  cases label with
  | run frame ok => exact absurd rfl (hrun frame ok)
  | control frame ok => exact controlStep_apart h
  | acceptor ok => exact (acceptorStep_aside h).apart
  | pinger ok => exact (pingerStep_still h).toAside.apart
  | stream i flowID ok => exact (streamStep_aside h).apart
  | copy i dir data readEnd ok n now => exact (copyStep_still h).toAside.apart
  | udpReader k data failed ok now => exact (udpReadStep_aside h).apart
  | datagramReader raw now => exact absurd rfl (hreader raw now)
  | worker i ok now => exact absurd rfl (hworker i ok now)
  | callClose i =>
    obtain ⟨-, rfl⟩ := of_guard h
    exact (Apart.refl s).of_eq rfl rfl rfl
  | closer i => exact (closerStep_still h).toAside.apart

end QUICSession

def DatagramReaderPc.counting : DatagramReaderPc → Option CounterPc
  | .count pc => some pc
  | _ => none

namespace WorkerPc

def counting : WorkerPc → Option CounterPc
  | .count _ pc => some pc
  | _ => none

/-- The packet that a worker has taken and not yet handed to the reassembly. -/
def packet : WorkerPc → Option DatagramPacket
  | .count task _ => task
  | .reassemble pkt => some pkt
  | _ => none

def payload : WorkerPc → Option (ℕ × Bytes)
  | .limit flowID payload => some (flowID, payload)
  | .lookup flowID payload => some (flowID, payload)
  | .write _ flowID payload => some (flowID, payload)
  | _ => none

/-- The worker only empties its queue. -/
def draining : WorkerPc → Bool
  | .drain => true
  | .count none _ => true
  | _ => false

end WorkerPc

namespace QUICSession

variable {s s' : QUICSession} {i : ℕ} {ok : Bool} {now : ℤ} {raw : Option Bytes}

def queueOf (s : QUICSession) (pkt : DatagramPacket) : ℕ := pkt.flowID.toNat % s.workerCount

theorem workerCount_pos (s : QUICSession) : 0 < s.workerCount := by
  unfold workerCount
  split_ifs <;> omega

theorem queueOf_lt (s : QUICSession) (pkt : DatagramPacket) : s.queueOf pkt < s.workerCount :=
  Nat.mod_lt _ s.workerCount_pos

theorem countStep_fields (s : QUICSession) (delta : ℤ) (clamps : Bool) (pc : CounterPc) :
    ∃ m n, (s.countStep delta clamps pc).1 = { s with metricsQueue := m, datagramQLen := n } := by
  cases pc <;> exact ⟨_, _, rfl⟩

inductive ReaderCase (s : QUICSession) : QUICSession → Prop
  | enqueue {pkt : DatagramPacket} (hpc : s.datagramReader = .enqueue pkt)
      (hroom : (s.queues (s.queueOf pkt)).length < s.perWorker) :
      ReaderCase s { s with
        queues := update s.queues (s.queueOf pkt) (s.queues (s.queueOf pkt) ++ [pkt])
        datagramReader := .count .addMetrics }
  | full {pkt : DatagramPacket} (hpc : s.datagramReader = .enqueue pkt)
      (hfull : ¬(s.queues (s.queueOf pkt)).length < s.perWorker) :
      ReaderCase s { s with datagramReader := .receive }
  | count {pc : CounterPc} (hpc : s.datagramReader = .count pc) :
      ReaderCase s { (s.countStep 1 false pc).1 with
        datagramReader := (s.countStep 1 false pc).2.elim .receive .count }
  | other {t : QUICSession} {pc : DatagramReaderPc} (hstarted : s.datagramReader ≠ .notStarted)
      (henqueue : ∀ pkt, s.datagramReader ≠ .enqueue pkt)
      (hpc : s.datagramReader.counting = none) (hnext : pc.counting = none) (ht : s.Apart t) :
      ReaderCase s { t with datagramReader := pc }

theorem datagramReadStep_cases (h : s.datagramReadStep raw now = some s') : s.ReaderCase s' := by
  have ht := Apart.refl s
  cases hpc : s.datagramReader <;> simp only [datagramReadStep, hpc, reduceCtorEq] at h
  case receive =>
    have hcounting : s.datagramReader.counting = none := by rw [hpc]; rfl
    cases raw with
    | none =>
      cases h
      exact .other (by simp [hpc]) (by simp [hpc]) hcounting rfl ht
    | some raw =>
      obtain ⟨-, h⟩ := ite_none_left_eq_some.mp h
      split at h <;> cases h
      · exact .other (by simp [hpc]) (by simp [hpc]) hcounting rfl ht
      · exact .other (t := s) (by simp [hpc]) (by simp [hpc]) hcounting hcounting ht
  case limit pkt =>
    cases h
    refine .other (t := { s with limits := (s.limits.allowUDPPacket s.id now).1 }) (by simp [hpc])
      (by simp [hpc]) (by rw [hpc]; rfl) ?_ (ht.of_eq rfl rfl rfl)
    split_ifs <;> rfl
  case enqueue pkt =>
    split_ifs at h with hroom <;> cases h
    · exact .enqueue hpc hroom
    · exact .full hpc hroom
  case count pc =>
    cases h
    exact .count hpc
  case exiting =>
    cases h
    exact .other (t := { s with wg := s.wg - 1 }) (by simp [hpc]) (by simp [hpc])
      (by rw [hpc]; rfl) rfl (ht.of_eq rfl rfl rfl)

inductive WorkerCase (s : QUICSession) (i : ℕ) (ok : Bool) (now : ℤ) : QUICSession → Prop
  | take {pkt : DatagramPacket} {rest : List DatagramPacket} (hpc : s.workers i = .receive)
      (hqueue : s.queues i = pkt :: rest) :
      WorkerCase s i ok now ({ s with queues := update s.queues i rest }.setWorker i
        (.count (some pkt) .addMetrics))
  | discard {pkt : DatagramPacket} {rest : List DatagramPacket} (hpc : s.workers i = .drain)
      (hqueue : s.queues i = pkt :: rest) :
      WorkerCase s i ok now ({ s with queues := update s.queues i rest }.setWorker i
        (.count none .addMetrics))
  | count {task : Option DatagramPacket} {pc : CounterPc} (hpc : s.workers i = .count task pc) :
      WorkerCase s i ok now ((s.countStep (-1) true pc).1.setWorker i
        ((s.countStep (-1) true pc).2.elim (task.elim .drain .reassemble) (.count task)))
  | reassemble {pkt : DatagramPacket} (hpc : s.workers i = .reassemble pkt) :
      WorkerCase s i ok now ({ s with reassembly := (s.reassembly.add now pkt).1 }.setWorker i
        ((s.reassembly.add now pkt).2.elim .receive (.limit pkt.flowID.toNat)))
  | limit {flowID : ℕ} {payload : Bytes} (hpc : s.workers i = .limit flowID payload) :
      WorkerCase s i ok now
        ({ s with limits := (s.limits.allowSessionBytes s.id payload.length now).1 }.setWorker i
          (if (s.limits.allowSessionBytes s.id payload.length now).2.isSome then .closing
            else .lookup flowID payload))
  | lookup {flowID : ℕ} {payload : Bytes} (hpc : s.workers i = .lookup flowID payload) :
      WorkerCase s i ok now (s.setWorker i
        ((s.udpFlows.lookup flowID).elim .receive fun k => .write k flowID payload))
  | write {k flowID : ℕ} {payload : Bytes} (hpc : s.workers i = .write k flowID payload)
      (hok : ok = true) :
      WorkerCase s i ok now ((s.setUDP k { s.udp k with
        written := (s.udp k).written ++ [payload] }).setWorker i .receive)
  | writeFails {k flowID : ℕ} {payload : Bytes} (hpc : s.workers i = .write k flowID payload)
      (hok : ok = false) :
      WorkerCase s i ok now (s.setWorker i (.closeFlow k (.delete flowID true)))
  | cancelled (hpc : s.workers i = .receive) (hcancelled : s.cancelled) :
      WorkerCase s i ok now (s.setWorker i .drain)
  | other {t : QUICSession} {pc : WorkerPc} (hstarted : s.workers i ≠ .notStarted)
      (hidle : (s.workers i).counting = none ∧ (s.workers i).packet = none ∧
        (s.workers i).payload = none)
      (hnext : pc.counting = none ∧ pc.packet = none ∧ pc.payload = none)
      (hdraining : pc.draining → (s.workers i).draining) (ht : s.Apart t) :
      WorkerCase s i ok now (t.setWorker i pc)

theorem setWorker_eq_self (s : QUICSession) (i : ℕ) : s.setWorker i (s.workers i) = s := by
  simp [setWorker]

theorem workerStep_cases (h : s.workerStep i ok now = some s') : s.WorkerCase i ok now s' := by
  cases hpc : s.workers i <;>
    simp only [workerStep, hpc, takeTask, map_eq_some_iff, reduceCtorEq] at h
  case receive =>
    split_ifs at h with hok hcancelled
    · split at h
      · cases h
      · cases h
        exact .take hpc ‹_›
    · cases h
      exact .cancelled hpc hcancelled
  case drain =>
    split_ifs at h with hok
    · split at h
      · cases h
      · cases h
        exact .discard hpc ‹_›
    · cases h
      exact .other (by simp [hpc]) (by rw [hpc]; exact ⟨rfl, rfl, rfl⟩) ⟨rfl, rfl, rfl⟩
        (by simp [WorkerPc.draining]) (.refl s)
  case count task pc =>
    cases h
    exact .count hpc
  case reassemble pkt =>
    cases h
    exact .reassemble hpc
  case limit flowID payload =>
    cases h
    exact .limit hpc
  case lookup flowID payload =>
    cases h
    exact .lookup hpc
  case write k flowID payload =>
    split_ifs at h with hok hclosed
    · cases h
      exact .write hpc hok
    · cases h
      exact .writeFails hpc (Bool.eq_false_iff.mpr hok)
  case closing =>
    obtain ⟨r, hr, rfl⟩ := h
    have hidle : (s.workers i).counting = none ∧ (s.workers i).packet = none ∧
        (s.workers i).payload = none := by rw [hpc]; exact ⟨rfl, rfl, rfl⟩
    split_ifs
    · exact .other (by simp [hpc]) hidle ⟨rfl, rfl, rfl⟩ (by simp [WorkerPc.draining])
        (closeStep_shuts hr).toAside.apart
    · have hself := r.1.setWorker_eq_self i
      rw [(closeStep_shuts hr).toAside.apart.workers] at hself
      rw [← hself]
      exact .other (by simp [hpc]) hidle hidle (fun h => h) (closeStep_shuts hr).toAside.apart
  case closeFlow k pc =>
    obtain ⟨r, hr, rfl⟩ := h
    refine .other (by simp [hpc]) (by rw [hpc]; exact ⟨rfl, rfl, rfl⟩) ?_ ?_
      (closeFlowStep_shuts hr).toAside.apart
    · cases r.2 <;> exact ⟨rfl, rfl, rfl⟩
    · cases r.2 <;> rintro ⟨⟩
  case exiting =>
    cases h
    exact .other (t := { s with wg := s.wg - 1 }) (by simp [hpc])
      (by rw [hpc]; exact ⟨rfl, rfl, rfl⟩) ⟨rfl, rfl, rfl⟩ (by simp [WorkerPc.draining])
      ((Apart.refl s).of_eq rfl rfl rfl)

end QUICSession
end VlfProto.Session
