import VlfProto.Session.FlowEnds
import VlfProto.Session.QUIC.SequentialSteps

/-! # The workers refine a reassembly of one's own -/

namespace VlfProto.Session
open Platform Transition Option List

namespace QUICSession

variable {s s' : QUICSession} {flowID : UInt64} {enqueued : List DatagramPacket}
  {fed : List TimedPacket} {k id : ℕ} {ok : Bool} {frame : Option Frame}
  {label : QUICSessionStep}

theorem Sequential.start (hs : s.Sequential flowID enqueued fed) (hrun : s.run = .start) :
    { s.start with run := .waitDone }.Sequential flowID enqueued fed := by
  have hold : ∀ i, s.workers i = .notStarted := hs.unstarted (by rw [hrun]; rfl)
  have hnew : ∀ i, (s.start.workers i).packet = none ∧ (s.start.workers i).payload = none ∧
      (s.start.workers i).draining = false := by
    intro i
    have hstart : s.start.workers i = if i < s.workerCount then .receive else .notStarted := rfl
    rw [hstart]
    split_ifs <;> exact ⟨rfl, rfl, rfl⟩
  refine { hs with
    objects := hs.objects.start
    unstarted := by rintro ⟨⟩
    packets := fun i pkt hpkt => by cases (hnew i).1.symm.trans hpkt
    payloads := fun i p hp => by cases (hnew i).2.1.symm.trans hp
    undrained := fun i => (hnew i).2.2
    writes := ?_
    order := ?_
    output := ?_ }
  · intro i k payload hpc
    have hpayload := (hnew i).2.1
    rw [show s.start.workers i = _ from hpc] at hpayload
    cases hpayload
  · have horder := hs.order
    rw [hold] at horder
    change _ = _ ++ ofFlow flowID (s.start.workers (s.workerOf flowID)).packet.toList ++ _
    rw [(hnew _).1]
    exact horder
  · have houtput := hs.output
    rw [hold] at houtput
    change _ = _ ++ (s.start.workers (s.workerOf flowID)).payloadFor flowID
    rw [WorkerPc.payloadFor_of_ne (by simp [(hnew _).2.1])]
    exact houtput

theorem UDPObjects.controlStep_lookup (hs : s.UDPObjects) (h : s.controlStep frame ok = some s')
    (hk : s'.udpFlows.lookup id = some k) :
    s.udpFlows.lookup id = some k ∨ (s'.udp k).written = [] := by
  by_cases hfiles : ∃ f id, s.Files f id
  · obtain ⟨⟨kind, j⟩, id', hpc, hnone⟩ := hfiles
    simp only [controlStep, hpc, hnone, isSome_none, Bool.false_eq_true, if_false,
      some.injEq] at h
    subst h
    cases kind with
    | tcp => exact .inl hk
    | udp =>
      change Finmap.lookup id (s.udpFlows.insert id' j) = some k at hk
      rw [Table.lookup_insert_eq] at hk
      split_ifs at hk with hid
      · cases hk
        exact .inr (hs.inserts k id' hpc).2.2.1
      · exact .inl hk
  · exact .inl ((controlStep_drifts (fun f id hf => hfiles ⟨f, id, hf⟩) h).table .udp id k hk)

theorem runStep_sequential (hs : s.Sequential flowID enqueued fed)
    (hok : s.Undisturbed flowID (.run frame ok)) (h : s.runStep frame ok = some s') :
    s'.Sequential flowID enqueued fed := by
  rcases runStep_still h with ha | ⟨hrun, rfl⟩
  · have hobjects := runStep_udpObjects hs.objects h
    have hearly : s'.run.early → s.run.early := runStep_early h
    have hs' := hs.apart ha.apart { hobjects with } (fun k hk => hok.2.1 _ h k hk)
      fun k hk => .inl (ha.table .udp _ k hk)
    exact { hs' with objects := hobjects, unstarted := fun he => hs'.unstarted (hearly he) }
  · exact hs.start hrun

theorem step_sequential (hs : s.Sequential flowID enqueued fed)
    (hok : s.Undisturbed flowID label) (h : s.step label = some s') :
    s'.Sequential flowID (enqueued ++ s.enqueues label) (fed ++ s.feeds label) := by
  have hkeeps : ∀ k ∈ s.udpFlows.lookup flowID.toNat, s'.udpFlows.lookup flowID.toNat = some k :=
    fun k hk => hok.2.1 s' h k hk
  cases label with
  | datagramReader raw now =>
    simpa only [feeds, append_nil] using datagramReadStep_sequential hs hok h
  | worker i ok now =>
    simpa only [enqueues, append_nil] using workerStep_sequential hs hok h
  | run frame ok =>
    simpa only [enqueues, feeds, append_nil] using runStep_sequential hs hok h
  | control frame ok =>
    simp only [enqueues, feeds, append_nil]
    exact hs.apart (controlStep_apart h) (controlStep_udpObjects hs.objects h) hkeeps
      fun k hk => hs.objects.controlStep_lookup h hk
  | _ =>
    simp only [enqueues, feeds, append_nil]
    have hb := step_beside (by simp) (by simp) h
    exact hs.apart (step_apart (by simp) (by simp) (by simp) h) (step_udpObjects hs.objects h)
      hkeeps fun k hk => .inl (hb.table .udp _ k hk)

end QUICSession

namespace PipelineRecord

variable {flowID : UInt64}

def Undisturbed (flowID : UInt64) (r : PipelineRecord) (label : QUICSessionStep) : Prop :=
  r.session.Undisturbed flowID label

def Sequential (flowID : UInt64) (r : PipelineRecord) : Prop :=
  r.session.Sequential flowID r.enqueued r.fed

theorem step_sequential (r : PipelineRecord) (label : QUICSessionStep) (r' : PipelineRecord)
    (hr : Sequential flowID r) (hok : Undisturbed flowID r label) (h : r.step label = some r') :
    Sequential flowID r' := by
  obtain ⟨s', hstep, rfl⟩ := map_eq_some_iff.mp h
  exact QUICSession.step_sequential hr hok hstep

def Drained (r : PipelineRecord) (flowID : UInt64) : Prop :=
  r.session.queues (r.session.workerOf flowID) = [] ∧
    r.session.workers (r.session.workerOf flowID) = .receive

/-- What is written to the socket of a flow is what a reassembly of its own hands over when it
is fed the packets of the flow that were put into the queues, in their order; all of it, once
they have been processed. -/
theorem workers_refine_sequential (cfg : SessionConfig) (id : UInt64) (limits : Limits.Manager)
    (labels : List QUICSessionStep) (r : PipelineRecord) (flowID : UInt64) (k : ℕ)
    (own : List TimedPacket)
    (hpath : Path step (Undisturbed flowID) (new cfg id limits) labels r)
    (hgap : Gapless r.fed) (hflow : r.session.udpFlows.lookup flowID.toNat = some k)
    (hown : own.map Prod.snd = r.enqueued.filter fun pkt => pkt.flowID = flowID)
    (howngap : Gapless own) :
    (r.session.udp k).written <+: (newReassembly.feed own).2.map Prod.snd ∧
    (r.Drained flowID → (r.session.udp k).written = (newReassembly.feed own).2.map Prod.snd) := by
  have hs : Sequential flowID r :=
    hpath.invariant step_sequential (QUICSession.new_sequential flowID cfg id limits)
  have hwritten : r.session.writtenTo flowID.toNat = (r.session.udp k).written := by
    simp [QUICSession.writtenTo, hflow]
  have horder : own.map Prod.snd = _ := hown.trans hs.order
  rw [append_assoc] at horder
  obtain ⟨before, after, rfl, hbefore, hafter⟩ := map_eq_append_iff.mp horder
  have hout : (newReassembly.feed before).2.map Prod.snd = (r.session.udp k).written ++
      (r.session.workers (r.session.workerOf flowID)).payloadFor flowID := by
    rw [hgap.feed_flow howngap.of_append hbefore, ← hwritten]
    exact hs.output
  rw [Reassembly.feed_append, map_append, hout, append_assoc]
  refine ⟨prefix_append _ _, fun hdrained => ?_⟩
  obtain ⟨hqueue, hworker⟩ := hdrained
  rw [hqueue, hworker] at hafter
  obtain rfl : after = [] := map_eq_nil_iff.mp hafter
  rw [hworker]
  simp [WorkerPc.payloadFor, WorkerPc.payload, Reassembly.feed]

instance (flowID : UInt64) (r : PipelineRecord) (label : QUICSessionStep) :
    Decidable (Undisturbed flowID r label) :=
  inferInstanceAs (Decidable (r.session.Undisturbed flowID label))

instance (r : PipelineRecord) (flowID : UInt64) : Decidable (r.Drained flowID) :=
  inferInstanceAs (Decidable (_ ∧ _))

def twoWorkers : SessionConfig := ⟨2, 1200, 2, 64⟩

/-- A fragment that ends with this byte is received, admitted, queued and counted. -/
def receiveRun (flowID flags byte : UInt8) : List QUICSessionStep :=
  .datagramReader (some [0, 0, 0, 0, 0, 0, 0, flowID, flags, 0, 0, 0, 0, byte]) 0 ::
    List.replicate 4 (.datagramReader none 0)

/-- A client opens UDP flow 1 and sends a message in two fragments, between which the other
worker gets a fragment of flow 2. -/
def interleavedRun : List QUICSessionStep :=
  [.run none true, .run (some ⟨frameAUTH, List.replicate 19 0⟩) true, .run none true,
    .run none true, .run none true,
    .control (some ⟨frameOPENUDP, [0, 0, 0, 0, 0, 0, 0, 1, 1, 104, 0, 0, 80]⟩) true] ++
    List.replicate 5 (.control none true) ++ receiveRun 1 1 104 ++ receiveRun 2 1 105 ++
    receiveRun 1 3 106 ++ List.replicate 4 (.worker 1 true 0) ++
    List.replicate 4 (.worker 0 true 1) ++ List.replicate 7 (.worker 1 true 2)

/-- The packets of flow 1, handed to a reassembly of its own. -/
def flowOneAlone : List TimedPacket := [(0, ⟨1, 1, 0, [104]⟩), (5, ⟨1, 3, 0, [106]⟩)]

theorem interleavedRun_refines_sequential :
    ∃ r, Path step (Undisturbed 1) (new twoWorkers 1 QUICSession.noLimits) interleavedRun r ∧
      r.Drained 1 ∧ r.enqueued.length = 3 ∧
      (newReassembly.feed flowOneAlone).2.map Prod.snd = [[104, 106]] ∧
      (r.session.udp 0).written = (newReassembly.feed flowOneAlone).2.map Prod.snd := by
  refine Path.exists_of_run_imp (P := fun r => r.Drained 1 ∧ r.enqueued.length = 3 ∧ Gapless r.fed ∧
      r.session.udpFlows.lookup (1 : UInt64).toNat = some 0 ∧
      flowOneAlone.map Prod.snd = r.enqueued.filter fun pkt => pkt.flowID = 1)
    (by decide +kernel) fun r hpath ⟨hdrained, hlength, hgap, hflow, hown⟩ => ?_
  have hrefines := workers_refine_sequential twoWorkers 1 QUICSession.noLimits interleavedRun r 1 0
    flowOneAlone hpath hgap hflow hown (by decide +kernel)
  exact ⟨hdrained, hlength, by decide +kernel, hrefines.2 hdrained⟩

end PipelineRecord
end VlfProto.Session
