import VlfProto.Session.Feeding
import VlfProto.Session.QUIC.FlowObjects
import VlfProto.Session.QUIC.Opens

/-!
# The workers process each flow in order

All packets of a flow go through the queue of one worker.
-/
namespace VlfProto.Session
open Platform Transition Function List

namespace QUICSession

def enqueues (s : QUICSession) : QUICSessionStep → List DatagramPacket
  | .datagramReader _ _ =>
    match s.datagramReader with
    | .enqueue pkt => if (s.queues (s.queueOf pkt)).length < s.perWorker then [pkt] else []
    | _ => []
  | _ => []

def feeds (s : QUICSession) : QUICSessionStep → List TimedPacket
  | .worker i _ now =>
    match s.workers i with
    | .reassemble pkt => [(now, pkt)]
    | _ => []
  | _ => []

/-- What has been written to the flow that is filed under an id. -/
def writtenTo (s : QUICSession) (id : ℕ) : List Bytes :=
  (s.udpFlows.lookup id).elim [] fun k => (s.udp k).written

def workerOf (s : QUICSession) (flowID : UInt64) : ℕ := flowID.toNat % s.workerCount

/-- A payload for the flow finds it open and its budget not exceeded, and the write to the
socket succeeds. -/
def Unhindered (s : QUICSession) (flowID : UInt64) : QUICSessionStep → Prop
  | .worker i ok now =>
    match s.workers i with
    | .limit id payload => id = flowID.toNat →
      (s.limits.allowSessionBytes s.id payload.length now).2.isSome = false
    | .lookup id _ => id = flowID.toNat → (s.udpFlows.lookup id).isSome
    | .write _ id _ => id = flowID.toNat → ok = true
    | _ => True
  | _ => True

/-- The session is not closed, and the flow stays open. -/
def Undisturbed (s : QUICSession) (flowID : UInt64) (label : QUICSessionStep) : Prop :=
  s.cancelled = false ∧
  (∀ s' ∈ s.step label, ∀ k ∈ s.udpFlows.lookup flowID.toNat,
    s'.udpFlows.lookup flowID.toNat = some k) ∧
  s.Unhindered flowID label

instance (s : QUICSession) (flowID : UInt64) (label : QUICSessionStep) :
    Decidable (s.Unhindered flowID label) := by
  unfold Unhindered
  split
  · split <;> infer_instance
  · infer_instance

instance (s : QUICSession) (flowID : UInt64) (label : QUICSessionStep) :
    Decidable (s.Undisturbed flowID label) :=
  inferInstanceAs (Decidable (_ ∧ _ ∧ _))

end QUICSession

/-- A session, with the packets put into its queues and those handed to its reassembly. -/
structure PipelineRecord where
  session : QUICSession
  enqueued : List DatagramPacket
  fed : List TimedPacket

namespace PipelineRecord

def new (cfg : SessionConfig) (id : UInt64) (limits : Limits.Manager) : PipelineRecord :=
  ⟨.new cfg id limits, [], []⟩

def step (r : PipelineRecord) (label : QUICSessionStep) : Option PipelineRecord :=
  (r.session.step label).map fun s =>
    ⟨s, r.enqueued ++ r.session.enqueues label, r.fed ++ r.session.feeds label⟩

end PipelineRecord

def ofFlow (flowID : UInt64) (pkts : List DatagramPacket) : List DatagramPacket :=
  pkts.filter fun pkt => pkt.flowID = flowID

@[simp] theorem ofFlow_nil (flowID : UInt64) : ofFlow flowID [] = [] := rfl

@[simp] theorem ofFlow_append (flowID : UInt64) (pkts more : List DatagramPacket) :
    ofFlow flowID (pkts ++ more) = ofFlow flowID pkts ++ ofFlow flowID more :=
  filter_append ..

theorem ofFlow_of_ne {flowID : UInt64} {pkt : DatagramPacket} (h : pkt.flowID ≠ flowID) :
    ofFlow flowID [pkt] = [] := by
  simp [ofFlow, h]

def outputsOf (flowID : UInt64) (fed : List TimedPacket) : List Bytes :=
  ((newReassembly.feed fed).2.filter fun out => out.1 = flowID).map Prod.snd

/-- The payload for a flow that a worker has in hand. -/
def WorkerPc.payloadFor (flowID : UInt64) (pc : WorkerPc) : List Bytes :=
  ((pc.payload.filter fun p => p.1 = flowID.toNat).map Prod.snd).toList

theorem outputsOf_snoc (flowID : UInt64) (fed : List TimedPacket) (now : ℤ) (pkt : DatagramPacket) :
    outputsOf flowID (fed ++ [(now, pkt)]) = outputsOf flowID fed ++
      if pkt.flowID = flowID then (((newReassembly.feed fed).1.add now pkt).2).toList else [] := by
  simp only [outputsOf, Reassembly.feed_append, Reassembly.feed, append_nil,
    filter_append, map_append]
  congr 1
  cases ((newReassembly.feed fed).1.add now pkt).2 <;> split_ifs with h <;> simp [h]

namespace QUICSession

variable {s s' t : QUICSession} {flowID : UInt64} {enqueued : List DatagramPacket}
  {fed fed' : List TimedPacket} {i k : ℕ} {ok : Bool} {now : ℤ} {frame : Option Frame}
  {label : QUICSessionStep}

/-- Everything that was put into the queues for a flow is where it has to be. -/
structure Sequential (s : QUICSession) (flowID : UInt64) (enqueued : List DatagramPacket)
    (fed : List TimedPacket) : Prop where
  objects : s.UDPObjects
  unstarted : s.run.early → ∀ i, s.workers i = .notStarted
  reassembly : s.reassembly = (newReassembly.feed fed).1
  queues : ∀ i, ∀ pkt ∈ s.queues i, s.queueOf pkt = i
  packets : ∀ i, ∀ pkt ∈ (s.workers i).packet, s.queueOf pkt = i
  payloads : ∀ i, ∀ p ∈ (s.workers i).payload, p.1 % s.workerCount = i
  undrained : ∀ i, (s.workers i).draining = false
  writes : ∀ i k payload, s.workers i = .write k flowID.toNat payload →
    s.udpFlows.lookup flowID.toNat = some k
  order : ofFlow flowID enqueued = ofFlow flowID (fed.map Prod.snd) ++
    ofFlow flowID (s.workers (s.workerOf flowID)).packet.toList ++
    ofFlow flowID (s.queues (s.workerOf flowID))
  output : outputsOf flowID fed = s.writtenTo flowID.toNat ++
    (s.workers (s.workerOf flowID)).payloadFor flowID

theorem new_sequential (flowID : UInt64) (cfg : SessionConfig) (id : UInt64)
    (limits : Limits.Manager) : (new cfg id limits).Sequential flowID [] [] where
  objects := new_udpObjects cfg id limits
  unstarted _ _ := rfl
  reassembly := rfl
  queues _ _ h := by cases h
  packets _ _ h := by cases h
  payloads _ _ h := by cases h
  undrained _ := rfl
  writes _ _ _ h := by cases h
  order := rfl
  output := rfl

theorem queueOf_eq {pkt : DatagramPacket} (h : pkt.flowID = flowID) :
    s.queueOf pkt = s.workerOf flowID := by
  rw [queueOf, workerOf, h]

theorem Sequential.writtenTo_eq (hs : s.Sequential flowID enqueued fed) (ha : s.Apart t)
    (hkeeps : ∀ k ∈ s.udpFlows.lookup flowID.toNat, t.udpFlows.lookup flowID.toNat = some k)
    (hnew : ∀ k ∈ t.udpFlows.lookup flowID.toNat, s.udpFlows.lookup flowID.toNat = some k ∨
      (t.udp k).written = []) : t.writtenTo flowID.toNat = s.writtenTo flowID.toNat := by
  unfold writtenTo
  cases hold : s.udpFlows.lookup flowID.toNat with
  | some k =>
    rw [hkeeps k hold]
    rcases ha.written k with hsame | ⟨hle, -⟩
    · exact hsame
    · exact absurd (hs.objects.filed _ k hold).1 (not_lt.mpr hle)
  | none =>
    cases hlookup : t.udpFlows.lookup flowID.toNat with
    | none => rfl
    | some k =>
      rcases hnew k hlookup with hk | hempty
      · rw [hold] at hk
        cases hk
      · exact hempty

theorem Apart.workerOf_eq (ha : s.Apart t) (flowID : UInt64) :
    t.workerOf flowID = s.workerOf flowID := by
  simp only [workerOf, workerCount, ha.cfg]

theorem Sequential.apart (hs : s.Sequential flowID enqueued fed) (ha : s.Apart t)
    (hobjects : t.UDPObjects)
    (hkeeps : ∀ k ∈ s.udpFlows.lookup flowID.toNat, t.udpFlows.lookup flowID.toNat = some k)
    (hnew : ∀ k ∈ t.udpFlows.lookup flowID.toNat, s.udpFlows.lookup flowID.toNat = some k ∨
      (t.udp k).written = []) : t.Sequential flowID enqueued fed := by
  have hcount : t.workerCount = s.workerCount := by simp only [workerCount, ha.cfg]
  refine ⟨hobjects, ?_, ha.reassembly.trans hs.reassembly, ?_, ?_, ?_, ?_, ?_, ?_, ?_⟩
  · rw [ha.run, ha.workers]
    exact hs.unstarted
  · simp only [ha.queues, queueOf, hcount]
    exact hs.queues
  · simp only [ha.workers, queueOf, hcount]
    exact hs.packets
  · simp only [ha.workers, hcount]
    exact hs.payloads
  · rw [ha.workers]
    exact hs.undrained
  · intro i k payload hpc
    rw [ha.workers] at hpc
    exact hkeeps k (hs.writes i k payload hpc)
  · rw [ha.workerOf_eq, ha.workers, ha.queues]
    exact hs.order
  · rw [ha.workerOf_eq, ha.workers, hs.writtenTo_eq ha hkeeps hnew]
    exact hs.output

theorem Sequential.enqueue {pkt : DatagramPacket} {pc : DatagramReaderPc}
    (hs : s.Sequential flowID enqueued fed) :
    { s with
      queues := update s.queues (s.queueOf pkt) (s.queues (s.queueOf pkt) ++ [pkt])
      datagramReader := pc }.Sequential flowID (enqueued ++ [pkt]) fed := by
  refine { hs with objects := { hs.objects with }, queues := fun i p hp => ?_, order := ?_ }
  · change p ∈ update s.queues _ _ i at hp
    by_cases hi : i = s.queueOf pkt
    · subst hi
      rw [update_self, mem_append, mem_singleton] at hp
      rcases hp with hp | rfl
      · exact hs.queues _ p hp
      · rfl
    · rw [update_of_ne hi] at hp
      exact hs.queues i p hp
  · change _ = ofFlow flowID (fed.map Prod.snd) ++
      ofFlow flowID (s.workers (s.workerOf flowID)).packet.toList ++
      ofFlow flowID (update s.queues _ _ (s.workerOf flowID))
    rw [ofFlow_append, hs.order]
    by_cases hi : s.workerOf flowID = s.queueOf pkt
    · rw [hi, update_self, ofFlow_append, append_assoc _ _ (ofFlow flowID [pkt])]
    · have hflow : pkt.flowID ≠ flowID := fun h => hi (queueOf_eq h).symm
      rw [ofFlow_of_ne hflow, append_nil, update_of_ne hi]

theorem datagramReadStep_sequential {raw : Option Bytes} (hs : s.Sequential flowID enqueued fed)
    (hok : s.Undisturbed flowID (.datagramReader raw now))
    (h : s.datagramReadStep raw now = some s') :
    s'.Sequential flowID (enqueued ++ s.enqueues (.datagramReader raw now)) fed := by
  have hb := (datagramReadStep_quiet h).toBeside
  have hobjects := datagramReadStep_udpObjects hs.objects h
  cases datagramReadStep_cases h with
  | @enqueue pkt hpc hroom =>
    have hrecord : s.enqueues (.datagramReader raw now) = [pkt] := by simp [enqueues, hpc, hroom]
    rw [hrecord]
    exact hs.enqueue
  | @full pkt hpc hfull =>
    have hrecord : s.enqueues (.datagramReader raw now) = [] := by simp [enqueues, hpc, hfull]
    rw [hrecord, append_nil]
    exact { hs with objects := { hs.objects with } }
  | @count pc hpc =>
    have hrecord : s.enqueues (.datagramReader raw now) = [] := by simp [enqueues, hpc]
    obtain ⟨m, n, hfields⟩ := s.countStep_fields 1 false pc
    rw [hrecord, append_nil, hfields]
    exact { hs with objects := { hs.objects with } }
  | @other t pc hstarted henqueue hpc hnext ht =>
    have hrecord : s.enqueues (.datagramReader raw now) = [] := by
      cases hreader : s.datagramReader with
      | enqueue pkt => exact absurd hreader (henqueue pkt)
      | _ => simp [enqueues, hreader]
    rw [hrecord, append_nil]
    have hobjects' : t.UDPObjects := { hobjects with }
    have hs' := hs.apart ht hobjects' (fun k hk => hok.2.1 _ h k hk)
      fun k hk => .inl (hb.table .udp _ k hk)
    exact { hs' with objects := hobjects }

/-- A worker moves. Its own flows are accounted for, and those of the other workers are not
touched. -/
theorem Sequential.setWorker {pc : WorkerPc} {q : List DatagramPacket}
    (hs : s.Sequential flowID enqueued fed) (hstarted : s.workers i ≠ .notStarted)
    (ht : t.run = s.run ∧ t.cfg = s.cfg ∧ t.udpFlows = s.udpFlows)
    (hworkers : t.workers = update s.workers i pc)
    (hqueues : t.queues = update s.queues i q) (hq : ∀ pkt ∈ q, pkt ∈ s.queues i)
    (hobjects : t.UDPObjects) (hreassembly : t.reassembly = (newReassembly.feed fed').1)
    (hpacket : ∀ pkt ∈ pc.packet, s.queueOf pkt = i)
    (hpayload : ∀ p ∈ pc.payload, p.1 % s.workerCount = i) (hdraining : pc.draining = false)
    (hwrites : ∀ k payload, pc = .write k flowID.toNat payload →
      s.udpFlows.lookup flowID.toNat = some k)
    (hother : i ≠ s.workerOf flowID →
      ofFlow flowID (fed'.map Prod.snd) = ofFlow flowID (fed.map Prod.snd) ∧
      outputsOf flowID fed' = outputsOf flowID fed ∧
      t.writtenTo flowID.toNat = s.writtenTo flowID.toNat)
    (horder : i = s.workerOf flowID → ofFlow flowID enqueued =
      ofFlow flowID (fed'.map Prod.snd) ++ ofFlow flowID pc.packet.toList ++ ofFlow flowID q)
    (houtput : i = s.workerOf flowID →
      outputsOf flowID fed' = t.writtenTo flowID.toNat ++ pc.payloadFor flowID) :
    t.Sequential flowID enqueued fed' := by
  obtain ⟨hrun, hcfg, htable⟩ := ht
  have hcount : t.workerCount = s.workerCount := by simp only [workerCount, hcfg]
  have hof : t.workerOf flowID = s.workerOf flowID := by simp only [workerOf, hcount]
  have hself : t.workers i = pc := hworkers ▸ update_self ..
  have helse : ∀ j, j ≠ i → t.workers j = s.workers j ∧ t.queues j = s.queues j := fun j hj =>
    ⟨hworkers ▸ update_of_ne hj .., hqueues ▸ update_of_ne hj ..⟩
  have hqueue : t.queues i = q := hqueues ▸ update_self ..
  refine ⟨hobjects, fun hearly => ?_, hreassembly, fun j pkt hj => ?_, fun j pkt hj => ?_,
    fun j p hj => ?_, fun j => ?_, fun j k payload hj => ?_, ?_, ?_⟩
  · exact absurd (hs.unstarted (hrun ▸ hearly) i) hstarted
  · rw [queueOf, hcount]
    by_cases hji : j = i
    · subst hji
      rw [hqueue] at hj
      exact hs.queues j pkt (hq pkt hj)
    · rw [(helse j hji).2] at hj
      exact hs.queues j pkt hj
  · rw [queueOf, hcount]
    by_cases hji : j = i
    · subst hji
      exact hpacket pkt (hself ▸ hj)
    · exact hs.packets j pkt ((helse j hji).1 ▸ hj)
  · rw [hcount]
    by_cases hji : j = i
    · subst hji
      exact hpayload p (hself ▸ hj)
    · exact hs.payloads j p ((helse j hji).1 ▸ hj)
  · by_cases hji : j = i
    · rw [hji, hself]
      exact hdraining
    · rw [(helse j hji).1]
      exact hs.undrained j
  · rw [htable]
    by_cases hji : j = i
    · subst hji
      exact hwrites k payload (hself ▸ hj)
    · exact hs.writes j k payload ((helse j hji).1 ▸ hj)
  · rw [hof]
    by_cases hi : i = s.workerOf flowID
    · rw [← hi, hself, hqueue]
      exact horder hi
    · obtain ⟨hfed, -, -⟩ := hother hi
      rw [(helse _ (Ne.symm hi)).1, (helse _ (Ne.symm hi)).2, hfed]
      exact hs.order
  · rw [hof]
    by_cases hi : i = s.workerOf flowID
    · rw [← hi, hself]
      exact houtput hi
    · obtain ⟨-, hout, hwritten⟩ := hother hi
      rw [(helse _ (Ne.symm hi)).1, hout, hwritten]
      exact hs.output

end QUICSession
end VlfProto.Session
