import VlfProto.Session.QUIC.SequentialWorkers

/-! # The steps of a worker, for one flow -/

namespace VlfProto.Session
open Platform Transition Function List

namespace QUICSession

variable {s s' t : QUICSession} {flowID : UInt64} {enqueued : List DatagramPacket}
  {fed : List TimedPacket} {i k id : ℕ} {ok : Bool} {now : ℤ} {payload : Bytes} {pc : WorkerPc}
  {pkt : DatagramPacket}

theorem UDPObjects.writtenTo_write (hs : s.UDPObjects) (hpc : s.workers i = .write k id payload)
    {id' : ℕ} (hne : id ≠ id') :
    (s.setUDP k { s.udp k with written := (s.udp k).written ++ [payload] }).writtenTo id' =
      s.writtenTo id' := by
  change (s.udpFlows.lookup id').elim [] _ = (s.udpFlows.lookup id').elim [] _
  cases hlookup : s.udpFlows.lookup id' with
  | none => rfl
  | some j =>
    have hj : j ≠ k := by
      rintro rfl
      exact hne ((hs.writes i j id payload hpc).2.symm.trans (hs.filed id' j hlookup).2)
    simp [setUDP, hj]

theorem writtenTo_write_self (hlookup : s.udpFlows.lookup id = some k) (payload : Bytes) :
    (s.setUDP k { s.udp k with written := (s.udp k).written ++ [payload] }).writtenTo id =
      s.writtenTo id ++ [payload] := by
  change (s.udpFlows.lookup id).elim [] _ = (s.udpFlows.lookup id).elim [] _ ++ [payload]
  simp [hlookup, setUDP]

theorem Sequential.carry {pc : WorkerPc} (hs : s.Sequential flowID enqueued fed)
    (hstarted : s.workers i ≠ .notStarted)
    (ht : t.run = s.run ∧ t.cfg = s.cfg ∧ t.udpFlows = s.udpFlows)
    (hworkers : t.workers = update s.workers i pc) (hqueues : t.queues = s.queues)
    (hreassembly : t.reassembly = s.reassembly) (hobjects : t.UDPObjects)
    (hpacket : pc.packet = (s.workers i).packet)
    (hpayload : ∀ p ∈ pc.payload, p ∈ (s.workers i).payload) (hdraining : pc.draining = false)
    (hwrites : ∀ k payload, pc = .write k flowID.toNat payload →
      s.udpFlows.lookup flowID.toNat = some k)
    (hother : i ≠ s.workerOf flowID → t.writtenTo flowID.toNat = s.writtenTo flowID.toNat)
    (houtput : i = s.workerOf flowID → t.writtenTo flowID.toNat ++ pc.payloadFor flowID =
      s.writtenTo flowID.toNat ++ (s.workers i).payloadFor flowID) :
    t.Sequential flowID enqueued fed := by
  refine hs.setWorker (q := s.queues i) hstarted ht hworkers
    (hqueues.trans (update_eq_self ..).symm) (fun _ h => h) hobjects
    (hreassembly.trans hs.reassembly) (fun pkt h => hs.packets i pkt (hpacket ▸ h))
    (fun p h => hs.payloads i p (hpayload p h)) hdraining hwrites
    (fun hi => ⟨rfl, rfl, hother hi⟩) (fun hi => ?_) (fun hi => ?_)
  · rw [hpacket, hi]
    exact hs.order
  · rw [houtput hi, hi]
    exact hs.output

theorem WorkerPc.payloadFor_of_ne (h : ∀ p ∈ pc.payload, p.1 ≠ flowID.toNat) :
    pc.payloadFor flowID = [] := by
  unfold WorkerPc.payloadFor
  cases hp : pc.payload with
  | none => rfl
  | some p => simp [Option.filter, h p hp]

theorem Sequential.drop (hs : s.Sequential flowID enqueued fed)
    (hpc : (s.workers i).payload = some (id, payload)) (hne : id ≠ flowID.toNat)
    (hidle : (s.workers i).packet = none)
    (hnext : pc.packet = none ∧ pc.payload = none ∧ pc.draining = false)
    (hobjects : (s.setWorker i pc).UDPObjects) :
    (s.setWorker i pc).Sequential flowID enqueued fed := by
  have hstarted : s.workers i ≠ .notStarted := by
    intro h
    rw [h] at hpc
    cases hpc
  refine hs.carry hstarted ⟨rfl, rfl, rfl⟩ rfl rfl rfl hobjects (hnext.1.trans hidle.symm)
    (by simp [hnext.2.1]) hnext.2.2 ?_ (fun _ => rfl) (fun _ => ?_)
  · rintro k payload rfl
    cases hnext.2.1
  · rw [WorkerPc.payloadFor_of_ne (by simp [hnext.2.1]),
      WorkerPc.payloadFor_of_ne (by simp [hpc, hne])]
    rfl

theorem Sequential.take {rest : List DatagramPacket} (hs : s.Sequential flowID enqueued fed)
    (hpc : s.workers i = .receive) (hqueue : s.queues i = pkt :: rest) :
    ({ s with queues := update s.queues i rest }.setWorker i
      (.count (some pkt) .addMetrics)).Sequential flowID enqueued fed := by
  have hobjects : { s with queues := update s.queues i rest }.UDPObjects :=
    { hs.objects with }
  refine hs.setWorker (by simp [hpc]) ⟨rfl, rfl, rfl⟩ rfl rfl
    (fun p hp => hqueue ▸ mem_cons_of_mem pkt hp) (hobjects.setWorker (by simp))
    hs.reassembly ?_ (by simp [WorkerPc.payload]) rfl (by simp) (fun _ => ⟨rfl, rfl, rfl⟩)
    (fun hi => ?_) (fun hi => ?_)
  · rintro _ ⟨⟩
    exact hs.queues i pkt (hqueue ▸ mem_cons_self)
  · have horder := hs.order
    rw [← hi, hpc, hqueue, ← singleton_append, ofFlow_append] at horder
    simpa [WorkerPc.packet] using horder
  · have houtput := hs.output
    rw [← hi, hpc] at houtput
    exact houtput

/-- The packet in hand goes to the reassembly, and what that hands over stays in hand. -/
theorem Sequential.reassemble (hs : s.Sequential flowID enqueued fed)
    (hpc : s.workers i = .reassemble pkt) :
    ({ s with reassembly := (s.reassembly.add now pkt).1 }.setWorker i
      ((s.reassembly.add now pkt).2.elim .receive (.limit pkt.flowID.toNat))).Sequential flowID
      enqueued (fed ++ [(now, pkt)]) := by
  have hqueue : s.queueOf pkt = i := hs.packets i pkt (by rw [hpc]; rfl)
  have hobjects : { s with reassembly := (s.reassembly.add now pkt).1 }.UDPObjects :=
    { hs.objects with }
  have hfed : (newReassembly.feed (fed ++ [(now, pkt)])).1 = (s.reassembly.add now pkt).1 := by
    rw [Reassembly.feed_append, hs.reassembly]
    rfl
  have hout := outputsOf_snoc flowID fed now pkt
  rw [← hs.reassembly] at hout
  refine hs.setWorker (q := s.queues i) (by simp [hpc]) ⟨rfl, rfl, rfl⟩ rfl
    (update_eq_self ..).symm (fun _ h => h) (hobjects.setWorker ?_) hfed.symm ?_ ?_ ?_ ?_
    (fun hi => ?_) (fun hi => ?_) (fun hi => ?_)
  · cases (s.reassembly.add now pkt).2 <;> simp
  · cases (s.reassembly.add now pkt).2 <;> rintro _ ⟨⟩
  · cases (s.reassembly.add now pkt).2 with
    | none => rintro _ ⟨⟩
    | some payload =>
      rintro _ ⟨⟩
      exact hqueue
  · cases (s.reassembly.add now pkt).2 <;> rfl
  · cases (s.reassembly.add now pkt).2 <;> simp
  · have hflow : pkt.flowID ≠ flowID := fun h => hi (hqueue.symm.trans (queueOf_eq h))
    rw [map_append, ofFlow_append, hout, if_neg hflow, append_nil]
    exact ⟨by simp [ofFlow_of_ne hflow], rfl, rfl⟩
  · have horder := hs.order
    rw [← hi, hpc] at horder
    rw [horder, map_append, ofFlow_append]
    cases (s.reassembly.add now pkt).2 <;> simp [WorkerPc.packet]
  · have houtput := hs.output
    rw [← hi, hpc] at houtput
    rw [hout, houtput]
    by_cases hflow : pkt.flowID = flowID
    · rw [if_pos hflow, hflow]
      cases (s.reassembly.add now pkt).2 <;>
        simp [WorkerPc.payloadFor, WorkerPc.payload, Option.filter] <;> rfl
    · have hne : pkt.flowID.toNat ≠ flowID.toNat := fun h => hflow (UInt64.toNat_inj.mp h)
      rw [if_neg hflow]
      cases (s.reassembly.add now pkt).2 <;>
        simp [WorkerPc.payloadFor, WorkerPc.payload, Option.filter, hne] <;> rfl

theorem Sequential.idle (hs : s.Sequential flowID enqueued fed)
    (hstarted : s.workers i ≠ .notStarted)
    (ht : t.run = s.run ∧ t.cfg = s.cfg ∧ t.udpFlows = s.udpFlows)
    (hworkers : t.workers = update s.workers i pc) (hqueues : t.queues = s.queues)
    (hreassembly : t.reassembly = s.reassembly) (hudp : t.udp = s.udp) (hobjects : t.UDPObjects)
    (hpacket : pc.packet = (s.workers i).packet) (hidle : (s.workers i).payload = none)
    (hnext : pc.payload = none) (hdraining : pc.draining = false) :
    t.Sequential flowID enqueued fed := by
  have hwritten : t.writtenTo flowID.toNat = s.writtenTo flowID.toNat := by
    simp only [writtenTo, ht.2.2, hudp]
  refine hs.carry hstarted ht hworkers hqueues hreassembly hobjects hpacket (by simp [hnext])
    hdraining ?_ (fun _ => hwritten) (fun _ => ?_)
  · rintro k payload rfl
    cases hnext
  · rw [hwritten, WorkerPc.payloadFor_of_ne (by simp [hnext]),
      WorkerPc.payloadFor_of_ne (by simp [hidle])]

theorem Sequential.count {pkt : DatagramPacket} {pc : CounterPc}
    (hs : s.Sequential flowID enqueued fed) (hpc : s.workers i = .count (some pkt) pc)
    (hobjects : ((s.countStep (-1) true pc).1.setWorker i
      ((s.countStep (-1) true pc).2.elim (.reassemble pkt) (.count (some pkt)))).UDPObjects) :
    ((s.countStep (-1) true pc).1.setWorker i ((s.countStep (-1) true pc).2.elim
      (.reassemble pkt) (.count (some pkt)))).Sequential flowID enqueued fed := by
  obtain ⟨m, n, hfields⟩ := s.countStep_fields (-1) true pc
  rw [hfields] at hobjects ⊢
  refine hs.idle (by simp [hpc]) ⟨rfl, rfl, rfl⟩ rfl rfl rfl rfl hobjects ?_ (by rw [hpc]; rfl)
    ?_ ?_
  · rw [hpc]
    cases (s.countStep (-1) true pc).2 <;> rfl
  · cases (s.countStep (-1) true pc).2 <;> rfl
  · cases (s.countStep (-1) true pc).2 <;> rfl

/-- A payload for the flow goes through the limits, the lookup and the write. -/
theorem Sequential.limit (hs : s.Sequential flowID enqueued fed)
    (hpc : s.workers i = .limit id payload)
    (hok : id = flowID.toNat →
      (s.limits.allowSessionBytes s.id payload.length now).2.isSome = false)
    (hobjects : ({ s with
      limits := (s.limits.allowSessionBytes s.id payload.length now).1 }.setWorker i
        (if (s.limits.allowSessionBytes s.id payload.length now).2.isSome then .closing
          else .lookup id payload)).UDPObjects) :
    ({ s with limits := (s.limits.allowSessionBytes s.id payload.length now).1 }.setWorker i
      (if (s.limits.allowSessionBytes s.id payload.length now).2.isSome then .closing
        else .lookup id payload)).Sequential flowID enqueued fed := by
  refine hs.carry (by simp [hpc]) ⟨rfl, rfl, rfl⟩ rfl rfl rfl hobjects ?_ ?_ ?_ ?_ (fun _ => rfl)
    (fun _ => ?_)
  · rw [hpc]
    split_ifs <;> rfl
  · rw [hpc]
    split_ifs
    · rintro _ ⟨⟩
    · exact fun _ h => h
  · split_ifs <;> rfl
  · split_ifs <;> simp
  · rw [hpc]
    split_ifs with hlimited
    · have hne : id ≠ flowID.toNat := fun h => by simp [hok h] at hlimited
      have hlimit : (WorkerPc.limit id payload).payloadFor flowID = [] :=
        WorkerPc.payloadFor_of_ne (by simp [WorkerPc.payload, hne])
      rw [hlimit]
      rfl
    · rfl

theorem Sequential.lookup (hs : s.Sequential flowID enqueued fed)
    (hpc : s.workers i = .lookup id payload)
    (hok : id = flowID.toNat → (s.udpFlows.lookup id).isSome)
    (hobjects : (s.setWorker i
      ((s.udpFlows.lookup id).elim .receive fun k => .write k id payload)).UDPObjects) :
    (s.setWorker i ((s.udpFlows.lookup id).elim .receive fun k => .write k id payload)).Sequential
      flowID enqueued fed := by
  cases hlookup : s.udpFlows.lookup id with
  | none =>
    rw [hlookup] at hobjects hok
    have hne : id ≠ flowID.toNat := fun h => by simp at hok; exact hok h
    exact hs.drop (by rw [hpc]; rfl) hne (by rw [hpc]; rfl) ⟨rfl, rfl, rfl⟩ hobjects
  | some k =>
    rw [hlookup] at hobjects
    refine hs.carry (by simp [hpc]) ⟨rfl, rfl, rfl⟩ rfl rfl rfl hobjects (by rw [hpc]; rfl)
      ?_ rfl ?_ (fun _ => rfl) (fun _ => ?_)
    · rw [hpc]
      exact fun _ h => h
    · rintro k' payload' ⟨⟩
      exact hlookup
    · rw [hpc]
      rfl

theorem Sequential.write (hs : s.Sequential flowID enqueued fed)
    (hpc : s.workers i = .write k id payload)
    (hobjects : ((s.setUDP k { s.udp k with
      written := (s.udp k).written ++ [payload] }).setWorker i .receive).UDPObjects) :
    ((s.setUDP k { s.udp k with
      written := (s.udp k).written ++ [payload] }).setWorker i .receive).Sequential flowID
      enqueued fed := by
  have hmod : id % s.workerCount = i := hs.payloads i (id, payload) (by rw [hpc]; rfl)
  refine hs.carry (by simp [hpc]) ⟨rfl, rfl, rfl⟩ rfl rfl rfl hobjects (by rw [hpc]; rfl)
    (by simp [WorkerPc.payload]) rfl (by simp) (fun hi => ?_) (fun _ => ?_)
  · refine hs.objects.writtenTo_write hpc fun h => hi ?_
    rw [← hmod, h]
    rfl
  · rw [hpc]
    by_cases hflow : id = flowID.toNat
    · subst hflow
      have hwritten := writtenTo_write_self (hs.writes i k payload hpc) payload
      rw [WorkerPc.payloadFor_of_ne (by simp [WorkerPc.payload]), append_nil]
      refine hwritten.trans ?_
      simp [WorkerPc.payloadFor, WorkerPc.payload, Option.filter]
    · have hwritten := hs.objects.writtenTo_write hpc hflow
      rw [WorkerPc.payloadFor_of_ne (by simp [WorkerPc.payload]),
        WorkerPc.payloadFor_of_ne (by simp [WorkerPc.payload, hflow]), append_nil,
        append_nil]
      exact hwritten

theorem workerStep_sequential (hs : s.Sequential flowID enqueued fed)
    (hok : s.Undisturbed flowID (.worker i ok now)) (h : s.workerStep i ok now = some s') :
    s'.Sequential flowID enqueued (fed ++ s.feeds (.worker i ok now)) := by
  have hobjects := workerStep_udpObjects hs.objects h
  have hb := workerStep_beside h
  have hfeeds : (∀ pkt, s.workers i ≠ .reassemble pkt) → s.feeds (.worker i ok now) = [] := by
    intro hnot
    cases hpc : s.workers i with
    | reassemble pkt => exact absurd hpc (hnot pkt)
    | _ => simp [feeds, hpc]
  cases workerStep_cases h with
  | take hpc hqueue =>
    rw [hfeeds (by simp [hpc]), append_nil]
    exact hs.take hpc hqueue
  | discard hpc hqueue =>
    have hdraining := hs.undrained i
    rw [hpc] at hdraining
    cases hdraining
  | @count task pc hpc =>
    cases task with
    | none =>
      have hdraining := hs.undrained i
      rw [hpc] at hdraining
      cases hdraining
    | some pkt =>
      rw [hfeeds (by simp [hpc]), append_nil]
      exact hs.count hpc hobjects
  | @reassemble pkt hpc =>
    have hrecord : s.feeds (.worker i ok now) = [(now, pkt)] := by simp [feeds, hpc]
    rw [hrecord]
    exact hs.reassemble hpc
  | @limit id payload hpc =>
    have hbudget := hok.2.2
    simp only [Unhindered, hpc] at hbudget
    rw [hfeeds (by simp [hpc]), append_nil]
    exact hs.limit hpc hbudget hobjects
  | @lookup id payload hpc =>
    have hfiled := hok.2.2
    simp only [Unhindered, hpc] at hfiled
    rw [hfeeds (by simp [hpc]), append_nil]
    exact hs.lookup hpc hfiled hobjects
  | @write k id payload hpc hw =>
    rw [hfeeds (by simp [hpc]), append_nil]
    exact hs.write hpc hobjects
  | @writeFails k id payload hpc hw =>
    have hwrite := hok.2.2
    simp only [Unhindered, hpc] at hwrite
    have hne : id ≠ flowID.toNat := fun h => by
      rw [hw] at hwrite
      cases hwrite h
    rw [hfeeds (by simp [hpc]), append_nil]
    exact hs.drop (by rw [hpc]; rfl) hne (by rw [hpc]; rfl) ⟨rfl, rfl, rfl⟩ hobjects
  | cancelled hpc hcancelled =>
    rw [hok.1] at hcancelled
    cases hcancelled
  | @other t pc hstarted hidle hnext hdraining ht =>
    have hnot : ∀ pkt, s.workers i ≠ .reassemble pkt := by
      rintro pkt hpc
      rw [hpc] at hidle
      cases hidle.2.1
    have hdrains : pc.draining = false := by
      have hdraining' := hs.undrained i
      rw [Bool.eq_false_iff] at hdraining' ⊢
      exact fun h => hdraining' (hdraining h)
    rw [hfeeds hnot, append_nil]
    have hobjects' : t.UDPObjects := hs.objects.same
      ⟨hb.created .udp, fun k => hb.flowID ⟨.udp, k⟩, fun id k hk => hb.table .udp id k hk,
        fun _ _ hpc => hb.control ▸ hpc, ht.writes, ht.written_or⟩
    have hs' : t.Sequential flowID enqueued fed := hs.apart ht hobjects'
      (fun k hk => hok.2.1 _ h k hk) fun k hk => .inl (hb.table .udp _ k hk)
    exact hs'.idle (ht.workers ▸ hstarted) ⟨rfl, rfl, rfl⟩ rfl rfl rfl rfl hobjects
      (hnext.2.1.trans (ht.workers ▸ hidle.2.1.symm)) (ht.workers ▸ hidle.2.2) hnext.2.2 hdrains

end QUICSession
end VlfProto.Session
