import VlfProto.Session.QUIC.ControlSteps
import VlfProto.Session.QUIC.PipelineCases

/-! # The objects of UDP flows -/

namespace VlfProto.Session
open Platform Transition Function Nat

namespace QUICSession

variable {s s' t : QUICSession} {i k : ℕ} {ok : Bool} {now : ℤ} {frame : Option Frame}
  {label : QUICSessionStep}

structure UDPObjects (s : QUICSession) : Prop where
  filed : ∀ id k, s.udpFlows.lookup id = some k → k < s.udpCreated ∧ (s.udp k).id = id
  writes : ∀ i k id payload, s.workers i = .write k id payload →
    k < s.udpCreated ∧ (s.udp k).id = id
  uncreated : ∀ k, s.udpCreated ≤ k → (s.udp k).written = []
  inserts : ∀ k id, s.control = .insert ⟨.udp, k⟩ id → k < s.udpCreated ∧ (s.udp k).id = id ∧
    (s.udp k).written = [] ∧ (∀ id, s.udpFlows.lookup id ≠ some k) ∧
    ∀ i id payload, s.workers i ≠ .write k id payload

theorem new_udpObjects (cfg : SessionConfig) (id : UInt64) (limits : Limits.Manager) :
    (new cfg id limits).UDPObjects where
  filed _ _ h := by cases h
  writes _ _ _ _ h := by cases h
  uncreated _ _ := rfl
  inserts _ _ h := by cases h

/-- No object is created or filed, and the workers write only to what they have looked up. -/
structure SameObjects (s s' : QUICSession) : Prop where
  created : s'.udpCreated = s.udpCreated
  ids : ∀ k, (s'.udp k).id = (s.udp k).id
  table : ∀ id k, s'.udpFlows.lookup id = some k → s.udpFlows.lookup id = some k
  inserts : ∀ k id, s'.control = .insert ⟨.udp, k⟩ id → s.control = .insert ⟨.udp, k⟩ id
  writes : ∀ i k id payload, s'.workers i = .write k id payload →
    s.workers i = .write k id payload ∨ s.udpFlows.lookup id = some k
  written : ∀ k, (s'.udp k).written = (s.udp k).written ∨ (s'.udp k).written = [] ∨
    ∃ i id payload, s.workers i = .write k id payload

theorem UDPObjects.same (hs : s.UDPObjects) (h : s.SameObjects s') : s'.UDPObjects where
  filed id k hk := by
    rw [h.created, h.ids]
    exact hs.filed id k (h.table id k hk)
  writes i k id payload hpc := by
    rw [h.created, h.ids]
    rcases h.writes i k id payload hpc with hold | hlookup
    · exact hs.writes i k id payload hold
    · exact hs.filed id k hlookup
  uncreated k hk := by
    rw [h.created] at hk
    rcases h.written k with hsame | hempty | ⟨i, id, payload, hpc⟩
    · exact hsame.trans (hs.uncreated k hk)
    · exact hempty
    · exact absurd (hs.writes i k id payload hpc).1 (not_lt.mpr hk)
  inserts k id hpc := by
    obtain ⟨hlt, hid, hwritten, hfiled, hwrites⟩ := hs.inserts k id (h.inserts k id hpc)
    refine ⟨h.created ▸ hlt, (h.ids k).trans hid, ?_, fun id hk => hfiled id (h.table id k hk),
      fun i id payload hpc => ?_⟩
    · rcases h.written k with hsame | hempty | ⟨i, id, payload, hpc⟩
      · exact hsame.trans hwritten
      · exact hempty
      · exact absurd hpc (hwrites i id payload)
    · rcases h.writes i k id payload hpc with hold | hlookup
      · exact hwrites i id payload hold
      · exact hfiled id hlookup

theorem Beside.sameObjects (h : s.Beside s')
    (hwrites : ∀ i k id payload, s'.workers i = .write k id payload →
      s.workers i = .write k id payload ∨ s.udpFlows.lookup id = some k)
    (hwritten : ∀ k, (s'.udp k).written = (s.udp k).written ∨ (s'.udp k).written = [] ∨
      ∃ i id payload, s.workers i = .write k id payload) : s.SameObjects s' where
  created := h.created .udp
  ids k := h.flowID ⟨.udp, k⟩
  table id k hk := h.table .udp id k hk
  inserts _ _ hpc := h.control ▸ hpc
  writes := hwrites
  written := hwritten

theorem Apart.written_or (h : s.Apart s') (k : ℕ) :
    (s'.udp k).written = (s.udp k).written ∨ (s'.udp k).written = [] ∨
      ∃ i id payload, s.workers i = .write k id payload := by
  rcases h.written k with hsame | ⟨-, hempty⟩
  · exact .inl hsame
  · exact .inr (.inl hempty)

theorem Apart.writes (h : s.Apart s') (i k id : ℕ) (payload : Bytes)
    (hpc : s'.workers i = .write k id payload) :
    s.workers i = .write k id payload ∨ s.udpFlows.lookup id = some k :=
  .inl (h.workers ▸ hpc)

theorem UDPObjects.createFlow (hs : s.UDPObjects) (flowID : ℕ) (kind : FlowKind) :
    { s.createFlow flowID kind with
      control := .insert ⟨kind, s.created kind⟩ flowID }.UDPObjects := by
  cases kind with
  | tcp => exact { hs with inserts := fun k id hpc => by cases hpc }
  | udp =>
    have hself : ((s.createFlow flowID .udp).udp s.udpCreated) =
        ⟨flowID, false, [], 0, .notStarted⟩ := update_self ..
    have hother : ∀ k, k ≠ s.udpCreated → (s.createFlow flowID .udp).udp k = s.udp k :=
      fun k hk => update_of_ne hk ..
    constructor
    · intro id k hk
      obtain ⟨hlt, hid⟩ := hs.filed id k hk
      exact ⟨lt_succ_of_lt hlt, (congrArg SessionUDPFlow.id (hother k hlt.ne)).trans hid⟩
    · intro i k id payload hpc
      obtain ⟨hlt, hid⟩ := hs.writes i k id payload hpc
      exact ⟨lt_succ_of_lt hlt, (congrArg SessionUDPFlow.id (hother k hlt.ne)).trans hid⟩
    · intro k hk
      have hlt : s.udpCreated < k := lt_of_succ_le hk
      exact (congrArg SessionUDPFlow.written (hother k hlt.ne')).trans (hs.uncreated k hlt.le)
    · intro k id hpc
      obtain ⟨rfl, rfl⟩ : s.udpCreated = k ∧ flowID = id := by simpa [created] using hpc
      refine ⟨lt_succ_self _, congrArg SessionUDPFlow.id hself,
        congrArg SessionUDPFlow.written hself, fun id hk => ?_, fun i id payload hpc => ?_⟩
      · exact (hs.filed id _ hk).1.ne rfl
      · exact (hs.writes i _ id payload hpc).1.ne rfl

theorem UDPObjects.file {f : FlowRef} {flowID : ℕ} (hs : s.UDPObjects)
    (hpc : s.control = .insert f flowID) :
    { s.file f flowID with control := .writeOpenOK f flowID }.UDPObjects := by
  obtain ⟨kind, j⟩ := f
  cases kind with
  | tcp => exact { hs with inserts := fun k id hpc => by cases hpc }
  | udp =>
    obtain ⟨hlt, hid, -⟩ := hs.inserts j flowID hpc
    refine { hs with filed := fun id k hk => ?_, inserts := fun k id hpc => by cases hpc }
    change Finmap.lookup id (s.udpFlows.insert flowID j) = some k at hk
    rw [Table.lookup_insert_eq] at hk
    split_ifs at hk with hsame
    · cases hk
      exact ⟨hlt, hid.trans hsame.symm⟩
    · exact hs.filed id k hk

theorem UDPObjects.setControl {pc : ControlPc} (hs : s.UDPObjects)
    (hpc : ∀ f id, pc ≠ .insert f id) : { s with control := pc }.UDPObjects :=
  { hs with inserts := fun k id h => absurd h (hpc ⟨.udp, k⟩ id) }

theorem UDPObjects.beside (hs : s.UDPObjects) (hb : s.Beside t) (ha : s.Apart t) :
    t.UDPObjects :=
  hs.same (hb.sameObjects ha.writes ha.written_or)

theorem UDPObjects.aside (hs : s.UDPObjects) (ha : s.Aside s') : s'.UDPObjects :=
  hs.beside ha.toBeside ha.apart

theorem ControlPc.ne_insert {pc : ControlPc} (h : pc.handsOff) (f : FlowRef) (id : ℕ) :
    pc ≠ .insert f id := by
  rintro rfl
  cases h

theorem controlStep_udpObjects (hs : s.UDPObjects) (h : s.controlStep frame ok = some s') :
    s'.UDPObjects := by
  cases controlStep_cases h with
  | dial hpc hok => exact hs.createFlow _ _
  | insert hpc hnone => exact hs.file hpc
  | readFrame _ _ hentry =>
    exact hs.setControl (ControlPc.ne_insert (ControlPc.handsOff_of_entry hentry))
  | openCheck hpc => exact hs.setControl (ControlPc.ne_insert (openCheck_handsOff s _ _))
  | closeDuplicate hpc =>
    exact (hs.aside (s.dropFlow_shuts _).toAside).setControl (by simp)
  | @writeOpenOK f flowID hpc =>
    have hwritten : { s with frames := s.frames ++ [(SessionFrame.openOK f.kind flowID, ok)]
      }.UDPObjects := { hs with }
    refine hwritten.setControl ?_
    obtain ⟨kind, k⟩ := f
    cases ok <;> cases kind <;> simp [afterOpenOK]
  | @spawn k hpc =>
    have hspawned : (s.setReader k .read).UDPObjects :=
      hs.aside (Aside.refl s).setReader
    exact { hspawned with inserts := fun k id h => by cases h }
  | @closeFlow pc r hpc hr =>
    refine (hs.aside (closeFlowStep_shuts hr).toAside).setControl ?_
    cases r.2 <;> simp
  | closing hpc hr =>
    have hclosed := hs.aside (closeStep_shuts hr).toAside
    split_ifs
    · exact hclosed.setControl (by simp)
    · exact hclosed
  | _ => exact { hs with inserts := fun k id hpc => by cases hpc }

theorem UDPObjects.setWorker {pc : WorkerPc} (hs : s.UDPObjects)
    (hpc : ∀ k id payload, pc = .write k id payload → s.udpFlows.lookup id = some k) :
    (s.setWorker i pc).UDPObjects := by
  refine hs.same ⟨rfl, fun _ => rfl, fun _ _ h => h, fun _ _ h => h,
    fun j k id payload hj => ?_, fun _ => .inl rfl⟩
  by_cases hji : j = i
  · subst hji
    exact .inr (hpc k id payload (by simpa [QUICSession.setWorker] using hj))
  · exact .inl (by simpa [QUICSession.setWorker, hji] using hj)

theorem UDPObjects.write {id : ℕ} {payload : Bytes} (hs : s.UDPObjects)
    (hpc : s.workers i = .write k id payload) :
    (s.setUDP k { s.udp k with written := (s.udp k).written ++ [payload] }).UDPObjects := by
  refine hs.same ⟨rfl, fun j => ?_, fun _ _ h => h, fun _ _ h => h, fun _ _ _ _ h => .inl h,
    fun j => ?_⟩
  · by_cases hjk : j = k <;> simp [setUDP, hjk]
  · by_cases hjk : j = k
    · subst hjk
      exact .inr (.inr ⟨i, id, payload, hpc⟩)
    · exact .inl (by simp [setUDP, hjk])

theorem workerStep_udpObjects (hs : s.UDPObjects) (h : s.workerStep i ok now = some s') :
    s'.UDPObjects := by
  have hbeside := workerStep_beside h
  cases workerStep_cases h with
  | @take _ rest hpc hqueue | @discard _ rest hpc hqueue =>
    have ht : { s with queues := update s.queues i rest }.UDPObjects := { hs with }
    exact ht.setWorker (by simp)
  | @count task pc hpc =>
    obtain ⟨m, n, hfields⟩ := s.countStep_fields (-1) true pc
    have ht : { s with metricsQueue := m, datagramQLen := n }.UDPObjects := { hs with }
    rw [hfields]
    refine ht.setWorker ?_
    cases (s.countStep (-1) true pc).2
    · cases task <;> simp
    · simp
  | @reassemble pkt hpc =>
    have ht : { s with reassembly := (s.reassembly.add now pkt).1 }.UDPObjects := { hs with }
    refine ht.setWorker ?_
    cases (s.reassembly.add now pkt).2 <;> simp
  | @limit flowID payload hpc =>
    have ht : { s with
      limits := (s.limits.allowSessionBytes s.id payload.length now).1 }.UDPObjects := { hs with }
    refine ht.setWorker ?_
    split_ifs <;> simp
  | @lookup flowID payload hpc =>
    refine hs.setWorker fun k id payload hk => ?_
    cases hlookup : s.udpFlows.lookup flowID with
    | none => simp [hlookup] at hk
    | some k' =>
      simp only [hlookup, Option.elim_some, WorkerPc.write.injEq] at hk
      obtain ⟨rfl, rfl, -⟩ := hk
      exact hlookup
  | write hpc hok => exact (hs.write hpc).setWorker (by simp)
  | writeFails hpc hok | cancelled hpc hcancelled => exact hs.setWorker (by simp)
  | @other t pc hstarted hidle hnext hdraining ht =>
    refine hs.same (hbeside.sameObjects (fun j k id payload hj => ?_) ht.written_or)
    by_cases hji : j = i
    · obtain rfl : pc = .write k id payload := by simpa [QUICSession.setWorker, hji] using hj
      cases hnext.2.2
    · refine ht.writes j k id payload ?_
      simpa [QUICSession.setWorker, hji] using hj

theorem UDPObjects.start (hs : s.UDPObjects) : { s.start with run := .waitDone }.UDPObjects := by
  have hnot : ∀ i k id payload, s.start.workers i ≠ .write k id payload := by
    intro i k id payload hpc
    change (if i < s.workerCount then WorkerPc.receive else .notStarted) = _ at hpc
    split_ifs at hpc
  exact { hs with
    writes := fun i k id payload hpc => absurd hpc (hnot i k id payload)
    inserts := fun k id hpc => by cases hpc }

theorem runStep_udpObjects (hs : s.UDPObjects) (h : s.runStep frame ok = some s') :
    s'.UDPObjects := by
  rcases runStep_still h with ha | ⟨-, rfl⟩
  · exact { hs.aside ha.toAside with }
  · exact hs.start

theorem datagramReadStep_udpObjects {raw : Option Bytes} (hs : s.UDPObjects)
    (h : s.datagramReadStep raw now = some s') : s'.UDPObjects := by
  have hb := (datagramReadStep_quiet h).toBeside
  cases datagramReadStep_cases h with
  | @count pc hpc =>
    obtain ⟨m, n, hfields⟩ := s.countStep_fields 1 false pc
    rw [hfields]
    exact { hs with }
  | other hstarted henqueue hpc hnext ht => exact hs.same (hb.sameObjects ht.writes ht.written_or)
  | _ => exact { hs with }

theorem step_udpObjects (hs : s.UDPObjects) (h : s.step label = some s') : s'.UDPObjects := by
  cases label with
  | run frame ok => exact runStep_udpObjects hs h
  | control frame ok => exact controlStep_udpObjects hs h
  | worker i ok now => exact workerStep_udpObjects hs h
  | datagramReader raw now => exact datagramReadStep_udpObjects hs h
  | _ =>
    exact hs.beside (step_beside (by simp) (by simp) h) (step_apart (by simp) (by simp) (by simp) h)

end QUICSession
end VlfProto.Session
