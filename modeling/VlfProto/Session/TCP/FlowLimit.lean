import VlfProto.Session.Opening
import VlfProto.Session.TCP.Moves

/-! # What only `Run` does -/

namespace VlfProto.Session
open Platform Transition Option List

def ServerFrame.openAnswer : ServerFrame → Option OpenAnswer
  | .openTCPOK flowID => some ⟨.tcp, flowID, true⟩
  | .openTCPFail flowID _ => some ⟨.tcp, flowID, false⟩
  | .openUDPFail flowID _ => some ⟨.udp, flowID, false⟩
  | _ => none

namespace TCPSession

variable {s s' t : TCPSession} {i k flowID : ℕ} {ok failed : Bool} {data : Bytes}
  {label : TCPSessionStep} {g : TCPGoroutine}

/-- The answers to opens that were attempted. -/
def answers (s : TCPSession) : List OpenAnswer := s.frames.filterMap fun f => f.1.openAnswer

structure Beside (s s' : TCPSession) : Prop where
  run : s'.run = s.run
  created : s'.created = s.created
  maxFlows : s'.maxFlows = s.maxFlows
  id : ∀ k, (s'.flows k).id = (s.flows k).id
  written : ∀ k, (s'.flows k).written = (s.flows k).written
  lookup : ∀ flowID k, s'.tcpFlows.lookup flowID = some k → s.tcpFlows.lookup flowID = some k
  targetClosed : ∀ k, (s.flows k).targetClosed → (s'.flows k).targetClosed
  frames : ∃ sent, s'.frames = s.frames ++ sent ∧ ∀ f ∈ sent, f.1.openAnswer = none

theorem Beside.refl (s : TCPSession) : s.Beside s where
  run := rfl
  created := rfl
  maxFlows := rfl
  id _ := rfl
  written _ := rfl
  lookup _ _ h := h
  targetClosed _ h := h
  frames := ⟨[], by simp⟩

theorem Beside.setFlow {flow : TCPFlow} (h : s.Beside t) (hid : flow.id = (t.flows k).id)
    (hwritten : flow.written = (t.flows k).written)
    (hclosed : (t.flows k).targetClosed → flow.targetClosed) : s.Beside (t.setFlow k flow) where
  run := h.run
  created := h.created
  maxFlows := h.maxFlows
  id j := by
    rw [← h.id]
    by_cases hj : j = k <;> simp [TCPSession.setFlow, hj, hid]
  written j := by
    rw [← h.written]
    by_cases hj : j = k <;> simp [TCPSession.setFlow, hj, hwritten]
  lookup := h.lookup
  targetClosed j hj := by
    have ht := h.targetClosed j hj
    by_cases hjk : j = k
    · subst hjk
      simp [TCPSession.setFlow, hclosed ht]
    · simp [TCPSession.setFlow, hjk, ht]
  frames := h.frames

theorem Beside.setLoop {pc : TCPLoopPc} (h : s.Beside t) : s.Beside (t.setLoop k pc) :=
  h.setFlow rfl rfl fun h => h

theorem Beside.closeTarget (h : s.Beside t) : s.Beside (t.closeTarget k) :=
  h.setFlow rfl rfl fun _ => rfl

theorem Beside.send {f : ServerFrame} (h : s.Beside t) (hf : f.openAnswer = none) :
    s.Beside { t with frames := t.frames ++ [(f, ok)] } := by
  obtain ⟨sent, hsent, hreply⟩ := h.frames
  refine { h with frames := ⟨sent ++ [(f, ok)], by simp [hsent], ?_⟩ }
  simpa [or_imp, forall_and, hf] using hreply

theorem closeFlowStep_beside {pc : CloseFlowPc} {next : Option CloseFlowPc}
    (h : s.closeFlowStep ok pc = some (s', next)) : s.Beside s' := by
  cases closeFlowStep_cases h with
  | gone => exact .refl s
  | delete =>
    refine { Beside.refl s with lookup := fun id j hj => ?_ }
    rw [Table.lookup_erase_eq] at hj
    split_ifs at hj
    exact hj
  | closeTarget => exact { (Beside.refl s).closeTarget with }
  | notify => exact (Beside.refl s).send rfl

theorem bodyStep_beside {stage : TCPCloseStage} {next : Option TCPCloseStage}
    (h : s.bodyStep stage = some (s', next)) : s.Beside s' := by
  cases bodyStep_cases h with
  | swapFlows => exact { Beside.refl s with lookup := fun id j hj => by simp at hj }
  | closeTarget => exact { (Beside.refl s).closeTarget with }
  | _ => exact { Beside.refl s with }

theorem closeStep_beside {r : TCPSession × Bool} (h : s.closeStep g = some r) : s.Beside r.1 := by
  rcases closeStep_cases h with ⟨-, rfl⟩ | ⟨stage, s', next, -, hbody, rfl⟩ | ⟨-, rfl⟩
  · exact { Beside.refl s with }
  · exact { bodyStep_beside hbody with }
  · exact .refl s

theorem loopStep_beside (h : s.loopStep k data failed ok = some s') : s.Beside s' := by
  cases loopStep_moves h with
  | light => exact { (Beside.refl s).setLoop with }
  | forward => exact ((Beside.refl s).send rfl).setLoop
  | closeFlow hpc hr => exact (closeFlowStep_beside hr).setLoop
  | close hpc hr =>
    split_ifs
    · exact (closeStep_beside hr).setLoop
    · exact closeStep_beside hr

theorem Beside.answers_eq (h : s.Beside s') : s'.answers = s.answers := by
  obtain ⟨sent, hsent, hnone⟩ := h.frames
  rw [answers, hsent, filterMap_append, filterMap_eq_nil_iff.mpr hnone, append_nil]
  rfl

theorem Beside.flowCount_le (h : s.Beside s') : s'.flowCount ≤ s.flowCount :=
  Table.card_keys_le h.lookup

theorem step_beside (hlabel : ∀ frame ok n, label ≠ .run frame ok n)
    (h : s.step label = some s') : s.Beside s' := by
  cases label with
  | run frame ok n => exact absurd rfl (hlabel frame ok n)
  | loop k data failed ok => exact loopStep_beside h
  | callClose i =>
    obtain ⟨-, rfl⟩ := of_guard h
    exact { Beside.refl s with }
  | closer i =>
    obtain ⟨r, closers, hclose, rfl⟩ := closerStep_moves h
    exact { closeStep_beside hclose with }

end TCPSession

/-! ### How many flows a TCP session has -/

/-- The id of the flow that `Run` is past the checks for and has not inserted. -/
def TCPRunPc.admitted : TCPRunPc → Option ℕ
  | .dial flowID => some flowID
  | .insert flowID _ => some flowID
  | _ => none

namespace TCPSession

variable {s s' t : TCPSession} {n : ℕ} {ok : Bool} {frame : Option Frame} {label : TCPSessionStep}
  {maxFlows : ℤ}

structure Bounded (maxFlows : ℤ) (s : TCPSession) : Prop where
  maxFlows_eq : s.maxFlows = maxFlows
  count : (s.flowCount : ℤ) ≤ max maxFlows 0
  room : ∀ flowID, s.run.admitted = some flowID → flowID ≠ 0 ∧ (s.flowCount : ℤ) < maxFlows
  table : s.tcpFlows.lookup 0 = none
  nonzero : ∀ k < s.created, (s.flows k).id ≠ 0

theorem new_bounded (maxFlows : ℤ) : (new maxFlows).Bounded maxFlows where
  maxFlows_eq := rfl
  count := le_max_right _ _
  room _ h := by cases h
  table := rfl
  nonzero _ h := absurd h (Nat.not_lt_zero _)

theorem Bounded.beside (h : s.Bounded maxFlows) (hb : s.Beside s') : s'.Bounded maxFlows where
  maxFlows_eq := hb.maxFlows.trans h.maxFlows_eq
  count := (Int.ofNat_le.mpr hb.flowCount_le).trans h.count
  room flowID hid := by
    obtain ⟨hne, hlt⟩ := h.room flowID (hb.run ▸ hid)
    exact ⟨hne, (Int.ofNat_le.mpr hb.flowCount_le).trans_lt hlt⟩
  table := by
    rw [Option.eq_none_iff_forall_ne_some]
    intro k hk
    have hold := hb.lookup 0 k hk
    rw [h.table] at hold
    cases hold
  nonzero k hk := by
    rw [hb.id]
    exact h.nonzero k (hb.created ▸ hk)

theorem Bounded.setRun {pc : TCPRunPc} {tcpStreams : ℤ} {wg : ℕ} {limiterEntry registered : Bool}
    {frames : List (ServerFrame × Bool)} (h : s.Bounded maxFlows) (hpc : pc.admitted = none) :
    { s with run := pc, tcpStreams, wg, limiterEntry, registered, frames }.Bounded maxFlows :=
  { h with room := fun flowID hid => by rw [hpc] at hid; cases hid }

theorem admitted_of_entry {pc : TCPRunPc} (h : pc.entry) : pc.admitted = none := by
  cases pc <;> first | rfl | cases h

theorem runStep_bounded (h : s.Bounded maxFlows) (hstep : s.runStep frame ok n = some s') :
    s'.Bounded maxFlows := by
  cases runStep_cases hstep with
  | setDeadline | writeAuthOK | writeOpenOK | lookup | dataLimit =>
    exact h.setRun (by split_ifs <;> rfl)
  | authFail | register | reply | dialFails | duplicate | countStream | lookupFails | unregister =>
    exact h.setRun rfl
  | readFirst _ _ hentry | readFrame _ _ hentry => exact h.setRun (admitted_of_entry hentry)
  | @openCheck p hpc =>
    rcases s.openCheck_cases p with ⟨reason, hnext⟩ | ⟨hnext, hne, hlt⟩
    · rw [hnext]
      exact h.setRun rfl
    · rw [hnext]
      rw [h.maxFlows_eq] at hlt
      refine { h with room := fun flowID hid => ?_ }
      cases hid
      exact ⟨hne, hlt⟩
  | @dial flowID hpc =>
    obtain ⟨hne, hlt⟩ := h.room flowID (by rw [hpc]; rfl)
    refine ⟨h.maxFlows_eq, h.count, fun id hid => ?_, h.table, fun k hk => ?_⟩
    · cases hid
      exact ⟨hne, hlt⟩
    · by_cases hnew : k = s.created
      · subst hnew
        simpa [createFlow, setFlow] using hne
      · have hold : k < s.created := lt_of_le_of_ne (Nat.lt_succ_iff.mp hk) hnew
        change ((s.createFlow flowID).flows k).id ≠ 0
        rw [createFlow_flows s hnew]
        exact h.nonzero k hold
  | @insert flowID k hpc hnone =>
    obtain ⟨hne, hlt⟩ := h.room flowID (by rw [hpc]; rfl)
    have hcard := Table.card_keys_insert (v := k) hnone
    refine ⟨h.maxFlows_eq, ?_, fun id hid => (by cases hid), ?_, h.nonzero⟩
    · refine le_max_of_le_left ?_
      change (((s.tcpFlows.insert flowID k).keys.card : ℕ) : ℤ) ≤ maxFlows
      rw [hcard]
      exact hlt
    · exact (Finmap.lookup_insert_of_ne _ hne.symm).trans h.table
  | closeDuplicate => exact (h.beside (Beside.refl s).closeTarget).setRun rfl
  | spawn => exact (h.beside (Beside.refl s).setLoop).setRun rfl
  | @closeFlow pc r hpc hr =>
    exact (h.beside (closeFlowStep_beside hr)).setRun (by cases r.2 <;> rfl)
  | @dataWrite flowID k data hpc =>
    refine Bounded.setRun (s := s.setFlow k _) { h with nonzero := fun j hj => ?_ }
      (by split_ifs <;> rfl)
    have hid := h.nonzero j hj
    by_cases hjk : j = k
    · subst hjk
      simpa [setFlow] using hid
    · simpa [setFlow, hjk] using hid
  | closing hpc hr | deferredClose hpc hr =>
    have hr := h.beside (closeStep_beside hr)
    split_ifs
    · exact hr.setRun rfl
    · exact hr

theorem step_bounded (h : s.Bounded maxFlows) (hstep : s.step label = some s') :
    s'.Bounded maxFlows := by
  cases label with
  | run frame ok n => exact runStep_bounded h hstep
  | loop k data failed ok | callClose i | closer i => exact h.beside (step_beside (by simp) hstep)

end TCPSession
end VlfProto.Session
