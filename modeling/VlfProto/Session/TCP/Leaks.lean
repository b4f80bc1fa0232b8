import VlfProto.Session.TCP.Balance
import VlfProto.Session.TCP.Wedge

/-! # No target is leaked -/

namespace VlfProto.Session
open Platform Transition

/-- `Run` has left its loop. -/
def TCPRunPc.left : TCPRunPc → Bool
  | .unregister => true
  | .deferredClose => true
  | .returned => true
  | _ => false

theorem TCPRunPc.of_left {pc : TCPRunPc} (h : pc.left) :
    pc.light ∧ pc.streams = 0 ∧ ∀ flowID k, ¬pc.Opens flowID k := by
  cases pc <;> simp_all [left, light, streams, Opens]

namespace TCPSession

variable {s s' : TCPSession} {i k flowID n : ℕ} {ok failed : Bool} {data : Bytes}
  {frame : Option Frame} {label : TCPSessionStep} {g : TCPGoroutine}

/-- Object `k` is in somebody's care. -/
def Held (s : TCPSession) (k : ℕ) : Prop := s.run.Holds k ∨ s.InTable k ∨ s.Shut k

/-- Where an object stays shut: the goroutine that is about to close its target may
have done so. -/
theorem Shut.keep (h : s.Shut k) (hclosed : (s.flows k).targetClosed → (s'.flows k).targetClosed)
    (hrun : ∀ flowID notify, s.run = .closeFlow (.closeTarget k flowID notify) → s'.Shut k)
    (hloop : ∀ j flowID notify, (s.flows j).loop = .closeFlow (.closeTarget k flowID notify) →
      s'.Shut k) (honce : s'.once = s.once) : s'.Shut k := by
  rcases h with h | ⟨flowID, notify, h⟩ | ⟨j, flowID, notify, h⟩ | ⟨g, rest, h, hmem⟩
  · exact .inl (hclosed h)
  · exact hrun flowID notify h
  · exact hloop j flowID notify h
  · exact .inr (.inr (.inr ⟨g, rest, honce.trans h, hmem⟩))

/-- A step that leaves the goroutines that are about to close a target alone. -/
theorem Shut.keepRun (h : s.Shut k)
    (hrun : ∀ flowID notify, s.run ≠ .closeFlow (.closeTarget k flowID notify))
    (hclosed : (s.flows k).targetClosed → (s'.flows k).targetClosed)
    (hloop : ∀ j, (s.flows j).loop ≠ .notStarted → (s'.flows j).loop = (s.flows j).loop)
    (honce : s'.once = s.once) : s'.Shut k := by
  refine h.keep hclosed (fun _ _ hpc => absurd hpc (hrun _ _)) (fun j flowID notify hpc => ?_) honce
  exact .inr (.inr (.inl ⟨j, flowID, notify, (hloop j (by simp [hpc])).trans hpc⟩))

theorem not_closeTarget_of_light (h : s.run.light) (k flowID : ℕ) (notify : Bool) :
    s.run ≠ .closeFlow (.closeTarget k flowID notify) := by
  intro hpc
  rw [hpc] at h
  cases h

/-- One action of `closeFlow` on behalf of a goroutine that takes up its next one. -/
theorem closeFlowStep_used {pc : CloseFlowPc} {next : Option CloseFlowPc}
    (h : s.closeFlowStep ok pc = some (s', next)) (hk : s.InTable k ∨ s.Shut k) :
    s'.InTable k ∨ s'.Shut k ∨ ∃ flowID notify, next = some (.closeTarget k flowID notify) := by
  cases closeFlowStep_cases h with
  | gone | notify => exact hk.imp_right .inl
  | @delete flowID j notify hlookup =>
    rcases hk with ⟨id, hid⟩ | hshut
    · by_cases heq : id = flowID
      · subst heq
        rw [hlookup] at hid
        cases hid
        exact .inr (.inr ⟨id, notify, rfl⟩)
      · exact .inl ⟨id, by simpa [Table.lookup_erase_eq, heq] using hid⟩
    · exact .inr (.inl hshut)
  | @closeTarget flowID j notify =>
    refine hk.imp_right fun hshut => .inl ?_
    rcases hshut with hclosed | hpc | ⟨j', id, notify', hpc⟩ | hpc
    · exact .inl (by simp [hclosed])
    · exact .inr (.inl hpc)
    · exact .inr (.inr (.inl ⟨j', id, notify', (closeTarget_loop s j j').trans hpc⟩))
    · exact .inr (.inr (.inr hpc))

theorem closeFlowStep_closed {notify : Bool} {next : Option CloseFlowPc}
    (h : s.closeFlowStep ok (.closeTarget k flowID notify) = some (s', next)) :
    (s'.flows k).targetClosed := by
  cases h
  simp

theorem RunMove.held (hmove : s.RunMove s') (h : ∀ k < s.created, s.Held k) (hs : s.Consistent) :
    ∀ k < s'.created, s'.Held k := by
  intro j hj
  cases hmove with
  | light hold hnew =>
    rcases h j hj with hholds | htable | hshut
    · exact absurd hholds (TCPRunPc.not_holds_of_light hold j)
    · exact .inr (.inl htable)
    · exact .inr (.inr (hshut.keepRun (not_closeTarget_of_light hold j) id (fun _ _ => rfl) rfl))
  | @dial flowID hpc =>
    rcases Nat.lt_succ_iff_lt_or_eq.mp hj with hlt | rfl
    · rcases h j hlt with hholds | htable | hshut
      · simp [hpc, TCPRunPc.Holds] at hholds
      · exact .inr (.inl htable)
      · refine .inr (.inr (hshut.keepRun (by simp [hpc]) ?_ (fun k _ => createFlow_loop hs k) rfl))
        intro hclosed
        exact (congrArg TCPFlow.targetClosed (createFlow_flows s hlt.ne)).trans hclosed
    · exact .inl rfl
  | duplicate hpc =>
    rcases h j hj with hholds | htable | hshut
    · rw [hpc] at hholds
      exact .inl hholds
    · exact .inr (.inl htable)
    · exact .inr (.inr (hshut.keepRun (by simp [hpc]) id (fun _ _ => rfl) rfl))
  | @insert flowID k hpc hnone =>
    rcases h j hj with hholds | ⟨id, hid⟩ | hshut
    · rw [hpc] at hholds
      obtain rfl : k = j := hholds
      exact .inr (.inl ⟨flowID, Finmap.lookup_insert _⟩)
    · refine .inr (.inl ⟨id, ?_⟩)
      rw [Table.lookup_insert_eq, if_neg]
      · exact hid
      · rintro rfl
        rw [hnone] at hid
        cases hid
    · exact .inr (.inr (hshut.keepRun (by simp [hpc]) id (fun _ _ => rfl) rfl))
  | @closeDuplicate flowID k pc hpc hnew =>
    rcases h j hj with hholds | htable | hshut
    · rw [hpc] at hholds
      obtain rfl : k = j := hholds
      exact .inr (.inr (.inl (by simp)))
    · exact .inr (.inl htable)
    · exact .inr (.inr (hshut.keepRun (by simp [hpc]) (by simp +contextual)
        (fun j _ => closeTarget_loop s k j) rfl))
  | count hpc =>
    rcases h j hj with hholds | htable | hshut
    · simp [hpc, TCPRunPc.Holds] at hholds
    · exact .inr (.inl htable)
    · exact .inr (.inr (hshut.keepRun (by simp [hpc]) id (fun _ _ => rfl) rfl))
  | @spawn k hpc =>
    rcases h j hj with hholds | htable | hshut
    · simp [hpc, TCPRunPc.Holds] at hholds
    · exact .inr (.inl htable)
    · refine .inr (.inr (hshut.keepRun (by simp [hpc]) (by simp) (fun k' hk' => ?_) rfl))
      have hne : k' ≠ k := by
        rintro rfl
        exact hk' (hs.fresh k' (by rw [hpc]; rfl)).2
      exact setLoop_loop_of_ne s _ hne
  | @closeFlow pc ok r hpc hr =>
    obtain ⟨hcreated, hrun, -⟩ := closeFlowStep_moves hr
    have hused : s.InTable j ∨ s.Shut j := by
      rcases h j (hcreated ▸ hj) with hholds | hused
      · simp [hpc, TCPRunPc.Holds] at hholds
      · exact hused
    rcases closeFlowStep_used hr hused with htable | hshut | ⟨id, notify, hnext⟩
    · exact .inr (.inl htable)
    · refine .inr (.inr (hshut.keep (fun h => h) (fun id notify h => ?_)
        (fun j' id notify h => .inr (.inr (.inl ⟨j', id, notify, h⟩))) rfl))
      obtain rfl : pc = .closeTarget j id notify := by
        rw [hrun, hpc] at h
        exact TCPRunPc.closeFlow.inj h
      have hclosed := closeFlowStep_closed hr
      exact .inl hclosed
    · refine .inr (.inr (.inr (.inl ⟨id, notify, ?_⟩)))
      simp [hnext]
  | @write k written pc hold hnew =>
    rcases h j hj with hholds | htable | hshut
    · exact absurd hholds (TCPRunPc.not_holds_of_light hold j)
    · exact .inr (.inl htable)
    · refine .inr (.inr (hshut.keepRun (not_closeTarget_of_light hold j) ?_
        (fun j _ => setWritten_loop s k j written) rfl))
      intro hclosed
      by_cases hjk : j = k
      · subst hjk
        simpa [setFlow] using hclosed
      · simpa [setFlow, hjk] using hclosed
  | @close pc r hold hnew hr =>
    have hm := closeStep_moves hr
    have hcreated : (if r.2 then { r.1 with run := pc } else r.1).created = s.created := by
      split_ifs <;> exact hm.created
    have hused : s.InTable j ∨ s.Shut j := by
      rcases h j (hcreated ▸ hj) with hholds | hused
      · exact absurd hholds (TCPRunPc.not_holds_of_light hold j)
      · exact hused
    rcases closeStep_used hs hr hused with htable | hshut
    · split_ifs <;> exact .inr (.inl htable)
    · split_ifs
      · refine .inr (.inr (hshut.keepRun ?_ id (fun _ _ => rfl) rfl))
        rw [hm.run]
        exact not_closeTarget_of_light hold j
      · exact .inr (.inr hshut)

theorem LoopMove.held (hmove : s.LoopMove k s') (h : ∀ k < s.created, s.Held k)
    (hs : s.Consistent) : ∀ k < s'.created, s'.Held k := by
  intro j hj
  cases hmove with
  | light hlive hold hnew =>
    refine (h j hj).imp_right (Or.imp_right fun hshut => hshut.setLoop fun id notify hpc => ?_)
    rw [hpc] at hold
    cases hold
  | forward hpc hnew =>
    exact (h j hj).imp_right (Or.imp_right fun hshut => hshut.setLoop (by simp [hpc]))
  | @closeFlow pc ok r hpc hr =>
    obtain ⟨hcreated, hrun, hloop⟩ := closeFlowStep_moves hr
    rcases h j (hcreated ▸ hj) with hholds | hused
    · exact .inl (hrun ▸ hholds)
    · right
      rcases closeFlowStep_used hr hused with htable | hshut | ⟨id, notify, hnext⟩
      · exact .inl htable
      · refine .inr (hshut.setLoop fun id notify h => ?_)
        obtain rfl : pc = .closeTarget j id notify := by
          rw [hloop, hpc] at h
          exact TCPLoopPc.closeFlow.inj h
        exact closeFlowStep_closed hr
      · refine .inr (.inr (.inr (.inl ⟨k, id, notify, ?_⟩)))
        simp [hnext]
  | @close r hpc hr =>
    have hm := closeStep_moves hr
    have hcreated : (if r.2 then r.1.setLoop k .exiting else r.1).created = s.created := by
      split_ifs <;> exact hm.created
    rcases h j (hcreated ▸ hj) with hholds | hused
    · split_ifs <;> exact .inl (hm.run ▸ hholds)
    · right
      rcases closeStep_used hs hr hused with htable | hshut
      · split_ifs <;> exact .inl htable
      · split_ifs
        · exact .inr (hshut.setLoop (by simp [hm.loop, hpc]))
        · exact .inr hshut

theorem step_held (h : ∀ k < s.created, s.Held k) (hs : s.Consistent)
    (hstep : s.step label = some s') : ∀ k < s'.created, s'.Held k := by
  cases label with
  | run frame ok n => exact (runStep_moves hstep).held h hs
  | loop k data failed ok => exact (loopStep_moves hstep).held h hs
  | callClose i =>
    obtain ⟨-, rfl⟩ := of_guard hstep
    exact h
  | closer i =>
    obtain ⟨r, closers, hclose, rfl⟩ := closerStep_moves hstep
    have hm := closeStep_moves hclose
    intro j hj
    rcases h j (hm.created ▸ hj) with hholds | hused
    · exact .inl (hm.run ▸ hholds)
    · exact .inr (closeStep_used hs hclose hused)

structure Accounted (s : TCPSession) : Prop where
  consistent : s.Consistent
  balanced : s.Balanced
  held : ∀ k < s.created, s.Held k

theorem new_accounted (maxFlows : ℤ) : (new maxFlows).Accounted where
  consistent := new_consistent maxFlows
  balanced := rfl
  held _ h := absurd h (Nat.not_lt_zero _)

theorem step_accounted (h : s.Accounted) (hstep : s.step label = some s') : s'.Accounted where
  consistent := step_consistent h.consistent hstep
  balanced := step_balanced h.balanced h.consistent hstep
  held := step_held h.held h.consistent hstep

def PastTargets (s : TCPSession) : Prop := s.once = .done ∨ ∃ g, s.once = .running g .wait

theorem PastTargets.pastSwap (h : s.PastTargets) : s.PastSwap :=
  h.imp_right fun ⟨g, hrun⟩ => ⟨g, .wait, hrun, rfl⟩

theorem PastTargets.onceStreams_eq (h : s.PastTargets) : onceStreams s.once = 0 := by
  rcases h with hdone | ⟨g, hrun⟩
  · rw [hdone]
    rfl
  · rw [hrun]
    rfl

/-- No loop is between the removal of a flow and the close of its target. -/
def NoneTaken (s : TCPSession) : Prop := ∀ j < s.created, (s.flows j).loop.light

theorem NoneTaken.loopStreams_eq (h : s.NoneTaken) : s.loopStreams = 0 :=
  Finset.sum_eq_zero fun j hj => TCPLoopPc.streams_of_light (h j (Finset.mem_range.mp hj))

theorem Accounted.closed (h : s.Accounted) (hleft : s.run.left) (hpast : s.PastTargets)
    (hnone : s.NoneTaken) (hk : k < s.created) : (s.flows k).targetClosed := by
  obtain ⟨hlight, -, hopens⟩ := TCPRunPc.of_left hleft
  rcases h.held k hk with hholds | ⟨flowID, hlookup⟩ | hclosed | ⟨id, notify, hpc⟩ |
    ⟨j, id, notify, hpc⟩ | ⟨g, rest, honce, -⟩
  · exact absurd hholds (TCPRunPc.not_holds_of_light hlight k)
  · exact absurd (h.consistent.swapped hpast.pastSwap flowID k hlookup).1 (hopens flowID k)
  · exact hclosed
  · exact absurd hpc (not_closeTarget_of_light hlight k id notify)
  · have hlight := hnone j (h.consistent.lt_created (by simp [hpc]))
    rw [hpc] at hlight
    cases hlight
  · rcases hpast with hdone | ⟨g', hrun⟩ <;> simp_all

/-- Once `Run` has left its loop, `Close` is past its targets and no loop is closing one, every
target that was dialed is closed, the table is empty and as many streams were counted as taken
back. -/
theorem no_leaked_target {maxFlows : ℤ} {labels : List TCPSessionStep}
    (hpath : Path step anyLabel (new maxFlows) labels s) (hleft : s.run.left)
    (hpast : s.PastTargets) (hnone : s.NoneTaken) :
    (∀ k < s.created, (s.flows k).targetClosed) ∧ s.tcpFlows = ∅ ∧ s.tcpStreams = 0 := by
  have h := hpath.invariant (fun _ _ _ h _ hstep => step_accounted h hstep) (new_accounted maxFlows)
  obtain ⟨-, hstreams, hopens⟩ := TCPRunPc.of_left hleft
  have htable : s.tcpFlows = ∅ := by
    refine Finmap.ext_lookup fun flowID => ?_
    rw [Finmap.lookup_empty, Option.eq_none_iff_forall_ne_some]
    exact fun k => h.consistent.table_empty hopens hpast.pastSwap
  refine ⟨fun k hk => h.closed hleft hpast hnone hk, htable, ?_⟩
  have hbalanced := h.balanced
  unfold Balanced surplus flowCount at hbalanced
  rw [hstreams, hnone.loopStreams_eq, hpast.onceStreams_eq, htable] at hbalanced
  simpa using hbalanced

/-- `Close` runs while a target is being dialed, so that `Run` enters the flow into the
table that was emptied, fails to answer, and takes the flow out again. -/
def lateInsertRun : List TCPSessionStep :=
  openRun ++
    [.run (some ⟨frameOPENTCP, [0, 0, 0, 0, 0, 0, 0, 2, 1, 104, 0, 0, 80]⟩) true 0,
      .run none true 0, .run none true 0, .callClose 0, .closer 0, .closer 0, .closer 0, .closer 0,
      .closer 0, .closer 0, .run none true 0, .run none true 0, .run none false 0,
      .run none true 0, .run none true 0, .run none true 0]

theorem lateInsertRun_closed : ∃ s, Path step anyLabel (new 2) lateInsertRun s ∧
    s.run = .unregister ∧ s.once = .running (.closer 0) .wait ∧ s.created = 2 ∧
    (∀ k < 2, (s.flows k).targetClosed) ∧ s.tcpFlows = ∅ ∧ s.tcpStreams = 0 := by
  refine Path.exists_of_run_imp (P := fun s => s.run = .unregister ∧
      s.once = .running (.closer 0) .wait ∧ s.created = 2 ∧ ∀ j < s.created, (s.flows j).loop.light)
    (by decide +kernel) fun s hpath ⟨hrun, honce, hcreated, hlight⟩ => ?_
  have h := no_leaked_target hpath (by rw [hrun]; rfl) (.inr ⟨_, honce⟩) hlight
  rw [hcreated] at h
  exact ⟨hrun, honce, hcreated, h⟩

end TCPSession
end VlfProto.Session
