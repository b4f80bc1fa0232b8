import VlfProto.Session.TCP.Teardown

/-! # Steps that bring teardown forward -/

namespace VlfProto.Session
open Platform Transition Option

def CloseFlowPc.rank : CloseFlowPc → ℕ
  | .delete _ _ => 3
  | .closeTarget _ _ _ => 2
  | .notify _ => 1

/-- An upper bound of the steps a loop needs to end. -/
def TCPLoopPc.rank : TCPLoopPc → ℕ
  | .limit _ _ => 7
  | .write _ _ => 6
  | .read => 5
  | .closeFlow pc => pc.rank + 1
  | .exiting => 1
  | _ => 0

/-- An upper bound of the steps `Run` needs to return. -/
def TCPRunPc.rank : TCPRunPc → ℕ
  | .returned => 0
  | .deferredClose => 1
  | .unregister => 2
  | .setDeadline => 2
  | .readFirst => 2
  | .authFail _ => 2
  | .closing => 3
  | .readFrame => 3
  | .writeAuthOK => 3
  | .register => 4
  | .reply _ => 4
  | .spawn _ => 4
  | .closeDuplicate _ _ => 5
  | .dial _ => 5
  | .openCheck _ => 6
  | .closeFlow pc => pc.rank + 3
  | .dataWrite _ _ _ => 7
  | .writeOpenOK _ _ => 7
  | .dataLimit _ _ _ => 8
  | .countStream _ _ => 8
  | .dataLookup _ _ => 9
  | .insert _ _ => 9

namespace TCPSession

variable {s s' : TCPSession} {g : TCPGoroutine} {k : ℕ} {ok failed : Bool} {data : Bytes}
  {stage : TCPCloseStage}

/-- An upper bound of the steps the body of `Close` needs, not counting its wait. -/
def bodyRank (s : TCPSession) : ℕ :=
  match s.once with
  | .running _ .cancel => s.created + 5
  | .running _ .closeConn => s.created + 4
  | .running _ .swapFlows => s.created + 3
  | .running _ (.closeTargets rest) => rest.length + 2
  | .running _ .wait => 1
  | _ => 0

def loopSum (s : TCPSession) : ℕ := ∑ k ∈ Finset.range s.created, (s.flows k).loop.rank

def teardownRank (s : TCPSession) : ℕ := s.bodyRank + 10 * s.run.rank + s.loopSum

/-- A state in which the body has started and no loop is in its way. -/
structure Draining (s : TCPSession) : Prop where
  consistent : s.Consistent
  begun : s.once ≠ .idle
  clear : s.Clear

/-- The step lowers the rank and keeps the body completable. -/
def Advances (s : TCPSession) (label : TCPSessionStep) : Prop :=
  s.Unaided label ∧ ∃ s', s.step label = some s' ∧ s'.Draining ∧ s'.teardownRank < s.teardownRank

theorem Draining.loop (hd : s.Draining) (h : s.loopStep k data failed ok = some s')
    (hok : s.LoopForwards (.loop k data failed ok)) (hunaided : s.Unaided (.loop k data failed ok))
    (hrank : (s'.flows k).loop.rank < (s.flows k).loop.rank) :
    s.Advances (.loop k data failed ok) := by
  have hcalm := loopStep_calm (hd.clear.closing k) h
  have hne : (s.flows k).loop ≠ .notStarted := by
    intro hpc
    simp [hpc, TCPLoopPc.rank] at hrank
  refine ⟨hunaided, s', h, ⟨loopStep_consistent hd.consistent h, ?_, ?_⟩, ?_⟩
  · rw [hcalm.once]
    exact hd.begun
  · exact loopStep_clear hd.clear hok h
  · have hsum : s'.loopSum < s.loopSum := by
      unfold loopSum
      rw [hcalm.created]
      apply Finset.sum_lt_sum
      · intro j _
        by_cases hj : j = k
        · rw [hj]
          exact hrank.le
        · rw [hcalm.loop j (by simpa using hj)]
      · exact ⟨k, Finset.mem_range.mpr (hd.consistent.lt_created hne), hrank⟩
    have hbody : s'.bodyRank = s.bodyRank := by
      simp only [bodyRank, hcalm.once, hcalm.created]
    simp only [teardownRank, hbody, hcalm.run]
    omega

theorem closeFlowStep_ends (s : TCPSession) (pc : CloseFlowPc) :
    ∃ r, s.closeFlowStep false pc = some r ∧ r.2.elim 0 CloseFlowPc.rank < pc.rank := by
  cases pc with
  | delete flowID notify =>
    simp only [closeFlowStep]
    split
    · exact ⟨_, rfl, by simp [CloseFlowPc.rank]⟩
    · exact ⟨_, rfl, by simp [CloseFlowPc.rank]⟩
  | closeTarget k flowID notify => exact ⟨_, rfl, by cases notify <;> simp [CloseFlowPc.rank]⟩
  | notify flowID =>
    refine ⟨({ s with frames := s.frames ++ [(.closeFlow flowID, false)] }, none), ?_, ?_⟩
    · simp [closeFlowStep, writeFrame]
    · simp [CloseFlowPc.rank]

theorem Draining.loopCloseFlow {pc : CloseFlowPc} (hd : s.Draining)
    (hpc : (s.flows k).loop = .closeFlow pc) : s.Advances (.loop k [] false false) := by
  obtain ⟨r, hr, hrank⟩ := s.closeFlowStep_ends pc
  have hstep : s.loopStep k [] false false =
      some (r.1.setLoop k (r.2.elim .exiting .closeFlow)) := by
    simp only [loopStep, hpc, hr, map_some]
  refine hd.loop hstep (by simp [LoopForwards, hpc]) (by simp [Unaided, hpc]) ?_
  rw [setLoop_loop_self, hpc]
  cases hnext : r.2 <;> simp only [hnext, elim_none, elim_some] at hrank ⊢ <;>
    simp only [TCPLoopPc.rank] <;> omega

/-- A loop that holds bytes forwards them while the connection is open. -/
theorem Draining.flush (hd : s.Draining) (hholds : (s.flows k).loop.holds) :
    s.Advances (.loop k [] false true) := by
  have hopen : s.connClosed = false := by
    by_contra hclosed
    simp [hd.clear.holding (by simpa using hclosed) k] at hholds
  cases hpc : (s.flows k).loop <;> simp only [hpc, TCPLoopPc.holds, Bool.false_eq_true] at hholds
  case limit data failed =>
    have hstep : s.loopStep k [] false true =
        some ({ s with limiterEntry := true }.setLoop k (.write data failed)) := by
      simp [loopStep, hpc]
    refine hd.loop hstep (by simp [LoopForwards, hpc]) (by simp [Unaided, hpc]) ?_
    rw [setLoop_loop_self, hpc]
    simp [TCPLoopPc.rank]
  case write data failed =>
    obtain ⟨s₁, hwrite⟩ : ∃ s₁, s.writeFrame (.tcpData (s.flows k).id data) true = some s₁ := by
      simp [writeFrame, hopen]
    have hstep : s.loopStep k [] false true =
        some (s₁.setLoop k (afterRead (s₁.flows k).id failed)) := by
      simp [loopStep, hpc, hwrite]
    refine hd.loop hstep (by simp [LoopForwards, hpc]) (by simp [Unaided, hpc]) ?_
    rw [setLoop_loop_self, hpc]
    cases failed <;> simp [afterRead, TCPLoopPc.rank, CloseFlowPc.rank]

theorem bodyStep_rank {next : Option TCPCloseStage} (hrun : s.once = .running g stage)
    (h : s.bodyStep stage = some (s', next)) :
    bodyRank { s' with once := next.elim .done (.running g) } < s.bodyRank := by
  have hlength : s.tableFlows.length ≤ s.created :=
    (List.length_filter_le _ _).trans_eq List.length_range
  cases bodyStep_cases h with
  | swapFlows =>
    simp only [bodyRank, hrun, elim_some]
    omega
  | _ => simp [bodyRank, hrun]

theorem bodyStep_enabled (s : TCPSession) (stage : TCPCloseStage)
    (hwait : stage = .wait → s.wg = 0) :
    ∃ s' next, s.bodyStep stage = some (s', next) := by
  rcases stage with _ | _ | _ | ⟨_ | ⟨k, rest⟩⟩ | _
  case wait => exact ⟨s, none, if_pos (hwait rfl)⟩
  all_goals exact ⟨_, _, rfl⟩

theorem closeStep_body (hrun : s.once = .running g stage) (hwait : stage = .wait → s.wg = 0) :
    ∃ r, s.closeStep g = some r ∧ r.1.once ≠ .idle ∧ r.1.run = s.run ∧
      r.1.bodyRank + r.1.loopSum < s.bodyRank + s.loopSum := by
  obtain ⟨s₁, next, hbody⟩ := s.bodyStep_enabled stage hwait
  have hm := bodyStep_moves hbody
  have hrank := bodyStep_rank hrun hbody
  refine ⟨({ s₁ with once := next.elim .done (.running g) }, next.isNone), ?_, ?_, hm.run, ?_⟩
  · simp [closeStep, hrun, Once.act, hbody]
  · cases next <;> simp
  · have hsum : loopSum { s₁ with once := next.elim .done (.running g) } = s.loopSum := by
      simp only [loopSum, hm.created, hm.loop]
    simp only [hsum]
    omega

theorem Draining.body (hd : s.Draining) (hrun : s.once = .running g stage)
    (hwait : stage = .wait → s.wg = 0) (hidle : ∀ k, (s.flows k).loop.holds = false) :
    ∃ label, s.Advances label := by
  have hg := hd.consistent.inClose g stage hrun
  obtain ⟨r, hclose, hbegun, hpc, hrank⟩ := closeStep_body hrun hwait
  have hr := closeStep_consistent hd.consistent hg hclose
  have hclear := closeStep_clear hd.clear (fun _ => hidle) hclose
  cases g with
  | loop k => exact absurd hg (hd.clear.closing k)
  | closer i =>
    have hi : s.closers i = .closing := hg
    have hstep : s.closerStep i = some (if r.2 then r.1.setCloser i .returned else r.1) := by
      simp [closerStep, hi, hclose]
    refine ⟨.closer i, trivial, _, hstep, ⟨closerStep_consistent hd.consistent hstep, ?_, ?_⟩, ?_⟩
    · split_ifs <;> exact hbegun
    · split_ifs
      · exact ⟨hclear.closing, hclear.holding⟩
      · exact hclear
    · split_ifs
      all_goals
        change r.1.bodyRank + 10 * r.1.run.rank + r.1.loopSum < _
        rw [hpc, teardownRank]
        omega
  | run =>
    have hrunStep : ∃ pc : TCPRunPc, pc.rank < s.run.rank ∧
        s.runStep none true 0 = some (if r.2 then { r.1 with run := pc } else r.1) := by
      rcases hg with hg | hg
      · exact ⟨.unregister, by simp [hg, TCPRunPc.rank], by simp [runStep, hg, hclose]⟩
      · exact ⟨.returned, by simp [hg, TCPRunPc.rank], by simp [runStep, hg, hclose]⟩
    obtain ⟨pc, hpcrank, hstep⟩ := hrunStep
    have hunaided : s.Unaided (.run none true 0) := by
      rcases hg with hg | hg <;> simp [Unaided, hg]
    refine ⟨.run none true 0, hunaided, _, hstep,
      ⟨runStep_consistent hd.consistent hstep, ?_, ?_⟩, ?_⟩
    · split_ifs <;> exact hbegun
    · split_ifs
      · exact ⟨hclear.closing, hclear.holding⟩
      · exact hclear
    · split_ifs
      · change r.1.bodyRank + 10 * pc.rank + r.1.loopSum < _
        rw [teardownRank]
        omega
      · change r.1.bodyRank + 10 * r.1.run.rank + r.1.loopSum < _
        rw [hpc, teardownRank]
        omega

end TCPSession
end VlfProto.Session
