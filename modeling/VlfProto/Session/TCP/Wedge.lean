import VlfProto.Session.TCP.Draining

/-! # The body of `Close` can be completed -/

namespace VlfProto.Session.TCPSession
open Platform Transition Option

variable {s s' : TCPSession} {g : TCPGoroutine} {k n : ℕ} {ok : Bool} {data : Bytes}
  {frame : Option Frame}

theorem Draining.run (hd : s.Draining) (hg : ¬s.InClose .run)
    (h : s.runStep frame ok n = some s') (hunaided : s.Unaided (.run frame ok n))
    (hrank : s'.run.rank < s.run.rank) (hcreated : s'.created = s.created)
    (hsum : s'.loopSum < s.loopSum + 10) : s.Advances (.run frame ok n) := by
  obtain ⟨hne, hne'⟩ := not_or.mp hg
  obtain ⟨honce, -, -⟩ := runStep_calm hd.consistent hne hne' h
  refine ⟨hunaided, s', h, ⟨runStep_consistent hd.consistent h, ?_, ?_⟩, ?_⟩
  · rw [honce]
    exact hd.begun
  · exact runStep_clear hd.consistent hd.clear hg h
  · have hbody : s'.bodyRank = s.bodyRank := by simp only [bodyRank, honce, hcreated]
    simp only [teardownRank, hbody]
    omega

theorem openCheck_rank (s : TCPSession) (p : OpenPayload) : (s.openCheck p).rank < 6 := by
  unfold openCheck
  split_ifs
  · simp [TCPRunPc.rank]
  · simp [TCPRunPc.rank]
  · split <;> simp [TCPRunPc.rank]

/-- `Run` outside `Close` has a step that brings it closer to its return. -/
theorem runStep_ends (s : TCPSession) (hret : s.run ≠ .returned) (hg : ¬s.InClose .run)
    (hspawn : ∀ k, s.run ≠ .spawn k) :
    ∃ ok s', s.runStep none ok 0 = some s' ∧ s'.run.rank < s.run.rank ∧
      s'.created = s.created ∧ ∀ k, (s'.flows k).loop = (s.flows k).loop := by
  cases hpc : s.run with
  | returned => exact absurd hpc hret
  | closing => exact absurd (.inl hpc) hg
  | deferredClose => exact absurd (.inr hpc) hg
  | spawn k => exact absurd hpc (hspawn k)
  | closeFlow pc =>
    obtain ⟨r, hr, hrank⟩ := s.closeFlowStep_ends pc
    have hcalm := closeFlowStep_calm hr
    refine ⟨false, _, by simp only [runStep, hpc, hr]; rfl, ?_, ?_, ?_⟩
    · cases hnext : r.2 <;> simp only [hnext, elim_none, elim_some] at hrank ⊢ <;>
        simp only [TCPRunPc.rank] <;> omega
    · exact hcalm.created
    · exact fun k => hcalm.loop k (by simp)
  | openCheck p =>
    refine ⟨false, _, by simp only [runStep, hpc]; rfl, ?_, ?_, ?_⟩
    · exact s.openCheck_rank p
    · rfl
    · exact fun _ => rfl
  | insert flowID k =>
    by_cases hsome : (s.tcpFlows.lookup flowID).isSome
    · refine ⟨false, { s with run := .closeDuplicate flowID k }, ?_, ?_, rfl, fun _ => rfl⟩
      · simp [runStep, hpc, hsome]
      · simp [TCPRunPc.rank]
    · refine ⟨false, { s with
        tcpFlows := s.tcpFlows.insert flowID k
        run := .countStream flowID k }, ?_, ?_, rfl, fun _ => rfl⟩
      · simp [runStep, hpc, hsome]
      · simp [TCPRunPc.rank]
  | closeDuplicate flowID k =>
    refine ⟨false, _, by simp only [runStep, hpc]; rfl, ?_, ?_, ?_⟩
    · simp [TCPRunPc.rank]
    · rfl
    · exact closeTarget_loop s k
  | dataLookup flowID data =>
    cases hlookup : s.tcpFlows.lookup flowID with
    | none =>
      refine ⟨false, _, by simp only [runStep, hpc, hlookup]; rfl, ?_, ?_, ?_⟩
      · simp [TCPRunPc.rank, CloseFlowPc.rank]
      · rfl
      · exact fun _ => rfl
    | some k =>
      refine ⟨false, _, by simp only [runStep, hpc, hlookup]; rfl, ?_, ?_, ?_⟩
      · by_cases hempty : data = [] <;> simp [hempty, TCPRunPc.rank]
      · rfl
      · exact fun _ => rfl
  | dataLimit flowID k data =>
    refine ⟨true, _, by simp only [runStep, hpc]; rfl, ?_, ?_, ?_⟩
    · simp [TCPRunPc.rank]
    · rfl
    · exact fun _ => rfl
  | dataWrite flowID k data =>
    refine ⟨false, _, by simp only [runStep, hpc]; rfl, ?_, ?_, ?_⟩
    · simp [TCPRunPc.rank, CloseFlowPc.rank]
    · rfl
    · intro j
      by_cases hj : j = k <;> simp [setFlow, hj]
  | _ =>
    refine ⟨false, _, by simp only [runStep, hpc]; rfl, ?_, ?_, ?_⟩
    · simp [TCPRunPc.rank, CloseFlowPc.rank]
    · rfl
    · exact fun _ => rfl

theorem Draining.runEnds (hd : s.Draining) (hret : s.run ≠ .returned) (hg : ¬s.InClose .run)
    (hspawn : ∀ k, s.run ≠ .spawn k) (hunaided : ∀ ok, s.Unaided (.run none ok 0)) :
    ∃ label, s.Advances label := by
  obtain ⟨ok, s', hstep, hrank, hcreated, hloop⟩ := s.runStep_ends hret hg hspawn
  refine ⟨_, hd.run hg hstep (hunaided ok) hrank hcreated ?_⟩
  have hsum : s'.loopSum = s.loopSum := by simp only [loopSum, hcreated, hloop]
  omega

theorem Draining.spawn (hd : s.Draining) (hpc : s.run = .spawn k) : ∃ label, s.Advances label := by
  have hg : ¬s.InClose .run := by simp [InClose, hpc]
  obtain ⟨hlt, hloop⟩ := hd.consistent.fresh k (by rw [hpc]; rfl)
  have hstep : s.runStep none false 0 =
      some { s.setLoop k .read with wg := s.wg + 1, run := .readFrame } := by
    simp [runStep, hpc]
  refine ⟨_, hd.run hg hstep (by simp [Unaided, hpc]) (by simp [hpc, TCPRunPc.rank]) rfl ?_⟩
  have hsum := s.sum_setLoop TCPLoopPc.rank .read hlt
  rw [hloop] at hsum
  change ∑ j ∈ Finset.range s.created, ((s.setLoop k .read).flows j).loop.rank < _
  simp only [TCPLoopPc.rank, loopSum] at hsum ⊢
  omega

theorem Draining.runReturned (hd : s.Draining) (hdone : s.once = .done) (hg : s.InClose .run) :
    ∃ label, s.Advances label := by
  have hclose : s.closeStep .run = some (s, true) := by
    simp only [closeStep, hdone, Once.act, map_some]
    rw [← hdone]
  have hrunStep : ∃ pc : TCPRunPc, pc.rank < s.run.rank ∧
      s.runStep none true 0 = some { s with run := pc } := by
    rcases hg with hg | hg
    · exact ⟨.unregister, by simp [hg, TCPRunPc.rank], by simp [runStep, hg, hclose]⟩
    · exact ⟨.returned, by simp [hg, TCPRunPc.rank], by simp [runStep, hg, hclose]⟩
  obtain ⟨pc, hpcrank, hstep⟩ := hrunStep
  have hunaided : s.Unaided (.run none true 0) := by
    rcases hg with hg | hg <;> simp [Unaided, hg]
  refine ⟨.run none true 0, hunaided, _, hstep,
    ⟨runStep_consistent hd.consistent hstep, hd.begun, ⟨hd.clear.closing, hd.clear.holding⟩⟩, ?_⟩
  change s.bodyRank + 10 * pc.rank + s.loopSum < _
  rw [teardownRank]
  omega

/-- With the body done, a target that `Run` writes to is closed, or a loop is about to
close it. -/
theorem Draining.dataWrite {flowID : ℕ} (hd : s.Draining) (hdone : s.once = .done)
    (hpc : s.run = .dataWrite flowID k data) (hopen : (s.flows k).targetClosed = false) :
    ∃ label, s.Advances label := by
  have hused : s.Used k := .inr (by rw [hpc]; rfl)
  rcases hd.consistent.used k hused with ⟨id, hlookup⟩ | hclosed | ⟨id, notify, h⟩ |
    ⟨j, id, notify, h⟩ | ⟨g, rest, h, -⟩
  · have hopens := (hd.consistent.swapped (.inl hdone) id k hlookup).1
    rw [hpc] at hopens
    exact hopens.elim
  · simp [hopen] at hclosed
  · simp [hpc] at h
  · exact ⟨_, hd.loopCloseFlow h⟩
  · simp [hdone] at h

theorem Draining.runReturns (hd : s.Draining) (hdone : s.once = .done)
    (hret : s.run ≠ .returned) : ∃ label, s.Advances label := by
  have hconn := hd.consistent.connClosed (.inl hdone)
  by_cases hg : s.InClose .run
  · exact hd.runReturned hdone hg
  · cases hpc : s.run with
    | spawn k => exact hd.spawn hpc
    | dataWrite flowID k data =>
      cases htarget : (s.flows k).targetClosed with
      | false => exact hd.dataWrite hdone hpc htarget
      | true => exact hd.runEnds hret hg (by simp [hpc]) (by simp [Unaided, hpc, htarget])
    | _ => exact hd.runEnds hret hg (by simp [hpc]) (by simp [Unaided, hpc, hconn])

theorem Draining.waiting (hd : s.Draining) (hrun : s.once = .running g .wait) (hwg : s.wg ≠ 0) :
    ∃ label, s.Advances label := by
  have hs := hd.consistent
  have hconn := hs.connClosed (.inr ⟨g, .wait, hrun, rfl⟩)
  have hpast : s.PastSwap := .inr ⟨g, .wait, hrun, rfl⟩
  obtain ⟨k, -, hk⟩ := Finset.exists_ne_zero_of_sum_ne_zero (hs.wg_eq ▸ hwg)
  cases hpc : (s.flows k).loop with
  | notStarted | stopped => simp [hpc, TCPLoopPc.live] at hk
  | limit data failed | write data failed =>
    have hheld := hd.clear.holding hconn k
    simp [hpc, TCPLoopPc.holds] at hheld
  | closing => exact absurd hpc (hd.clear.closing k)
  | closeFlow pc => exact ⟨_, hd.loopCloseFlow hpc⟩
  | exiting =>
    have hstep : s.loopStep k [] false false =
        some ({ s with wg := s.wg - 1 }.setLoop k .stopped) := by
      simp [loopStep, hpc]
    refine ⟨_, hd.loop hstep (by simp [LoopForwards, hpc]) (by simp [Unaided, hpc]) ?_⟩
    rw [setLoop_loop_self, hpc]
    simp [TCPLoopPc.rank]
  | read =>
    have hused : s.Used k := .inl (by simp [hpc])
    rcases hs.used k hused with ⟨id, hlookup⟩ | hclosed | ⟨id, notify, h⟩ | ⟨j, id, notify, h⟩ |
      ⟨g', rest, h, -⟩
    · have hfresh := (hs.swapped hpast id k hlookup).2
      simp [hpc] at hfresh
    · have hstep : s.loopStep k [] true false =
          some (s.setLoop k (afterRead (s.flows k).id true)) := by
        simp [loopStep, hpc]
      refine ⟨_, hd.loop hstep (by simp [LoopForwards, hpc]) (fun _ => hclosed) ?_⟩
      rw [setLoop_loop_self, hpc]
      simp [afterRead, TCPLoopPc.rank, CloseFlowPc.rank]
    · exact hd.runEnds (by simp [h]) (by simp [InClose, h]) (by simp [h]) (by simp [Unaided, h])
    · exact ⟨_, hd.loopCloseFlow h⟩
    · simp [hrun] at h

theorem Draining.advances (hd : s.Draining) :
    (s.once = .done ∧ s.run = .returned) ∨ ∃ label, s.Advances label := by
  cases hcell : s.once with
  | idle => exact absurd hcell hd.begun
  | done =>
    by_cases hret : s.run = .returned
    · exact .inl ⟨rfl, hret⟩
    · exact .inr (hd.runReturns hcell hret)
  | running g stage =>
    right
    by_cases hidle : ∃ k, (s.flows k).loop.holds
    · obtain ⟨k, hk⟩ := hidle
      exact ⟨_, hd.flush hk⟩
    · by_cases hwait : stage = .wait → s.wg = 0
      · exact hd.body hcell hwait (by simpa using hidle)
      · obtain ⟨rfl, hwg⟩ := Classical.not_imp.mp hwait
        exact hd.waiting hcell hwg

theorem Draining.completable (hd : s.Draining) : Completable Unaided s := by
  apply Path.exists_finish teardownRank _ hd
  intro s hd
  rcases hd.advances with hdone | ⟨label, hunaided, s', hstep, hd', hrank⟩
  · exact .inl hdone
  · exact .inr ⟨label, s', hunaided, hstep, hd', hrank⟩

/-! ### Teardown of a TCP session -/

theorem closeStep_wedged {r : TCPSession × Bool} (hs : s.Consistent)
    (hk : (s.flows k).loop = .closing) (hcell : s.once ≠ .done) (h : s.closeStep g = some r) :
    r.2 = false ∧ r.1.once ≠ .done := by
  have hpos : 0 < s.wg := hs.wg_pos (by rw [hk]; rfl)
  rcases closeStep_cases h with ⟨-, rfl⟩ | ⟨stage, s', next, -, hbody, rfl⟩ | ⟨hdone, rfl⟩
  · exact ⟨rfl, by simp⟩
  · cases next with
    | none =>
      cases bodyStep_cases hbody
      omega
    | some next => exact ⟨rfl, by simp⟩
  · exact absurd hdone hcell

theorem step_wedged {label : TCPSessionStep} (hs : s.Consistent)
    (hk : (s.flows k).loop = .closing) (hcell : s.once ≠ .done) (h : s.step label = some s') :
    (s'.flows k).loop = .closing ∧ s'.once ≠ .done := by
  cases label with
  | run frame ok n =>
    by_cases hg : s.InClose .run
    · obtain ⟨r, hclose, hflows, -, honce⟩ := runStep_close hg h
      rw [hflows, honce, (closeStep_moves hclose).loop]
      exact ⟨hk, (closeStep_wedged hs hk hcell hclose).2⟩
    · obtain ⟨hne, hne'⟩ := not_or.mp hg
      obtain ⟨honce, -, hloop⟩ := runStep_calm hs hne hne' h
      rw [honce]
      rcases hloop k with hsame | ⟨hfresh, -⟩
      · exact ⟨hsame.trans hk, hcell⟩
      · simp [hk] at hfresh
  | loop j data failed ok =>
    by_cases hj : (s.flows j).loop = .closing
    · simp only [step, loopStep, hj, Option.map_eq_some_iff] at h
      obtain ⟨r, hclose, rfl⟩ := h
      obtain ⟨hstays, honce⟩ := closeStep_wedged hs hk hcell hclose
      rw [if_neg (by simp [hstays]), (closeStep_moves hclose).loop]
      exact ⟨hk, honce⟩
    · have hcalm := loopStep_calm hj h
      have hne : k ∉ ({j} : Set ℕ) := by
        rintro rfl
        exact hj hk
      rw [hcalm.once, hcalm.loop k hne]
      exact ⟨hk, hcell⟩
  | callClose i =>
    obtain ⟨-, rfl⟩ := of_guard h
    exact ⟨hk, hcell⟩
  | closer i =>
    simp only [step, closerStep] at h
    split at h
    · obtain ⟨r, hclose, rfl⟩ := Option.map_eq_some_iff.mp h
      obtain ⟨hstays, honce⟩ := closeStep_wedged hs hk hcell hclose
      rw [if_neg (by simp [hstays]), (closeStep_moves hclose).loop]
      exact ⟨hk, honce⟩
    · cases h

theorem not_completable (hs : s.Consistent) (hk : (s.flows k).loop = .closing)
    (hcell : s.once ≠ .done) : ¬Completable anyLabel s := by
  rintro ⟨labels, s', hpath, hdone, -⟩
  have hkeep : ∀ (s : TCPSession) label s',
      (s.Consistent ∧ (s.flows k).loop = .closing ∧ s.once ≠ .done) → anyLabel s label →
      s.step label = some s' → s'.Consistent ∧ (s'.flows k).loop = .closing ∧ s'.once ≠ .done :=
    fun s label s' h _ hstep => ⟨step_consistent h.1 hstep, step_wedged h.1 h.2.1 h.2.2 hstep⟩
  exact (hpath.invariant hkeep ⟨hs, hk, hcell⟩).2.2 hdone

theorem path_consistent {ok : TCPSession → TCPSessionStep → Prop} {labels : List TCPSessionStep}
    (h : Path step ok s labels s') (hs : s.Consistent) : s'.Consistent :=
  h.invariant (fun _ _ _ hs _ hstep => step_consistent hs hstep) hs

/-- When every loop forwards what it reads, and the connection is closed only while
no loop holds bytes of its target, teardown works in every state. -/
theorem tearsDown_of_forwardsAll (maxFlows : ℤ) (labels : List TCPSessionStep) (s : TCPSession)
    (hpath : Path step ForwardsAll (new maxFlows) labels s) : s.TearsDown := by
  intro hbegun
  have hkeep : ∀ (s : TCPSession) label s', (s.Consistent ∧ s.Clear) → s.ForwardsAll label →
      s.step label = some s' → s'.Consistent ∧ s'.Clear :=
    fun _ _ _ h hok hstep => ⟨step_consistent h.1 hstep, step_clear h.1 h.2 hok hstep⟩
  obtain ⟨hs, hclear⟩ :=
    hpath.invariant hkeep ⟨new_consistent maxFlows, new_clear maxFlows⟩
  refine ⟨?_, Draining.completable ⟨hs, hbegun, hclear⟩⟩
  rw [waitsForItself_iff]
  rintro ⟨k, hk⟩
  exact hclear.closing k hk

/-- A client authenticates and opens flow 1, whose loop is started. -/
def openRun : List TCPSessionStep :=
  [.run none true 0, .run (some ⟨frameAUTH, List.replicate 19 0⟩) true 0, .run none true 0,
    .run none true 0,
    .run (some ⟨frameOPENTCP, [0, 0, 0, 0, 0, 0, 0, 1, 1, 104, 0, 0, 80]⟩) true 0,
    .run none true 0, .run none true 0, .run none true 0, .run none true 0, .run none true 0,
    .run none true 0]

/-- The loop forwards one byte, and then the session is closed from outside. -/
def closedRun : List TCPSessionStep :=
  openRun ++ [.loop 0 [7] false true, .loop 0 [] false true, .loop 0 [] false true, .callClose 0,
    .closer 0]

/-- The loop reads one byte and cannot write it to the client. -/
def writeFailsRun : List TCPSessionStep :=
  openRun ++ [.loop 0 [7] false true, .loop 0 [] false true, .loop 0 [] false false,
    .loop 0 [] false false]

theorem closedRun_tearsDown :
    ∃ s, Path step ForwardsAll (new 1) closedRun s ∧ s.once ≠ .idle ∧ s.TearsDown := by
  refine Path.exists_of_run_imp (P := fun s => s.once ≠ .idle)
    (by decide +kernel) fun s hpath honce => ?_
  exact ⟨honce, tearsDown_of_forwardsAll 1 closedRun s hpath⟩

theorem writeFailsRun_wedges :
    ∃ s, Path step anyLabel (new 1) writeFailsRun s ∧ s.once ≠ .idle ∧ s.WaitsForItself ∧
      ¬Completable anyLabel s := by
  refine Path.exists_of_run_imp (P := fun s => s.once = .running (.loop 0) .cancel ∧
      (s.flows 0).loop = .closing) (by decide +kernel) fun s hpath ⟨honce, hloop⟩ => ?_
  refine ⟨by simp [honce], waitsForItself_iff.mpr ⟨0, hloop⟩, ?_⟩
  exact not_completable (path_consistent hpath (new_consistent 1)) hloop (by simp [honce])

end VlfProto.Session.TCPSession
