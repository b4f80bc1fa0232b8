import VlfProto.Platform.Counting
import VlfProto.Session.TCP.Closing
import VlfProto.Session.TCP.RunCases

/-! # `Run` and the flow objects -/

namespace VlfProto.Session
open Platform Transition Table

theorem TCPRunPc.handsOff_of_entry {pc : TCPRunPc} (h : pc.entry) : pc.handsOff := by
  cases pc <;> first | rfl | cases h

namespace TCPSession

variable {s s' : TCPSession} {k flowID : ℕ} {ok : Bool} {frame : Option Frame} {pc : TCPRunPc}
  {frames : List (ServerFrame × Bool)} {registered limiterEntry : Bool} {tcpStreams : ℤ}

theorem Consistent.run_cell (hs : s.Consistent) (hclosing : s.run ≠ .closing)
    (hdeferred : s.run ≠ .deferredClose) (stage : TCPCloseStage) :
    s.once ≠ .running .run stage := by
  intro hrun
  rcases hs.inClose _ _ hrun with h | h
  · exact hclosing h
  · exact hdeferred h

theorem Consistent.setRun (hs : s.Consistent) (hcell : ∀ stage, s.once ≠ .running .run stage)
    (hclosing : ∀ k flowID notify, s.run = .closeFlow (.closeTarget k flowID notify) →
      (s.flows k).targetClosed)
    (hfresh : ∀ k, pc.Fresh k → s.run.Fresh k) (hnamed : ∀ flowID k, pc ≠ .insert flowID k)
    (huses : ∀ k, pc.Uses k → s.InTable k ∨ s.Shut k)
    (hopens : s.PastSwap → ∀ flowID k, s.tcpFlows.lookup flowID = some k → pc.Opens flowID k) :
    { s with
      run := pc
      frames := frames
      registered := registered
      limiterEntry := limiterEntry
      tcpStreams := tcpStreams }.Consistent where
  wg_eq := hs.wg_eq
  uncreated := hs.uncreated
  table := hs.table
  inClose g stage hrun := by
    have hg := hs.inClose g stage hrun
    cases g with
    | run => exact absurd hrun (hcell stage)
    | loop k | closer i => exact hg
  connClosed := hs.connClosed
  fresh k h := hs.fresh k (hfresh k h)
  named flowID k h := absurd h (hnamed flowID k)
  used k h := by
    have hk : s.InTable k ∨ s.Shut k := by
      rcases h with hloop | hrun
      · exact hs.used k (.inl hloop)
      · exact huses k hrun
    rcases hk with htable | hclosed | ⟨flowID, notify, hpc⟩ | hpc | hbody
    · exact .inl htable
    · exact .inr (.inl hclosed)
    · exact .inr (.inl (hclosing k flowID notify hpc))
    · exact .inr (.inr (.inr (.inl hpc)))
    · exact .inr (.inr (.inr (.inr hbody)))
  swapped hpast flowID k hlookup :=
    ⟨hopens hpast flowID k hlookup, (hs.swapped hpast flowID k hlookup).2⟩

theorem Consistent.table_empty (hs : s.Consistent) (hopens : ∀ flowID k, ¬s.run.Opens flowID k)
    (hpast : s.PastSwap) : s.tcpFlows.lookup flowID ≠ some k :=
  fun hlookup => hopens flowID k (hs.swapped hpast flowID k hlookup).1

/-- `Run` goes on from a program counter outside `Close` at which it neither opens a
flow nor is about to close a target. -/
theorem Consistent.moveRun (hs : s.Consistent) (hopens : ∀ flowID k, ¬s.run.Opens flowID k)
    (hclosing : ∀ k flowID notify, s.run ≠ .closeFlow (.closeTarget k flowID notify))
    (hcell : s.run ≠ .closing) (hcell' : s.run ≠ .deferredClose) (hfresh : ∀ k, ¬pc.Fresh k)
    (huses : ∀ k, pc.Uses k → s.InTable k ∨ s.Shut k) :
    { s with
      run := pc
      frames := frames
      registered := registered
      limiterEntry := limiterEntry
      tcpStreams := tcpStreams }.Consistent := by
  apply hs.setRun (hs.run_cell hcell hcell')
  · exact fun k flowID notify h => absurd h (hclosing k flowID notify)
  · exact fun k h => absurd h (hfresh k)
  · rintro flowID k rfl
    exact hfresh k rfl
  · exact huses
  · exact fun hpast flowID k h => absurd h (hs.table_empty hopens hpast)

/-- `Run` goes on between two program counters at which it has no object in hand. -/
theorem Consistent.plainRun (hs : s.Consistent) (hold : s.run.plain) (hnew : pc.handsOff) :
    { s with
      run := pc
      frames := frames
      registered := registered
      limiterEntry := limiterEntry
      tcpStreams := tcpStreams }.Consistent := by
  obtain ⟨hopens, hclosing, hcell, hcell'⟩ := TCPRunPc.of_plain hold
  obtain ⟨hfresh, huses⟩ := TCPRunPc.of_handsOff hnew
  exact hs.moveRun hopens hclosing hcell hcell' hfresh fun k h => absurd h (huses k)

/-- An open is refused, or goes on to dial with an id and below the limit. -/
theorem openCheck_cases (s : TCPSession) (p : OpenPayload) :
    (∃ reason, s.openCheck p = .reply (.openTCPFail p.flowID reason)) ∨
      s.openCheck p = .dial p.flowID ∧ p.flowID ≠ 0 ∧ s.flowCount < s.maxFlows := by
  unfold openCheck
  split_ifs with hzero hmax
  · exact .inl ⟨_, rfl⟩
  · exact .inl ⟨_, rfl⟩
  · split
    · exact .inl ⟨_, rfl⟩
    · exact .inr ⟨rfl, hzero, not_le.mp hmax⟩

theorem openCheck_handsOff (s : TCPSession) (p : OpenPayload) : (s.openCheck p).handsOff := by
  rcases s.openCheck_cases p with ⟨reason, h⟩ | ⟨h, -⟩ <;> rw [h] <;> rfl

theorem sum_setLoop (s : TCPSession) (f : TCPLoopPc → ℕ) (pc : TCPLoopPc) {m : ℕ} (hk : k < m) :
    (∑ j ∈ Finset.range m, f ((s.setLoop k pc).flows j).loop) + f (s.flows k).loop =
      (∑ j ∈ Finset.range m, f (s.flows j).loop) + f pc := by
  have h := sum_range_exchange (f := fun j => f ((s.setLoop k pc).flows j).loop)
    (g := fun j => f (s.flows j).loop) hk fun j hj => by
      simp only [setLoop, setFlow, Function.update_of_ne hj]
  simpa only [setLoop, setFlow, Function.update_self] using h

@[simp] theorem setLoop_loop_self (s : TCPSession) (k : ℕ) (pc : TCPLoopPc) :
    ((s.setLoop k pc).flows k).loop = pc := by
  simp [setLoop, setFlow]

theorem setLoop_loop_of_ne (s : TCPSession) {k j : ℕ} (pc : TCPLoopPc) (h : j ≠ k) :
    ((s.setLoop k pc).flows j).loop = (s.flows j).loop := by
  simp [setLoop, setFlow, h]

@[simp] theorem setLoop_id (s : TCPSession) (k j : ℕ) (pc : TCPLoopPc) :
    ((s.setLoop k pc).flows j).id = (s.flows j).id := by
  by_cases h : j = k <;> simp [setLoop, setFlow, h]

@[simp] theorem setLoop_targetClosed (s : TCPSession) (k j : ℕ) (pc : TCPLoopPc) :
    ((s.setLoop k pc).flows j).targetClosed = (s.flows j).targetClosed := by
  by_cases h : j = k <;> simp [setLoop, setFlow, h]

theorem createFlow_flows (s : TCPSession) (h : k ≠ s.created) :
    (s.createFlow flowID).flows k = s.flows k := by
  simp [createFlow, setFlow, h]

theorem createFlow_loop (hs : s.Consistent) (k : ℕ) :
    ((s.createFlow flowID).flows k).loop = (s.flows k).loop := by
  by_cases h : k = s.created
  · subst h
    rw [hs.uncreated _ le_rfl]
    simp [createFlow, setFlow]
  · rw [createFlow_flows s h]

theorem createFlow_consistent (hs : s.Consistent) (hold : s.run.plain) :
    { s.createFlow flowID with run := .insert flowID s.created }.Consistent := by
  obtain ⟨hopens, hclosing, hcell, hcell'⟩ := TCPRunPc.of_plain hold
  have hloop : ∀ k, ((s.createFlow flowID).flows k).loop = (s.flows k).loop := createFlow_loop hs
  constructor
  · simp only [hloop]
    change s.wg = ∑ k ∈ Finset.range (s.created + 1), _
    rw [Finset.sum_range_succ, ← hs.wg_eq, hs.uncreated _ le_rfl]
    rfl
  · intro k hk
    change s.created + 1 ≤ k at hk
    rw [hloop]
    exact hs.uncreated k (by omega)
  · intro id k hlookup
    obtain ⟨hid, hlt⟩ := hs.table id k hlookup
    rw [createFlow_flows s hlt.ne]
    exact ⟨hid, Nat.lt_succ_of_lt hlt⟩
  · intro g stage hrun
    have hg := hs.inClose g stage hrun
    cases g with
    | run => exact absurd hrun (hs.run_cell hcell hcell' stage)
    | loop k => exact (hloop k).trans hg
    | closer i => exact hg
  · exact hs.connClosed
  · rintro k rfl
    exact ⟨Nat.lt_succ_self _, (hloop _).trans (hs.uncreated _ le_rfl)⟩
  · rintro id k ⟨⟩
    refine ⟨by simp [createFlow, setFlow], fun ⟨id, hlookup⟩ => ?_⟩
    exact (hs.table id s.created hlookup).2.false
  · intro k hused
    have hne : (s.flows k).loop ≠ .notStarted := by
      rcases hused with hpc | hpc
      · exact hloop k ▸ hpc
      · exact hpc.elim
    have hlt := hs.lt_created hne
    rcases hs.used k (.inl hne) with
      htable | hclosed | ⟨id, notify, hpc⟩ | ⟨j, id, notify, hpc⟩ | hbody
    · exact .inl htable
    · exact .inr (.inl ((createFlow_flows s hlt.ne).symm ▸ hclosed))
    · exact absurd hpc (hclosing k id notify)
    · exact .inr (.inr (.inr (.inl ⟨j, id, notify, (hloop j).trans hpc⟩)))
    · exact .inr (.inr (.inr (.inr hbody)))
  · intro hpast id k hlookup
    exact absurd hlookup (hs.table_empty hopens hpast)

theorem insert_consistent (hs : s.Consistent) (hpc : s.run = .insert flowID k)
    (hnone : s.tcpFlows.lookup flowID = none) :
    { s with tcpFlows := s.tcpFlows.insert flowID k, run := .countStream flowID k }.Consistent := by
  obtain ⟨hlt, hloop⟩ := hs.fresh k (by rw [hpc]; rfl)
  have hid := (hs.named flowID k hpc).1
  constructor
  · exact hs.wg_eq
  · exact hs.uncreated
  · intro id j hlookup
    change Finmap.lookup id (s.tcpFlows.insert flowID k) = some j at hlookup
    rw [lookup_insert_eq] at hlookup
    split_ifs at hlookup with hsame
    · cases hlookup
      exact ⟨hid.trans hsame.symm, hlt⟩
    · exact hs.table id j hlookup
  · intro g stage hrun
    have hg := hs.inClose g stage hrun
    cases g with
    | run => exact absurd hrun (hs.run_cell (by simp [hpc]) (by simp [hpc]) stage)
    | loop j | closer i => exact hg
  · exact hs.connClosed
  · rintro j rfl
    exact ⟨hlt, hloop⟩
  · rintro id j ⟨⟩
  · rintro j (hused | rfl)
    · rcases hs.used j (.inl hused) with ⟨id, hlookup⟩ | hclosed | ⟨id, notify, h⟩ | h | h
      · have hne : id ≠ flowID := by
          rintro rfl
          simp [hnone] at hlookup
        refine .inl ⟨id, ?_⟩
        change Finmap.lookup id (s.tcpFlows.insert flowID k) = some j
        rw [lookup_insert_eq, if_neg hne, hlookup]
      · exact .inr (.inl hclosed)
      · simp [hpc] at h
      · exact .inr (.inr (.inr (.inl h)))
      · exact .inr (.inr (.inr (.inr h)))
    · refine .inl ⟨flowID, ?_⟩
      change Finmap.lookup flowID (s.tcpFlows.insert flowID k) = some k
      rw [lookup_insert_eq, if_pos rfl]
  · intro hpast id j hlookup
    change Finmap.lookup id (s.tcpFlows.insert flowID k) = some j at hlookup
    rw [lookup_insert_eq] at hlookup
    split_ifs at hlookup with hsame
    · cases hlookup
      exact ⟨⟨hsame.symm, rfl⟩, hloop⟩
    · have hopens := (hs.swapped hpast id j hlookup).1
      rw [hpc] at hopens
      exact absurd hopens.1.symm hsame

theorem spawn_consistent (hs : s.Consistent) (hpc : s.run = .spawn k) :
    { s.setLoop k .read with wg := s.wg + 1, run := .readFrame }.Consistent := by
  obtain ⟨hlt, hloop⟩ := hs.fresh k (by rw [hpc]; rfl)
  have hstarted : ∀ j, (s.flows j).loop ≠ .notStarted →
      ((s.setLoop k .read).flows j).loop = (s.flows j).loop := by
    intro j hj
    apply setLoop_loop_of_ne
    rintro rfl
    exact hj hloop
  constructor
  · have hsum := s.sum_setLoop (fun pc => pc.live.toNat) .read hlt
    have hstopped : TCPLoopPc.live .notStarted = false := rfl
    have hlive : TCPLoopPc.live .read = true := rfl
    simp only [hloop, hstopped, hlive, Bool.toNat_false, Bool.toNat_true, add_zero] at hsum
    rw [← hs.wg_eq] at hsum
    exact hsum.symm
  · intro j hj
    change s.created ≤ j at hj
    rw [setLoop_loop_of_ne s _ (by omega)]
    exact hs.uncreated j hj
  · intro id j hlookup
    rw [setLoop_id]
    exact hs.table id j hlookup
  · intro g stage hrun
    have hg := hs.inClose g stage hrun
    cases g with
    | run => exact absurd hrun (hs.run_cell (by simp [hpc]) (by simp [hpc]) stage)
    | loop j => exact (hstarted j (by simp [show (s.flows j).loop = .closing from hg])).trans hg
    | closer i => exact hg
  · exact hs.connClosed
  · rintro j ⟨⟩
  · rintro id j ⟨⟩
  · rintro j (hused | hused)
    · have hj : s.Used j := by
        by_cases hjk : j = k
        · exact .inr (by rw [hpc, hjk]; rfl)
        · rw [setLoop_loop_of_ne s _ hjk] at hused
          exact .inl hused
      rcases hs.used j hj with htable | hclosed | ⟨id, notify, h⟩ | ⟨j', id, notify, h⟩ | h
      · exact .inl htable
      · exact .inr (.inl (by simpa using hclosed))
      · simp [hpc] at h
      · exact .inr (.inr (.inr (.inl ⟨j', id, notify, (hstarted j' (by simp [h])).trans h⟩)))
      · exact .inr (.inr (.inr (.inr h)))
    · exact hused.elim
  · intro hpast id j hlookup
    have hopens : ∀ id j, ¬s.run.Opens id j := by simp [hpc, TCPRunPc.Opens]
    exact absurd hlookup (hs.table_empty hopens hpast)

end TCPSession
end VlfProto.Session
