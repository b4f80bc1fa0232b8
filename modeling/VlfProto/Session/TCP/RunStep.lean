import VlfProto.Session.TCP.RunFlows

/-! # Closing a flow -/

namespace VlfProto.Session.TCPSession
open Platform Transition

variable {s : TCPSession} {k flowID : ℕ} {ok : Bool} {tcpStreams : ℤ}

/-- A change of the flow objects that moves no loop and opens no target. -/
theorem Consistent.setFlows {flows : ℕ → TCPFlow} (hs : s.Consistent)
    (hloop : ∀ j, (flows j).loop = (s.flows j).loop) (hid : ∀ j, (flows j).id = (s.flows j).id)
    (hclosed : ∀ j, (s.flows j).targetClosed → (flows j).targetClosed) :
    { s with flows := flows, tcpStreams := tcpStreams }.Consistent := by
  constructor
  · simp only [hloop]
    exact hs.wg_eq
  · intro j hj
    rw [hloop]
    exact hs.uncreated j hj
  · intro id j hlookup
    rw [hid]
    exact hs.table id j hlookup
  · intro g stage hrun
    exact (hs.inClose g stage hrun).congr rfl rfl hloop
  · exact hs.connClosed
  · intro j hfresh
    rw [hloop]
    exact hs.fresh j hfresh
  · intro id j hpc
    rw [hid]
    exact hs.named id j hpc
  · intro j hused
    have hj : s.Used j := by
      rcases hused with h | h
      · exact .inl (hloop j ▸ h)
      · exact .inr h
    rcases hs.used j hj with htable | hshut | h | ⟨j', id, notify, h⟩ | h
    · exact .inl htable
    · exact .inr (.inl (hclosed j hshut))
    · exact .inr (.inr (.inl h))
    · exact .inr (.inr (.inr (.inl ⟨j', id, notify, (hloop j').trans h⟩)))
    · exact .inr (.inr (.inr (.inr h)))
  · intro hpast id j hlookup
    rw [hloop]
    exact hs.swapped hpast id j hlookup

theorem closeTarget_consistent (hs : s.Consistent) :
    { s.closeTarget k with tcpStreams := tcpStreams }.Consistent :=
  hs.setFlows (closeTarget_loop s k) (closeTarget_id s k) (by simp +contextual)

theorem setWritten_consistent {written : Bytes} (hs : s.Consistent) :
    (s.setFlow k { s.flows k with written }).Consistent := by
  have hflow : ∀ j, ((s.setFlow k { s.flows k with written }).flows j).loop = (s.flows j).loop ∧
      ((s.setFlow k { s.flows k with written }).flows j).id = (s.flows j).id ∧
      ((s.setFlow k { s.flows k with written }).flows j).targetClosed =
        (s.flows j).targetClosed := by
    intro j
    by_cases h : j = k <;> simp [setFlow, h]
  exact hs.setFlows (fun j => (hflow j).1) (fun j => (hflow j).2.1) fun j h => (hflow j).2.2 ▸ h

/-- `Run` takes the entry of a flow out of the table and goes on to close its
target. -/
theorem runDelete_consistent {notify : Bool} (hs : s.Consistent)
    (hpc : s.run = .closeFlow (.delete flowID notify))
    (hlookup : s.tcpFlows.lookup flowID = some k) :
    { s with
      tcpFlows := s.tcpFlows.erase flowID
      run := .closeFlow (.closeTarget k flowID notify) }.Consistent := by
  constructor
  · exact hs.wg_eq
  · exact hs.uncreated
  · intro id j hj
    change Finmap.lookup id (s.tcpFlows.erase flowID) = some j at hj
    rw [Table.lookup_erase_eq] at hj
    split_ifs at hj
    exact hs.table id j hj
  · intro g stage hrun
    have hg := hs.inClose g stage hrun
    cases g with
    | run => exact absurd hrun (hs.run_cell (by simp [hpc]) (by simp [hpc]) stage)
    | loop j | closer i => exact hg
  · exact hs.connClosed
  · rintro j ⟨⟩
  · rintro id j ⟨⟩
  · rintro j (hused | hused)
    · rcases hs.used j (.inl hused) with ⟨id, hj⟩ | hclosed | ⟨id, notify, h⟩ | h | h
      · by_cases hid : id = flowID
        · subst hid
          rw [hlookup] at hj
          cases hj
          exact .inr (.inr (.inl ⟨id, notify, rfl⟩))
        · refine .inl ⟨id, ?_⟩
          change Finmap.lookup id (s.tcpFlows.erase flowID) = some j
          rw [Table.lookup_erase_eq, if_neg hid, hj]
      · exact .inr (.inl hclosed)
      · simp [hpc] at h
      · exact .inr (.inr (.inr (.inl h)))
      · exact .inr (.inr (.inr (.inr h)))
    · exact hused.elim
  · intro hpast id j hj
    change Finmap.lookup id (s.tcpFlows.erase flowID) = some j at hj
    rw [Table.lookup_erase_eq] at hj
    split_ifs at hj with hid
    have hopens := (hs.swapped hpast id j hj).1
    rw [hpc] at hopens
    exact absurd hopens.symm hid

theorem runCloseFlow_consistent {pc : CloseFlowPc} {r : TCPSession × Option CloseFlowPc}
    (hs : s.Consistent) (hpc : s.run = .closeFlow pc) (h : s.closeFlowStep ok pc = some r) :
    { r.1 with run := r.2.elim .readFrame .closeFlow }.Consistent := by
  cases closeFlowStep_cases h with
  | @gone flowID notify hnone =>
    apply hs.setRun (hs.run_cell (by simp [hpc]) (by simp [hpc]))
    · simp [hpc]
    · simp [TCPRunPc.Fresh]
    · simp
    · simp [TCPRunPc.Uses]
    · intro hpast id j hj
      have hopens := (hs.swapped hpast id j hj).1
      rw [hpc] at hopens
      obtain rfl : flowID = id := hopens
      simp [hnone] at hj
  | delete hlookup => exact runDelete_consistent hs hpc hlookup
  | @closeTarget flowID k notify =>
    have hclosed : { s.closeTarget k with tcpStreams := s.tcpStreams - 1 }.Consistent :=
      closeTarget_consistent hs
    apply hclosed.setRun (hclosed.run_cell (by simp [closeTarget, setFlow, hpc])
      (by simp [closeTarget, setFlow, hpc]))
    · simp [closeTarget, setFlow, hpc]
    · cases notify <;> simp [TCPRunPc.Fresh]
    · cases notify <;> simp
    · cases notify <;> simp [TCPRunPc.Uses]
    · intro hpast id j hj
      refine absurd hj (hclosed.table_empty ?_ hpast)
      simp [closeTarget, setFlow, hpc, TCPRunPc.Opens]
  | notify => exact hs.plainRun (by rw [hpc]; rfl) rfl

/-! ### Every step of `Run` keeps the invariant -/

variable {s' : TCPSession} {r : TCPSession × Bool} {n : ℕ} {data : Bytes} {frame : Option Frame}

theorem Consistent.not_pastSwap (hs : s.Consistent) (hconn : s.connClosed = false) :
    ¬s.PastSwap := by
  rintro (hdone | ⟨g, stage, hrun, hstage⟩)
  · simp [hs.connClosed (.inl hdone)] at hconn
  · have hclosed : stage.connClosed := by cases stage <;> simp_all [TCPCloseStage.swapped,
      TCPCloseStage.connClosed]
    simp [hs.connClosed (.inr ⟨g, stage, hrun, hclosed⟩)] at hconn

theorem writeOpenOK_consistent (hs : s.Consistent) (hpc : s.run = .writeOpenOK flowID k)
    (hconn : ok → s.connClosed = false) :
    { s with
      frames := s.frames ++ [(ServerFrame.openTCPOK flowID, ok)]
      run := if ok then .spawn k else .closeFlow (.delete flowID false) }.Consistent := by
  apply hs.setRun (hs.run_cell (by simp [hpc]) (by simp [hpc]))
  · simp [hpc]
  · intro j hfresh
    rw [hpc]
    split_ifs at hfresh
    · exact hfresh
    · exact hfresh.elim
  · split_ifs <;> simp
  · intro j huses
    split_ifs at huses
    · obtain rfl : k = j := huses
      exact hs.used k (.inr (by rw [hpc]; rfl))
    · exact huses.elim
  · intro hpast id j hlookup
    split_ifs with hok
    · exact absurd hpast (hs.not_pastSwap (hconn hok))
    · have hopens := (hs.swapped hpast id j hlookup).1
      rw [hpc] at hopens
      exact hopens.1

theorem duplicate_consistent (hs : s.Consistent) (hpc : s.run = .insert flowID k) :
    { s with run := .closeDuplicate flowID k }.Consistent := by
  apply hs.setRun (hs.run_cell (by simp [hpc]) (by simp [hpc]))
  · simp [hpc]
  · simp [TCPRunPc.Fresh]
  · simp
  · simp [TCPRunPc.Uses]
  · intro hpast id j hlookup
    have hopens := (hs.swapped hpast id j hlookup).1
    rw [hpc] at hopens
    obtain ⟨rfl, rfl⟩ := hopens
    exact absurd ⟨flowID, hlookup⟩ (hs.named flowID k hpc).2

theorem countStream_consistent (hs : s.Consistent)
    (hpc : s.run = .countStream flowID k) :
    { s with tcpStreams := tcpStreams, run := .writeOpenOK flowID k }.Consistent := by
  apply hs.setRun (hs.run_cell (by simp [hpc]) (by simp [hpc]))
  · simp [hpc]
  · simp [hpc, TCPRunPc.Fresh]
  · simp
  · rintro j rfl
    exact hs.used k (.inr (by rw [hpc]; rfl))
  · intro hpast id j hlookup
    have hopens := (hs.swapped hpast id j hlookup).1
    rwa [hpc] at hopens

theorem dataLookup_consistent (hs : s.Consistent) (hpc : s.run = .dataLookup flowID data)
    (hlookup : s.tcpFlows.lookup flowID = some k) :
    { s with run := if data = [] then .readFrame else .dataLimit flowID k data }.Consistent := by
  apply hs.moveRun
  · simp [hpc, TCPRunPc.Opens]
  · simp [hpc]
  · simp [hpc]
  · simp [hpc]
  · intro j
    split_ifs <;> simp [TCPRunPc.Fresh]
  · intro j huses
    split_ifs at huses
    · exact huses.elim
    · obtain rfl : k = j := huses
      exact .inl ⟨flowID, hlookup⟩

theorem dataLimit_consistent {limiterEntry : Bool} (hs : s.Consistent)
    (hpc : s.run = .dataLimit flowID k data) :
    { s with
      limiterEntry := limiterEntry
      run := if ok then .dataWrite flowID k data else .closing }.Consistent := by
  apply hs.moveRun
  · simp [hpc, TCPRunPc.Opens]
  · simp [hpc]
  · simp [hpc]
  · simp [hpc]
  · intro j
    split_ifs <;> simp [TCPRunPc.Fresh]
  · intro j huses
    split_ifs at huses
    · obtain rfl : k = j := huses
      exact hs.used k (.inr (by rw [hpc]; rfl))
    · exact huses.elim

theorem dataWrite_consistent {written : Bytes} {pc : TCPRunPc} (hs : s.Consistent)
    (hold : s.run = .dataWrite flowID k data) (hpc : pc.handsOff) :
    { s.setFlow k { s.flows k with written } with run := pc }.Consistent := by
  have hw : (s.setFlow k { s.flows k with written }).Consistent := setWritten_consistent hs
  have hrun : (s.setFlow k { s.flows k with written }).run = .dataWrite flowID k data := hold
  obtain ⟨hfresh, huses⟩ := TCPRunPc.of_handsOff hpc
  apply hw.moveRun
  · simp [hrun, TCPRunPc.Opens]
  · simp [hrun]
  · simp [hrun]
  · simp [hrun]
  · exact hfresh
  · exact fun j h => absurd h (huses j)

theorem runClose_consistent {pc : TCPRunPc} (hs : s.Consistent) (hg : s.InClose .run)
    (hpc : pc.handsOff) (h : s.closeStep .run = some r) :
    (if r.2 then { r.1 with run := pc } else r.1).Consistent := by
  have hr := closeStep_consistent hs hg h
  have hrun := (closeStep_moves h).run
  obtain ⟨hfresh, huses⟩ := TCPRunPc.of_handsOff hpc
  split_ifs with hret
  · apply hr.setRun
    · simp [closeStep_returned h hret]
    · rw [hrun]
      rcases hg with hg | hg <;> simp [hg]
    · exact fun k h => absurd h (hfresh k)
    · rintro flowID k rfl
      exact hfresh k rfl
    · exact fun k h => absurd h (huses k)
    · intro hpast id j hlookup
      refine absurd hlookup (hr.table_empty ?_ hpast)
      rw [hrun]
      rcases hg with hg | hg <;> simp [hg, TCPRunPc.Opens]
  · exact hr

theorem runStep_consistent (hs : s.Consistent) (h : s.runStep frame ok n = some s') :
    s'.Consistent := by
  cases runStep_cases h with
  | setDeadline hpc | writeAuthOK hpc =>
    exact hs.plainRun (by rw [hpc]; rfl) (by split_ifs <;> rfl)
  | authFail hpc | register hpc | reply hpc | dialFails hpc | lookupFails hpc | unregister hpc =>
    exact hs.plainRun (by rw [hpc]; rfl) rfl
  | readFirst hpc _ hentry | readFrame hpc _ hentry =>
    exact hs.plainRun (by rw [hpc]; rfl) (TCPRunPc.handsOff_of_entry hentry)
  | openCheck hpc => exact hs.plainRun (by rw [hpc]; rfl) (s.openCheck_handsOff _)
  | dial hpc => exact createFlow_consistent hs (by rw [hpc]; rfl)
  | insert hpc hnone => exact insert_consistent hs hpc hnone
  | duplicate hpc => exact duplicate_consistent hs hpc
  | @closeDuplicate flowID k hpc =>
    have hclosed : (s.closeTarget k).Consistent := closeTarget_consistent hs
    exact hclosed.plainRun (by simp [closeTarget, setFlow, hpc, TCPRunPc.plain, TCPRunPc.handsOff])
      rfl
  | countStream hpc => exact countStream_consistent hs hpc
  | writeOpenOK hpc hconn => exact writeOpenOK_consistent hs hpc hconn
  | spawn hpc => exact spawn_consistent hs hpc
  | closeFlow hpc hr => exact runCloseFlow_consistent hs hpc hr
  | lookup hpc hlookup => exact dataLookup_consistent hs hpc hlookup
  | dataLimit hpc => exact dataLimit_consistent hs hpc
  | dataWrite hpc => exact dataWrite_consistent hs hpc (by split_ifs <;> rfl)
  | closing hpc hr => exact runClose_consistent hs (.inl hpc) rfl hr
  | deferredClose hpc hr => exact runClose_consistent hs (.inr hpc) rfl hr

end VlfProto.Session.TCPSession
