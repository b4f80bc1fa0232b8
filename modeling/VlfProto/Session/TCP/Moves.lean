import VlfProto.Session.TCP.RunStep

/-! # Every step of the session keeps the invariant -/

namespace VlfProto.Session
open Platform Transition Option

namespace TCPSession

variable {s s' : TCPSession} {i k flowID : ℕ} {ok failed : Bool} {data : Bytes}
  {label : TCPSessionStep}

/-- A loop that goes on has closed the target that it was about to close. -/
theorem Shut.setLoop {j : ℕ} {pc : TCPLoopPc} (h : s.Shut j)
    (hclosing : ∀ flowID notify, (s.flows k).loop = .closeFlow (.closeTarget j flowID notify) →
      (s.flows j).targetClosed) : (s.setLoop k pc).Shut j := by
  rcases h with hclosed | h | ⟨j', id, notify, h⟩ | h
  · exact .inl ((setLoop_targetClosed s k j pc).trans hclosed)
  · exact .inr (.inl h)
  · by_cases hj' : j' = k
    · subst hj'
      exact .inl ((setLoop_targetClosed s j' j pc).trans (hclosing id notify h))
    · exact .inr (.inr (.inl ⟨j', id, notify, (setLoop_loop_of_ne s pc hj').trans h⟩))
  · exact .inr (.inr (.inr h))

theorem Consistent.setLoop {pc : TCPLoopPc} {wg : ℕ} {frames : List (ServerFrame × Bool)}
    {limiterEntry : Bool} (hs : s.Consistent) (hlive : (s.flows k).loop.live)
    (hpc : pc ≠ .notStarted) (hwg : wg + 1 = s.wg + pc.live.toNat)
    (hcell : ∀ stage, s.once ≠ .running (.loop k) stage)
    (hclosing : ∀ j flowID notify, (s.flows k).loop = .closeFlow (.closeTarget j flowID notify) →
      (s.flows j).targetClosed) :
    ({ s with
      wg := wg
      frames := frames
      limiterEntry := limiterEntry }.setLoop k pc).Consistent := by
  have hne := ne_notStarted_of_live hlive
  have hlt := hs.lt_created hne
  have hstill : ∀ j, (s.flows j).loop = .notStarted ↔
      ((s.setLoop k pc).flows j).loop = .notStarted := by
    intro j
    by_cases hj : j = k
    · subst hj
      simp [hne, hpc]
    · rw [setLoop_loop_of_ne s pc hj]
  constructor
  · have hsum := s.sum_setLoop (fun pc => pc.live.toNat) pc hlt
    rw [← hs.wg_eq] at hsum
    simp only [hlive, Bool.toNat_true] at hsum
    change wg = ∑ j ∈ Finset.range s.created, ((s.setLoop k pc).flows j).loop.live.toNat
    omega
  · intro j hj
    exact (hstill j).mp (hs.uncreated j hj)
  · intro id j hlookup
    rw [setLoop_id]
    exact hs.table id j hlookup
  · intro g stage hrun
    have hg := hs.inClose g stage hrun
    cases g with
    | run | closer i => exact hg
    | loop j =>
      have hj : j ≠ k := by
        rintro rfl
        exact hcell stage hrun
      exact (setLoop_loop_of_ne s pc hj).trans hg
  · exact hs.connClosed
  · intro j hfresh
    obtain ⟨hjlt, hj⟩ := hs.fresh j hfresh
    exact ⟨hjlt, (hstill j).mp hj⟩
  · intro id j hpc
    rw [setLoop_id]
    exact hs.named id j hpc
  · intro j hused
    have hj : s.Used j := by
      rcases hused with h | h
      · exact .inl fun h' => h ((hstill j).mp h')
      · exact .inr h
    rcases hs.used j hj with htable | hshut
    · exact .inl htable
    · exact .inr (hshut.setLoop (hclosing j))
  · intro hpast id j hlookup
    obtain ⟨hopens, hj⟩ := hs.swapped hpast id j hlookup
    exact ⟨hopens, (hstill j).mp hj⟩

theorem Consistent.moveLoop {pc : TCPLoopPc} {frames : List (ServerFrame × Bool)}
    {limiterEntry : Bool} (hs : s.Consistent) (hlive : (s.flows k).loop.live) (hpc : pc.live)
    (hold : (s.flows k).loop ≠ .closing)
    (hclosing : ∀ j flowID notify, (s.flows k).loop = .closeFlow (.closeTarget j flowID notify) →
      (s.flows j).targetClosed) :
    ({ s with frames := frames, limiterEntry := limiterEntry }.setLoop k pc).Consistent := by
  refine hs.setLoop hlive ?_ (by rw [hpc]; rfl) ?_ hclosing
  · rintro rfl
    cases hpc
  · exact fun stage hrun => hold (hs.inClose _ _ hrun)

/-- Taking an entry out of the table whose target somebody is about to close. -/
theorem Consistent.erase (hs : s.Consistent)
    (hshut : ∀ j, s.tcpFlows.lookup flowID = some j → s.Shut j) :
    { s with tcpFlows := s.tcpFlows.erase flowID }.Consistent := by
  have hlookup : ∀ id j, Finmap.lookup id (s.tcpFlows.erase flowID) = some j ↔
      id ≠ flowID ∧ s.tcpFlows.lookup id = some j := by
    intro id j
    rw [Table.lookup_erase_eq]
    split_ifs with hid <;> simp [hid]
  constructor
  · exact hs.wg_eq
  · exact hs.uncreated
  · intro id j hj
    exact hs.table id j ((hlookup id j).mp hj).2
  · intro g stage hrun
    exact (hs.inClose g stage hrun).congr rfl rfl fun _ => rfl
  · exact hs.connClosed
  · exact hs.fresh
  · intro id j hpc
    obtain ⟨hid, htable⟩ := hs.named id j hpc
    exact ⟨hid, fun ⟨id', hj⟩ => htable ⟨id', ((hlookup id' j).mp hj).2⟩⟩
  · intro j hused
    rcases hs.used j hused with ⟨id, hj⟩ | hj
    · by_cases hid : id = flowID
      · subst hid
        exact .inr (hshut j hj)
      · exact .inl ⟨id, (hlookup id j).mpr ⟨hid, hj⟩⟩
    · exact .inr hj
  · intro hpast id j hj
    exact hs.swapped hpast id j ((hlookup id j).mp hj).2

theorem loopCloseFlow_consistent {pc : CloseFlowPc} {r : TCPSession × Option CloseFlowPc}
    (hs : s.Consistent) (hpc : (s.flows k).loop = .closeFlow pc)
    (h : s.closeFlowStep ok pc = some r) :
    (r.1.setLoop k (r.2.elim .exiting .closeFlow)).Consistent := by
  have hlive : (s.flows k).loop.live := by rw [hpc]; rfl
  cases closeFlowStep_cases h with
  | gone | notify => exact hs.moveLoop hlive rfl (by simp [hpc]) (by simp [hpc])
  | @delete flowID j notify hlookup =>
    have hmoved : (s.setLoop k (.closeFlow (.closeTarget j flowID notify))).Consistent :=
      hs.moveLoop hlive rfl (by simp [hpc]) (by simp [hpc])
    refine hmoved.erase fun j' hj' => ?_
    obtain rfl : j = j' := some.inj (hlookup.symm.trans hj')
    exact .inr (.inr (.inl ⟨k, flowID, notify, setLoop_loop_self _ _ _⟩))
  | @closeTarget flowID j notify =>
    have hclosed : { s.closeTarget j with tcpStreams := s.tcpStreams - 1 }.Consistent :=
      closeTarget_consistent hs
    have hloop : ((s.closeTarget j).flows k).loop = .closeFlow (.closeTarget j flowID notify) :=
      (closeTarget_loop s j k).trans hpc
    refine hclosed.moveLoop ?_ ?_ ?_ ?_
    · rw [hloop]
      rfl
    · cases notify <;> rfl
    · simp [hpc]
    · simp +contextual [hpc]

theorem afterRead_live (flowID : ℕ) (failed : Bool) : (afterRead flowID failed).live := by
  cases failed <;> rfl

theorem loopStep_consistent (hs : s.Consistent) (h : s.loopStep k data failed ok = some s') :
    s'.Consistent := by
  cases hpc : (s.flows k).loop <;> simp only [loopStep, hpc, map_eq_some_iff, reduceCtorEq] at h
  case read =>
    obtain ⟨-, rfl⟩ := of_guard h
    refine hs.moveLoop (by rw [hpc]; rfl) ?_ (by simp [hpc]) (by simp [hpc])
    split_ifs
    · exact afterRead_live _ _
    · rfl
  case limit data failed =>
    cases h
    refine hs.moveLoop (by rw [hpc]; rfl) ?_ (by simp [hpc]) (by simp [hpc])
    split_ifs <;> rfl
  case write data failed =>
    obtain ⟨s₁, hwrite, rfl⟩ := h
    obtain ⟨rfl, -⟩ := writeFrame_cases hwrite
    refine hs.moveLoop (by rw [hpc]; rfl) ?_ (by simp [hpc]) (by simp [hpc])
    split_ifs
    · exact afterRead_live _ _
    · rfl
  case closing =>
    obtain ⟨r, hclose, rfl⟩ := h
    have hg : s.InClose (.loop k) := hpc
    have hr := closeStep_consistent hs hg hclose
    have hloop := ((closeStep_moves hclose).loop k).trans hpc
    split_ifs with hret
    · refine hr.setLoop (by rw [hloop]; rfl) (by simp) rfl ?_ (by simp [hloop])
      simp [closeStep_returned hclose hret]
    · exact hr
  case closeFlow pc =>
    obtain ⟨r, hr, rfl⟩ := h
    exact loopCloseFlow_consistent hs hpc hr
  case exiting =>
    cases h
    have hlive : (s.flows k).loop.live := by rw [hpc]; rfl
    have hpos := hs.wg_pos hlive
    refine hs.setLoop hlive (by simp) ?_ ?_ (by simp [hpc])
    · change s.wg - 1 + 1 = s.wg + 0
      omega
    · intro stage hrun
      have hclosing : (s.flows k).loop = .closing := hs.inClose _ _ hrun
      simp [hpc] at hclosing

theorem Consistent.setCloser {pc : CloserPc} (hs : s.Consistent)
    (hcell : ∀ stage, s.once ≠ .running (.closer i) stage) : (s.setCloser i pc).Consistent where
  wg_eq := hs.wg_eq
  uncreated := hs.uncreated
  table := hs.table
  inClose g stage hrun := by
    have hg := hs.inClose g stage hrun
    cases g with
    | run | loop k => exact hg
    | closer j =>
      have hj : j ≠ i := by
        rintro rfl
        exact hcell stage hrun
      simpa [InClose, TCPSession.setCloser, hj] using hg
  connClosed := hs.connClosed
  fresh := hs.fresh
  named := hs.named
  used := hs.used
  swapped := hs.swapped

theorem closerStep_consistent (hs : s.Consistent) (h : s.closerStep i = some s') :
    s'.Consistent := by
  unfold closerStep at h
  split at h
  · rename_i hpc
    obtain ⟨r, hclose, rfl⟩ := map_eq_some_iff.mp h
    have hg : s.InClose (.closer i) := hpc
    have hr := closeStep_consistent hs hg hclose
    split_ifs with hret
    · exact hr.setCloser (by simp [closeStep_returned hclose hret])
    · exact hr
  · cases h

theorem step_consistent (hs : s.Consistent) (h : s.step label = some s') : s'.Consistent := by
  cases label with
  | run frame ok n => exact runStep_consistent hs h
  | loop k data failed ok => exact loopStep_consistent hs h
  | callClose i =>
    obtain ⟨⟨-, hidle⟩, rfl⟩ := of_guard h
    refine hs.setCloser fun stage hrun => ?_
    have hclosing : s.closers i = .closing := hs.inClose _ _ hrun
    simp [hidle] at hclosing
  | closer i => exact closerStep_consistent hs h

end TCPSession

/-! ### What a step does to the flows -/

/-- `Run` has an object in hand that is not in the table yet, or never will be. -/
def TCPRunPc.Holds : TCPRunPc → ℕ → Prop
  | .insert _ k', k => k' = k
  | .closeDuplicate _ k', k => k' = k
  | _, _ => False

/-- `Run` is neither entering an object nor closing one. -/
def TCPRunPc.light : TCPRunPc → Bool
  | .insert _ _ => false
  | .closeDuplicate _ _ => false
  | .countStream _ _ => false
  | .closeFlow (.closeTarget _ _ _) => false
  | _ => true

theorem TCPRunPc.not_holds_of_light {pc : TCPRunPc} (h : pc.light) (k : ℕ) : ¬pc.Holds k := by
  cases pc <;> first | exact id | cases h

theorem TCPRunPc.light_of_entry {pc : TCPRunPc} (h : pc.entry) : pc.light := by
  cases pc
  case closeFlow pc => cases pc <;> first | rfl | cases h
  all_goals first | rfl | cases h

def TCPLoopPc.light : TCPLoopPc → Bool
  | .closeFlow (.closeTarget _ _ _) => false
  | _ => true

namespace TCPSession

variable {s s' : TCPSession} {i k n : ℕ} {ok failed : Bool} {data : Bytes} {frame : Option Frame}
  {label : TCPSessionStep} {pc : TCPRunPc}

inductive RunMove (s : TCPSession) : TCPSession → Prop where
  | light {pc : TCPRunPc} {frames : List (ServerFrame × Bool)} {registered limiterEntry : Bool}
      (hold : s.run.light) (hnew : pc.light) :
      RunMove s { s with run := pc, frames, registered, limiterEntry }
  | dial {flowID : ℕ} (hpc : s.run = .dial flowID) :
      RunMove s { s.createFlow flowID with run := .insert flowID s.created }
  | duplicate {flowID k : ℕ} (hpc : s.run = .insert flowID k) :
      RunMove s { s with run := .closeDuplicate flowID k }
  | insert {flowID k : ℕ} (hpc : s.run = .insert flowID k)
      (hnone : s.tcpFlows.lookup flowID = none) :
      RunMove s { s with tcpFlows := s.tcpFlows.insert flowID k, run := .countStream flowID k }
  | closeDuplicate {flowID k : ℕ} {pc : TCPRunPc} (hpc : s.run = .closeDuplicate flowID k)
      (hnew : pc.light) : RunMove s { s.closeTarget k with run := pc }
  | count {flowID k : ℕ} (hpc : s.run = .countStream flowID k) :
      RunMove s { s with tcpStreams := s.tcpStreams + 1, run := .writeOpenOK flowID k }
  | spawn {k : ℕ} (hpc : s.run = .spawn k) :
      RunMove s { s.setLoop k .read with wg := s.wg + 1, run := .readFrame }
  | closeFlow {pc : CloseFlowPc} {ok : Bool} {r : TCPSession × Option CloseFlowPc}
      (hpc : s.run = .closeFlow pc) (hr : s.closeFlowStep ok pc = some r) :
      RunMove s { r.1 with run := r.2.elim .readFrame .closeFlow }
  | write {k : ℕ} {written : Bytes} {pc : TCPRunPc} (hold : s.run.light) (hnew : pc.light) :
      RunMove s { s.setFlow k { s.flows k with written } with run := pc }
  | close {pc : TCPRunPc} {r : TCPSession × Bool} (hold : s.run.light) (hnew : pc.light)
      (hr : s.closeStep .run = some r) :
      RunMove s (if r.2 then { r.1 with run := pc } else r.1)

theorem openCheck_light (s : TCPSession) (p : OpenPayload) : (s.openCheck p).light := by
  rcases s.openCheck_cases p with ⟨reason, h⟩ | ⟨h, -⟩ <;> rw [h] <;> rfl

theorem runStep_moves (h : s.runStep frame ok n = some s') : s.RunMove s' := by
  cases runStep_cases h with
  | setDeadline hpc | writeAuthOK hpc | writeOpenOK hpc | lookup hpc | dataLimit hpc =>
    exact .light (by rw [hpc]; rfl) (by split_ifs <;> rfl)
  | authFail hpc | register hpc | reply hpc | dialFails hpc | lookupFails hpc | unregister hpc =>
    exact .light (by rw [hpc]; rfl) rfl
  | readFirst hpc _ hentry | readFrame hpc _ hentry =>
    exact .light (by rw [hpc]; rfl) (TCPRunPc.light_of_entry hentry)
  | openCheck hpc => exact .light (by rw [hpc]; rfl) (s.openCheck_light _)
  | dial hpc => exact .dial hpc
  | insert hpc hnone => exact .insert hpc hnone
  | duplicate hpc => exact .duplicate hpc
  | closeDuplicate hpc => exact .closeDuplicate hpc rfl
  | countStream hpc => exact .count hpc
  | spawn hpc => exact .spawn hpc
  | closeFlow hpc hr => exact .closeFlow hpc hr
  | dataWrite hpc => exact .write (by rw [hpc]; rfl) (by split_ifs <;> rfl)
  | closing hpc hr | deferredClose hpc hr => exact .close (by rw [hpc]; rfl) rfl hr

inductive LoopMove (s : TCPSession) (k : ℕ) : TCPSession → Prop where
  | light {pc : TCPLoopPc} {limiterEntry : Bool} {wg : ℕ} (hlive : (s.flows k).loop.live)
      (hold : (s.flows k).loop.light) (hnew : pc.light) :
      LoopMove s k ({ s with limiterEntry, wg }.setLoop k pc)
  | forward {data : Bytes} {failed ok : Bool} {pc : TCPLoopPc}
      (hpc : (s.flows k).loop = .write data failed) (hnew : pc.light) :
      LoopMove s k
        ({ s with frames := s.frames ++ [(ServerFrame.tcpData (s.flows k).id data, ok)] }.setLoop k
          pc)
  | closeFlow {pc : CloseFlowPc} {ok : Bool} {r : TCPSession × Option CloseFlowPc}
      (hpc : (s.flows k).loop = .closeFlow pc) (hr : s.closeFlowStep ok pc = some r) :
      LoopMove s k (r.1.setLoop k (r.2.elim .exiting .closeFlow))
  | close {r : TCPSession × Bool} (hpc : (s.flows k).loop = .closing)
      (hr : s.closeStep (.loop k) = some r) :
      LoopMove s k (if r.2 then r.1.setLoop k .exiting else r.1)

theorem afterRead_light (flowID : ℕ) (failed : Bool) : (afterRead flowID failed).light := by
  cases failed <;> rfl

theorem loopStep_moves (h : s.loopStep k data failed ok = some s') : s.LoopMove k s' := by
  cases hpc : (s.flows k).loop <;> simp only [loopStep, hpc, map_eq_some_iff, reduceCtorEq] at h
  case read =>
    obtain ⟨-, rfl⟩ := of_guard h
    refine .light (by rw [hpc]; rfl) (by rw [hpc]; rfl) ?_
    split_ifs
    · exact afterRead_light _ _
    · rfl
  case limit data failed =>
    cases h
    exact .light (by rw [hpc]; rfl) (by rw [hpc]; rfl) (by split_ifs <;> rfl)
  case write data failed =>
    obtain ⟨s₁, hwrite, rfl⟩ := h
    obtain ⟨rfl, -⟩ := writeFrame_cases hwrite
    refine .forward hpc ?_
    split_ifs
    · exact afterRead_light _ _
    · rfl
  case closing =>
    obtain ⟨r, hclose, rfl⟩ := h
    exact .close hpc hclose
  case closeFlow pc =>
    obtain ⟨r, hr, rfl⟩ := h
    exact .closeFlow hpc hr
  case exiting =>
    cases h
    exact .light (by rw [hpc]; rfl) (by rw [hpc]; rfl) rfl

theorem closerStep_moves (h : s.closerStep i = some s') : ∃ r closers,
    s.closeStep (.closer i) = some r ∧ s' = { r.1 with closers } := by
  unfold closerStep at h
  split at h
  · obtain ⟨r, hclose, rfl⟩ := map_eq_some_iff.mp h
    refine ⟨r, (if r.2 then r.1.setCloser i .returned else r.1).closers, hclose, ?_⟩
    split_ifs <;> rfl
  · cases h

end TCPSession
end VlfProto.Session
