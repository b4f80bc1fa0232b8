import VlfProto.Session.TCP.Moves

/-! # Streams and targets balance -/

namespace VlfProto.Session
open Platform Transition Option

def CloseFlowPc.taken : CloseFlowPc → ℕ
  | .closeTarget _ _ _ => 1
  | _ => 0

/-- The objects in the hands of `Run` that are counted as streams, less those in the
table that are not. -/
def TCPRunPc.streams : TCPRunPc → ℤ
  | .closeFlow pc => pc.taken
  | .countStream _ _ => -1
  | _ => 0

theorem TCPRunPc.streams_of_light {pc : TCPRunPc} (h : pc.light) : pc.streams = 0 := by
  rcases pc with _ | _ | _ | _ | _ | _ | _ | _ | _ | _ | _ | _ | _ | _ | ⟨_ | _ | _⟩ | _ | _ | _ <;>
    first | rfl | cases h

def TCPLoopPc.streams : TCPLoopPc → ℕ
  | .closeFlow pc => pc.taken
  | _ => 0

theorem TCPLoopPc.streams_of_light {pc : TCPLoopPc} (h : pc.light) : pc.streams = 0 := by
  rcases pc with _ | _ | _ | _ | _ | ⟨_ | _ | _⟩ | _ | _ <;> first | rfl | cases h

def onceStreams : Once TCPGoroutine TCPCloseStage → ℕ
  | .running _ (.closeTargets rest) => rest.length
  | _ => 0

namespace TCPSession

variable {s s' : TCPSession} {i k flowID n : ℕ} {ok failed : Bool} {data : Bytes}
  {frame : Option Frame} {label : TCPSessionStep} {g : TCPGoroutine} {next : Option CloseFlowPc}
  {r : TCPSession × Bool}

/-- How many streams there are in the table and with `Close` beyond those counted. -/
def surplus (s : TCPSession) : ℤ := s.flowCount + onceStreams s.once - s.tcpStreams

def loopStreams (s : TCPSession) : ℕ :=
  ∑ k ∈ Finset.range s.created, (s.flows k).loop.streams

def Balanced (s : TCPSession) : Prop := s.surplus + s.run.streams + s.loopStreams = 0

theorem mem_tableFlows : k ∈ s.tableFlows ↔
    k < s.created ∧ s.tcpFlows.lookup (s.flows k).id = some k := by
  simp [tableFlows]

theorem length_tableFlows (hs : s.Consistent) : s.tableFlows.length = s.flowCount := by
  have hnodup : s.tableFlows.Nodup := List.nodup_range.filter _
  have himage : s.tableFlows.toFinset.image (fun k => (s.flows k).id) = s.tcpFlows.keys := by
    ext flowID
    simp only [Finset.mem_image, List.mem_toFinset, Finmap.mem_keys, mem_tableFlows]
    constructor
    · rintro ⟨k, ⟨-, hlookup⟩, rfl⟩
      exact Finmap.mem_of_lookup_eq_some hlookup
    · intro h
      obtain ⟨k, hlookup⟩ := Finmap.mem_iff.mp h
      obtain ⟨rfl, hk⟩ := hs.table flowID k hlookup
      exact ⟨k, ⟨hk, hlookup⟩, rfl⟩
  have hinj : Set.InjOn (fun k => (s.flows k).id) s.tableFlows.toFinset := by
    intro k hk k' hk' hid
    have hlookup := (mem_tableFlows.mp (List.mem_toFinset.mp hk)).2
    have hlookup' := (mem_tableFlows.mp (List.mem_toFinset.mp hk')).2
    dsimp only at hid
    rw [hid, hlookup'] at hlookup
    exact (some.inj hlookup).symm
  rw [flowCount, ← himage, Finset.card_image_of_injOn hinj, List.toFinset_card_of_nodup hnodup]

/-- Taking an object out of the table and closing it leave the balance as it is. -/
theorem closeFlowStep_surplus {pc : CloseFlowPc} (h : s.closeFlowStep ok pc = some (s', next)) :
    s'.surplus + (next.elim 0 CloseFlowPc.taken : ℕ) = s.surplus + pc.taken := by
  cases closeFlowStep_cases h with
  | gone | notify => rfl
  | delete hlookup =>
    have hcard := Table.card_keys_erase hlookup
    simp only [surplus, flowCount, elim_some, CloseFlowPc.taken]
    omega
  | @closeTarget flowID k notify =>
    have hnext : ((if notify then some (.notify flowID) else none : Option CloseFlowPc).elim 0
        CloseFlowPc.taken) = 0 := by cases notify <;> rfl
    simp only [surplus, flowCount, hnext, CloseFlowPc.taken]
    simp only [closeTarget, setFlow]
    omega

theorem bodyStep_surplus {stage : TCPCloseStage} {next : Option TCPCloseStage}
    (hs : s.Consistent) (hrun : s.once = .running g stage)
    (h : s.bodyStep stage = some (s', next)) :
    { s' with once := next.elim .done (.running g) : TCPSession }.surplus = s.surplus := by
  have hlength := length_tableFlows hs
  cases bodyStep_cases h with
  | swapFlows =>
    simp [surplus, flowCount, hrun, onceStreams] at hlength ⊢
    omega
  | closeTarget =>
    simp [surplus, flowCount, hrun, onceStreams, closeTarget, setFlow]
    omega
  | _ => simp [surplus, flowCount, hrun, onceStreams]

theorem closeStep_surplus (hs : s.Consistent) (h : s.closeStep g = some r) :
    r.1.surplus = s.surplus := by
  rcases closeStep_cases h with ⟨hidle, rfl⟩ | ⟨stage, s', next, hrun, hbody, rfl⟩ | ⟨-, rfl⟩
  · simp [surplus, flowCount, hidle, onceStreams]
  · exact bodyStep_surplus hs hrun hbody
  · rfl

theorem loopStreams_congr (hcreated : s'.created = s.created)
    (hloop : ∀ k, (s'.flows k).loop = (s.flows k).loop) : s'.loopStreams = s.loopStreams := by
  simp only [loopStreams, hcreated, hloop]

theorem balanced_congr (h : s.Balanced) (hsurplus : s'.surplus + s'.run.streams =
    s.surplus + s.run.streams) (hcreated : s'.created = s.created)
    (hloop : ∀ k, (s'.flows k).loop = (s.flows k).loop) : s'.Balanced := by
  unfold Balanced at h ⊢
  rw [hsurplus, loopStreams_congr hcreated hloop]
  exact h

theorem Balanced.closeStep (h : s.Balanced) (hs : s.Consistent) (hclose : s.closeStep g = some r) :
    r.1.Balanced := by
  have hm := closeStep_moves hclose
  exact balanced_congr h (by rw [closeStep_surplus hs hclose, hm.run]) hm.created hm.loop

theorem closeFlowStep_moves {pc : CloseFlowPc} (h : s.closeFlowStep ok pc = some (s', next)) :
    s'.created = s.created ∧ s'.run = s.run ∧ ∀ k, (s'.flows k).loop = (s.flows k).loop := by
  cases closeFlowStep_cases h with
  | closeTarget => exact ⟨rfl, rfl, closeTarget_loop s _⟩
  | _ => exact ⟨rfl, rfl, fun _ => rfl⟩

theorem setWritten_loop (s : TCPSession) (k j : ℕ) (written : Bytes) :
    ((s.setFlow k { s.flows k with written }).flows j).loop = (s.flows j).loop := by
  by_cases h : j = k <;> simp [setFlow, h]

theorem RunMove.balanced (hmove : s.RunMove s') (h : s.Balanced) (hs : s.Consistent) :
    s'.Balanced := by
  cases hmove with
  | light hold hnew =>
    refine balanced_congr h ?_ rfl fun _ => rfl
    rw [TCPRunPc.streams_of_light hold, TCPRunPc.streams_of_light hnew]
    rfl
  | @dial flowID hpc =>
    have hnew : (s.createFlow flowID).loopStreams = s.loopStreams := by
      have hlast : (s.flows s.created).loop.streams = 0 := by rw [hs.uncreated _ le_rfl]; rfl
      change ∑ k ∈ Finset.range (s.created + 1), ((s.createFlow flowID).flows k).loop.streams = _
      simp only [createFlow_loop hs, Finset.sum_range_succ, hlast]
      rfl
    unfold Balanced at h ⊢
    rw [hpc] at h
    change s.surplus + 0 + ((s.createFlow flowID).loopStreams : ℤ) = 0
    rw [hnew]
    exact h
  | duplicate hpc =>
    refine balanced_congr h ?_ rfl fun _ => rfl
    rw [hpc]
    rfl
  | insert hpc hnone =>
    refine balanced_congr h ?_ rfl fun _ => rfl
    have hcard := Table.card_keys_insert hnone
    rw [hpc]
    simp only [surplus, flowCount, hcard, TCPRunPc.streams]
    push_cast
    ring
  | closeDuplicate hpc hnew =>
    refine balanced_congr h ?_ rfl (closeTarget_loop s _)
    rw [hpc, TCPRunPc.streams_of_light hnew]
    rfl
  | count hpc =>
    refine balanced_congr h ?_ rfl fun _ => rfl
    rw [hpc]
    simp only [surplus, flowCount, TCPRunPc.streams]
    ring
  | @spawn k hpc =>
    obtain ⟨hlt, hloop⟩ := hs.fresh k (by rw [hpc]; rfl)
    have hsum := s.sum_setLoop TCPLoopPc.streams .read hlt
    rw [hloop] at hsum
    unfold Balanced at h ⊢
    rw [hpc] at h
    have hsame : (s.setLoop k .read).loopStreams = s.loopStreams := Nat.add_right_cancel hsum
    change s.surplus + 0 + ((s.setLoop k .read).loopStreams : ℤ) = 0
    rw [hsame]
    exact h
  | @closeFlow pc ok r hpc hr =>
    obtain ⟨hcreated, -, hloop⟩ := closeFlowStep_moves hr
    refine balanced_congr h ?_ hcreated hloop
    have hsurplus := closeFlowStep_surplus hr
    rw [hpc]
    refine Eq.trans ?_ hsurplus
    cases r.2 <;> rfl
  | write hold hnew =>
    refine balanced_congr h ?_ rfl fun j => ?_
    · rw [TCPRunPc.streams_of_light hold, TCPRunPc.streams_of_light hnew]
      rfl
    · rw [setWritten_loop]
  | close hold hnew hr =>
    have hbalanced := h.closeStep hs hr
    split_ifs
    · refine balanced_congr hbalanced ?_ rfl fun _ => rfl
      rw [(closeStep_moves hr).run, TCPRunPc.streams_of_light hold, TCPRunPc.streams_of_light hnew]
      rfl
    · exact hbalanced

theorem balanced_setLoop {pc : TCPLoopPc} (hlt : k < s.created)
    (h : s.surplus + s.run.streams + s.loopStreams + pc.streams = (s.flows k).loop.streams) :
    (s.setLoop k pc).Balanced := by
  have hsum : (s.setLoop k pc).loopStreams + (s.flows k).loop.streams =
    s.loopStreams + pc.streams := s.sum_setLoop TCPLoopPc.streams pc hlt
  change s.surplus + s.run.streams + ((s.setLoop k pc).loopStreams : ℤ) = 0
  omega

theorem LoopMove.balanced (hmove : s.LoopMove k s') (h : s.Balanced) (hs : s.Consistent) :
    s'.Balanced := by
  unfold Balanced at h
  cases hmove with
  | light hlive hold hnew =>
    apply balanced_setLoop (hs.lt_created (ne_notStarted_of_live hlive))
    rw [TCPLoopPc.streams_of_light hold, TCPLoopPc.streams_of_light hnew, Nat.cast_zero, add_zero]
    exact h
  | forward hpc hnew =>
    apply balanced_setLoop (hs.lt_created (by simp [hpc]))
    rw [TCPLoopPc.streams_of_light hnew, hpc, Nat.cast_zero, add_zero]
    exact h
  | @closeFlow pc ok r hpc hr =>
    obtain ⟨hcreated, hrun, hloop⟩ := closeFlowStep_moves hr
    have hsurplus := closeFlowStep_surplus hr
    have hnext : (r.2.elim TCPLoopPc.exiting .closeFlow).streams =
      r.2.elim 0 CloseFlowPc.taken := by
      cases r.2 <;> rfl
    apply balanced_setLoop (hcreated ▸ hs.lt_created (by simp [hpc]))
    rw [hrun, loopStreams_congr hcreated hloop, hloop, hpc, hnext]
    change _ = (pc.taken : ℤ)
    omega
  | close hpc hr =>
    have hm := closeStep_moves hr
    have hbalanced := Balanced.closeStep h hs hr
    split_ifs
    · apply balanced_setLoop (hm.created ▸ hs.lt_created (by simp [hpc]))
      rw [hm.loop, hpc]
      exact (add_zero _).trans hbalanced
    · exact hbalanced

theorem step_balanced (h : s.Balanced) (hs : s.Consistent) (hstep : s.step label = some s') :
    s'.Balanced := by
  cases label with
  | run frame ok n => exact (runStep_moves hstep).balanced h hs
  | loop k data failed ok => exact (loopStep_moves hstep).balanced h hs
  | callClose i =>
    obtain ⟨-, rfl⟩ := of_guard hstep
    exact h
  | closer i =>
    obtain ⟨r, closers, hclose, rfl⟩ := closerStep_moves hstep
    exact h.closeStep hs hclose

end TCPSession
end VlfProto.Session
