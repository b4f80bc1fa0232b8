import VlfProto.Platform.Names
import VlfProto.Session.TCP.Teardown

/-! # Whose flow a loop of a TCP session closes -/

namespace VlfProto.Session
open Platform Transition Option

/-- The loop may still call `closeFlow` with the id of its flow. -/
def TCPLoopPc.mayClose : TCPLoopPc → Bool
  | .read => true
  | .limit _ _ => true
  | .write _ _ => true
  | .closeFlow (.delete _ _) => true
  | _ => false

/-- The flow whose loop `Run` is about to start. -/
def TCPRunPc.starts : TCPRunPc → Option ℕ
  | .countStream _ k => some k
  | .writeOpenOK _ k => some k
  | .spawn k => some k
  | _ => none

def CloseFlowPc.About (pc : CloseFlowPc) (k flowID : ℕ) : Prop :=
  match pc with
  | .delete id _ => id = flowID
  | .closeTarget j _ _ => j = k
  | .notify _ => True

theorem TCPRunPc.starts_of_handsOff {pc : TCPRunPc} (h : pc.handsOff) : pc.starts = none := by
  cases pc <;> first | rfl | cases h

namespace TCPSession

variable {s s' : TCPSession} {frame : Option Frame} {data : Bytes} {failed ok : Bool} {k n : ℕ}
  {r : TCPSession × Option CloseFlowPc}

def held (s : TCPSession) : Set ℕ :=
  {k | (s.flows k).loop.mayClose ∨ s.run.starts = some k}

/-- A loop comes to this point of `closeFlow` in one step. -/
def Enters (s : TCPSession) (k : ℕ) (pc : CloseFlowPc) : Prop :=
  ((s.flows k).loop.mayClose ∧ ∃ notify, pc = .delete (s.flows k).id notify) ∨
  ∃ before ok r, (s.flows k).loop = .closeFlow before ∧
    s.closeFlowStep ok before = some (r, some pc)

/-- No flow is filed, and no loop is started that was not about to be. -/
structure Drifts (s s' : TCPSession) : Prop where
  id : ∀ k < s.created, (s'.flows k).id = (s.flows k).id
  table : ∀ flowID k, s'.tcpFlows.lookup flowID = some k → s.tcpFlows.lookup flowID = some k
  mayClose : ∀ k, (s'.flows k).loop.mayClose → k ∈ s.held
  starts : ∀ k, s'.run.starts = some k → s.run.starts = some k
  closes : ∀ k pc, (s'.flows k).loop = .closeFlow pc →
    (s.flows k).loop = .closeFlow pc ∨ s.Enters k pc

theorem Drifts.of_loops (hid : ∀ k < s.created, (s'.flows k).id = (s.flows k).id)
    (hloop : ∀ k, (s'.flows k).loop = (s.flows k).loop)
    (htable : ∀ flowID k, s'.tcpFlows.lookup flowID = some k → s.tcpFlows.lookup flowID = some k)
    (hstarts : ∀ k, s'.run.starts = some k → s.run.starts = some k) : s.Drifts s' where
  id := hid
  table := htable
  mayClose k h := .inl (hloop k ▸ h)
  starts := hstarts
  closes k _ h := .inl (hloop k ▸ h)

theorem Drifts.of_flows (hflows : s'.flows = s.flows) (htable : s'.tcpFlows = s.tcpFlows)
    (hstarts : ∀ k, s'.run.starts = some k → s.run.starts = some k) : s.Drifts s' :=
  .of_loops (fun k _ => by rw [hflows]) (fun k => by rw [hflows])
    (fun flowID k h => htable ▸ h) hstarts

theorem closeFlowStep_keeps {pc : CloseFlowPc} (h : s.closeFlowStep ok pc = some r) :
    (∀ k, (r.1.flows k).id = (s.flows k).id ∧ (r.1.flows k).loop = (s.flows k).loop) ∧
    r.1.run = s.run ∧
    ∀ flowID k, r.1.tcpFlows.lookup flowID = some k → s.tcpFlows.lookup flowID = some k := by
  cases closeFlowStep_cases h with
  | gone | notify => exact ⟨fun _ => ⟨rfl, rfl⟩, rfl, fun _ _ => id⟩
  | delete =>
    refine ⟨fun _ => ⟨rfl, rfl⟩, rfl, fun id k hlookup => ?_⟩
    rw [Table.lookup_erase_eq] at hlookup
    split_ifs at hlookup
    exact hlookup
  | @closeTarget _ j =>
    exact ⟨fun k => ⟨closeTarget_id s j k, closeTarget_loop s j k⟩, rfl, fun _ _ => id⟩

theorem closeFlowStep_deleted {pc : CloseFlowPc} (h : s.closeFlowStep ok pc = some r) :
    (r.2.elim TCPLoopPc.exiting TCPLoopPc.closeFlow).mayClose = false := by
  cases closeFlowStep_cases h with
  | @closeTarget _ _ notify => cases notify <;> rfl
  | _ => rfl

theorem closeStep_keeps {g : TCPGoroutine} {r : TCPSession × Bool} (h : s.closeStep g = some r) :
    (∀ k, (r.1.flows k).id = (s.flows k).id ∧ (r.1.flows k).loop = (s.flows k).loop) ∧
    r.1.run = s.run ∧
    ∀ flowID k, r.1.tcpFlows.lookup flowID = some k → s.tcpFlows.lookup flowID = some k := by
  have hm := closeStep_moves h
  refine ⟨fun k => ⟨hm.id k, hm.loop k⟩, hm.run, fun flowID k hlookup => ?_⟩
  rcases closeStep_cases h with ⟨-, rfl⟩ | ⟨stage, s', next, -, hbody, rfl⟩ | ⟨-, rfl⟩
  · exact hlookup
  · change s'.tcpFlows.lookup flowID = some k at hlookup
    rw [bodyStep_table hbody] at hlookup
    split_ifs at hlookup
    · simp at hlookup
    · exact hlookup
  · exact hlookup

/-- `Run` files a flow. -/
def Files (s : TCPSession) (flowID k : ℕ) : Prop :=
  s.run = .insert flowID k ∧ s.tcpFlows.lookup flowID = none

theorem runClose_drifts {pc : TCPRunPc} {r : TCPSession × Bool} (hpc : pc.handsOff)
    (hr : s.closeStep .run = some r) :
    s.Drifts (if r.2 then { r.1 with run := pc } else r.1) := by
  obtain ⟨hflows, hrun, htable⟩ := closeStep_keeps hr
  split_ifs <;> refine .of_loops (fun k _ => (hflows k).1) (fun k => (hflows k).2) htable
    fun k hk => ?_
  · rw [TCPRunPc.starts_of_handsOff hpc] at hk
    cases hk
  · rwa [hrun] at hk

theorem runStep_drifts (hs : s.Consistent) (hfiles : ∀ flowID k, ¬s.Files flowID k)
    (h : s.runStep frame ok n = some s') : s.Drifts s' := by
  have hstarts {pc : TCPRunPc} (hpc : pc.handsOff) : ∀ k, pc.starts = some k →
      s.run.starts = some k := by
    intro k hk
    rw [TCPRunPc.starts_of_handsOff hpc] at hk
    cases hk
  cases runStep_cases h with
  | setDeadline | writeAuthOK => exact .of_flows rfl rfl (hstarts (by cases ok <;> rfl))
  | readFirst _ _ hentry | readFrame _ _ hentry =>
    exact .of_flows rfl rfl (hstarts (TCPRunPc.handsOff_of_entry hentry))
  | openCheck => exact .of_flows rfl rfl (hstarts (openCheck_handsOff s _))
  | dial =>
    refine .of_loops (fun k hk => ?_) (createFlow_loop hs) (fun _ _ => id) (by rintro k ⟨⟩)
    exact congrArg TCPFlow.id (createFlow_flows s hk.ne)
  | insert hpc hnone => exact absurd ⟨hpc, hnone⟩ (hfiles _ _)
  | duplicate => exact .of_flows rfl rfl (by rintro j ⟨⟩)
  | @closeDuplicate flowID k hpc =>
    exact .of_loops (fun j _ => closeTarget_id s k j) (closeTarget_loop s k) (fun _ _ => id)
      (hstarts rfl)
  | countStream hpc => exact .of_flows rfl rfl fun j hj => by rw [hpc]; exact hj
  | writeOpenOK hpc =>
    refine .of_flows rfl rfl fun j hj => ?_
    rw [hpc]
    cases ok with
    | false => cases hj
    | true => exact hj
  | @spawn k hpc =>
    have hk : s.run.starts = some k := by rw [hpc]; rfl
    refine ⟨fun j _ => setLoop_id s k j _, fun _ _ => id, fun j hj => ?_, hstarts rfl,
      fun j pc hj => ?_⟩
    · by_cases hjk : j = k
      · exact .inr (hjk ▸ hk)
      · exact .inl (setLoop_loop_of_ne s .read hjk ▸ hj)
    · by_cases hjk : j = k
      · subst hjk
        simp at hj
      · exact .inl (setLoop_loop_of_ne s .read hjk ▸ hj)
  | @closeFlow pc r hpc hr =>
    obtain ⟨hflows, -, htable⟩ := closeFlowStep_keeps hr
    refine .of_loops (fun k _ => (hflows k).1) (fun k => (hflows k).2) htable (hstarts ?_)
    cases r.2 <;> rfl
  | @lookup flowID k data hpc hlookup =>
    refine .of_flows rfl rfl fun j hj => ?_
    by_cases hdata : data = [] <;> simp [hdata, TCPRunPc.starts] at hj
  | dataLimit =>
    refine .of_flows rfl rfl fun j hj => ?_
    cases ok <;> cases hj
  | @dataWrite flowID k data hpc =>
    refine .of_loops (fun j _ => ?_) (fun j => ?_) (fun _ _ => id) (hstarts ?_)
    · by_cases hj : j = k <;> simp [setFlow, hj]
    · by_cases hj : j = k <;> simp [setFlow, hj]
    · cases ok <;> rfl
  | closing hpc hr | deferredClose hpc hr => exact runClose_drifts rfl hr
  | _ => exact .of_flows rfl rfl (hstarts rfl)

theorem Drifts.setLoop {pc : TCPLoopPc} {wg : ℕ} {frames : List (ServerFrame × Bool)}
    {limiterEntry : Bool} (hmay : pc.mayClose → (s.flows k).loop.mayClose)
    (hcloses : ∀ flowPc, pc = .closeFlow flowPc → s.Enters k flowPc) :
    s.Drifts ({ s with wg := wg, frames := frames, limiterEntry := limiterEntry }.setLoop k pc)
    where
  id j _ := setLoop_id s k j pc
  table _ _ h := h
  mayClose j hj := by
    by_cases hjk : j = k
    · subst hjk
      rw [setLoop_loop_self] at hj
      exact .inl (hmay hj)
    · exact .inl (setLoop_loop_of_ne s pc hjk ▸ hj)
  starts _ h := h
  closes j flowPc hj := by
    by_cases hjk : j = k
    · subst hjk
      rw [setLoop_loop_self] at hj
      exact .inr (hcloses flowPc hj)
    · exact .inl (setLoop_loop_of_ne s pc hjk ▸ hj)

theorem afterRead_enters {flowPc : CloseFlowPc} (hmay : (s.flows k).loop.mayClose)
    (h : afterRead (s.flows k).id failed = .closeFlow flowPc) : s.Enters k flowPc := by
  unfold afterRead at h
  split_ifs at h
  exact .inl ⟨hmay, true, (TCPLoopPc.closeFlow.inj h).symm⟩

theorem loopStep_drifts (h : s.loopStep k data failed ok = some s') : s.Drifts s' := by
  cases hloop : (s.flows k).loop <;> simp only [loopStep, hloop, some.injEq,
    map_eq_some_iff, reduceCtorEq] at h
  case read =>
    obtain ⟨-, rfl⟩ := of_guard h
    refine .setLoop (fun _ => by rw [hloop]; rfl) fun flowPc hpc => ?_
    split_ifs at hpc
    exact afterRead_enters (by rw [hloop]; rfl) hpc
  case limit data failed =>
    subst h
    refine .setLoop (fun _ => by rw [hloop]; rfl) fun flowPc hpc => ?_
    split_ifs at hpc
  case write data failed =>
    obtain ⟨s₁, hwrite, rfl⟩ := h
    obtain ⟨rfl, -⟩ := writeFrame_cases hwrite
    refine .setLoop (fun _ => by rw [hloop]; rfl) fun flowPc hpc => ?_
    split_ifs at hpc
    exact afterRead_enters (by rw [hloop]; rfl) hpc
  case closing =>
    obtain ⟨r, hr, rfl⟩ := h
    obtain ⟨hflows, hrun, htable⟩ := closeStep_keeps hr
    have hclose : s.Drifts r.1 := .of_loops (fun j _ => (hflows j).1) (fun j => (hflows j).2) htable
      fun j hj => hrun ▸ hj
    split_ifs
    · refine ⟨fun j hj => (setLoop_id _ k j _).trans (hclose.id j hj), hclose.table, fun j hj => ?_,
        hclose.starts, fun j pc hj => ?_⟩ <;> by_cases hjk : j = k
      · subst hjk
        simp [TCPLoopPc.mayClose] at hj
      · exact hclose.mayClose j (setLoop_loop_of_ne r.1 .exiting hjk ▸ hj)
      · subst hjk
        simp at hj
      · exact hclose.closes j pc (setLoop_loop_of_ne r.1 .exiting hjk ▸ hj)
    · exact hclose
  case closeFlow pc =>
    obtain ⟨⟨s₁, next⟩, hr, rfl⟩ := h
    obtain ⟨hflows, hrun, htable⟩ := closeFlowStep_keeps hr
    refine ⟨fun j _ => (setLoop_id _ k j _).trans (hflows j).1, htable, fun j hj => ?_,
      fun j hj => hrun ▸ hj, fun j pc' hj => ?_⟩ <;> by_cases hjk : j = k
    · subst hjk
      rw [setLoop_loop_self, closeFlowStep_deleted hr] at hj
      cases hj
    · exact .inl ((hflows j).2 ▸ setLoop_loop_of_ne s₁ _ hjk ▸ hj)
    · subst hjk
      rw [setLoop_loop_self] at hj
      cases next with
      | none => cases hj
      | some next => exact .inr (.inr ⟨pc, ok, s₁, hloop, by rw [hr, TCPLoopPc.closeFlow.inj hj]⟩)
    · exact .inl ((hflows j).2 ▸ setLoop_loop_of_ne s₁ _ hjk ▸ hj)
  case exiting =>
    subst h
    exact .setLoop (by rintro ⟨⟩) fun flowPc hpc => by cases hpc

end TCPSession
end VlfProto.Session
