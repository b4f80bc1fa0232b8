import VlfProto.Client.QUICClient

/-! # The steps of the QUIC client -/

namespace VlfProto.Client
open Platform Session Transition Option

/-- The body of a flow's `Close` has taken the flow out of the table. -/
def leftTable : Once ℕ UDPCloseStage → Bool
  | .running _ .closeIncoming => true
  | .running _ .notify => true
  | .done => true
  | _ => false

namespace QUICUDPFlow

variable {f g : QUICUDPFlow}

theorem recv_same {branch : Branch} {result : QUICUDPFlow × ReadResult}
    (h : f.recv branch = some result) : result.1.id = f.id ∧ result.1.once = f.once ∧
      result.1.incomingClosed = f.incomingClosed := by
  cases branch with
  | data =>
    simp only [recv] at h
    split at h
    · obtain ⟨-, h⟩ := ite_none_right_eq_some.mp h
      exact some.inj h ▸ ⟨rfl, rfl, rfl⟩
    · exact some.inj h ▸ ⟨rfl, rfl, rfl⟩
  | err =>
    simp only [recv] at h
    split at h
    · cases h
    · exact some.inj h ▸ ⟨rfl, rfl, rfl⟩
  | done => exact some.inj h ▸ ⟨rfl, rfl, rfl⟩

theorem pushPayload_same {payload : Bytes} (h : f.pushPayload payload = some g) :
    g.id = f.id ∧ g.once = f.once ∧ g.incomingClosed = f.incomingClosed := by
  unfold pushPayload at h
  split_ifs at h
  all_goals exact some.inj h ▸ ⟨rfl, rfl, rfl⟩

theorem pushErrIf_same (f : QUICUDPFlow) (err : FlowError) (listed : Prop) [Decidable listed] :
    (if listed then f.pushErr err else f).id = f.id ∧
    (if listed then f.pushErr err else f).once = f.once ∧
    (if listed then f.pushErr err else f).incomingClosed = f.incomingClosed := by
  unfold pushErr
  split_ifs <;> exact ⟨rfl, rfl, rfl⟩

end QUICUDPFlow

namespace QUICClient

variable {c c' : QUICClient} {i k : ℕ} {label : QUICStep} {r : QUICClient × Bool}
  {next : Option UInt64} {stage : ClientCloseStage}

theorem setFlow_flows (c : QUICClient) (k : ℕ) (flow : QUICUDPFlow) (k' : ℕ) :
    (c.setFlow k flow).flows k' = if k' = k then flow else c.flows k' := by
  simp [QUICClient.setFlow, Function.update_apply]

/-- What an action of goroutine `i` in the `Close` of flow `k` does. -/
inductive FlowCloseCase (c : QUICClient) (i k : ℕ) : QUICClient × Bool → Prop
  | once {once : Once ℕ UDPCloseStage} {returned : Bool}
      (hleft : leftTable once = leftTable (c.flows k).once) :
      FlowCloseCase c i k (c.setFlow k { c.flows k with once }, returned)
  | delete (hrun : (c.flows k).once = .running i .delete) (hmu : c.udpMu = none) :
      FlowCloseCase c i k
        ({ c with udpFlows := c.udpFlows.erase (c.flows k).id }.setFlow k
          { c.flows k with once := .running i .closeIncoming }, false)
  | closeIncoming (hrun : (c.flows k).once = .running i .closeIncoming) :
      FlowCloseCase c i k (c.setFlow k
        { c.flows k with incomingClosed := true, once := .running i .notify }, false)

theorem closeFlowStep_cases (h : c.closeFlowStep i k = some r) : c.FlowCloseCase i k r := by
  obtain ⟨s, hact, rfl⟩ := map_eq_some_iff.mp h
  rcases Once.act_cases hact with ⟨hidle, rfl⟩ | ⟨stage, c', after, hrun, hbody, rfl⟩ | ⟨hdone, rfl⟩
  · exact .once (by rw [hidle]; rfl)
  · cases stage <;> simp only [flowBody] at hbody
    case delete =>
      obtain ⟨hmu, hbody⟩ := ite_none_right_eq_some.mp hbody
      cases hbody
      exact .delete hrun hmu
    case closeIncoming =>
      cases hbody
      have hcase : c.FlowCloseCase i k _ := .closeIncoming hrun
      simpa [setFlow] using hcase
    case notify =>
      cases hbody
      exact .once (by rw [hrun]; rfl)
  · exact .once (by rw [hdone])

theorem closeFlowStep_same (h : c.closeFlowStep i k = some r) : r.1.users = c.users ∧
    r.1.closeOnce = c.closeOnce ∧ r.1.udpMu = c.udpMu ∧
    (c.udpMu ≠ none → r.1.udpFlows = c.udpFlows) := by
  cases closeFlowStep_cases h with
  | once | closeIncoming => exact ⟨rfl, rfl, rfl, fun _ => rfl⟩
  | delete _ hmu => exact ⟨rfl, rfl, rfl, fun hheld => absurd hmu hheld⟩

/-- What an action in the body of the client's `close` does. -/
inductive CloseCase (c : QUICClient) (i : ℕ) :
    ClientCloseStage → QUICClient × Option ClientCloseStage → Prop
  | visit {flowID : UInt64} {k : ℕ} {visited : List UInt64}
    (hk : c.udpFlows.lookup flowID = some k) :
      CloseCase c i (.range visited) (c, some (.closeFlow k (flowID :: visited)))
  | closeFlow {k : ℕ} {visited : List UInt64} {r : QUICClient × Bool}
      (h : c.closeFlowStep i k = some r) : CloseCase c i (.closeFlow k visited)
        (r.1, some (if r.2 then .range visited else .closeFlow k visited))
  | swap : CloseCase c i .swap ({ c with udpFlows := ∅ }, some .unlock)
  | other {cancelled controlClosed connClosed : Bool} {udpMu : Option ℕ}
      {stage : ClientCloseStage} {after : Option ClientCloseStage}
      (hafter : ∀ k visited, after ≠ some (.closeFlow k visited)) :
      CloseCase c i stage ({ c with cancelled, udpMu, controlClosed, connClosed }, after)

theorem closeBody_cases {s : QUICClient × Option ClientCloseStage}
    (h : c.closeBody i next stage = some s) : c.CloseCase i stage s := by
  cases stage <;> simp only [closeBody] at h
  case closeFlow =>
    obtain ⟨r, hstep, rfl⟩ := map_eq_some_iff.mp h
    exact .closeFlow hstep
  case lock =>
    obtain ⟨-, hr⟩ := ite_none_right_eq_some.mp h
    exact some.inj hr ▸ .other (by simp)
  case range =>
    split at h
    · obtain ⟨-, hr⟩ := ite_none_left_eq_some.mp h
      obtain ⟨k, hk, rfl⟩ := map_eq_some_iff.mp hr
      exact .visit hk
    · obtain ⟨-, hr⟩ := ite_none_right_eq_some.mp h
      exact some.inj hr ▸ .other (by simp)
  case swap => exact some.inj h ▸ .swap
  all_goals exact some.inj h ▸ .other (by simp)

/-- Receiving goes on beside the opening and the closing of flows. -/
structure Beside (c c' : QUICClient) : Prop where
  table : c'.udpFlows = c.udpFlows
  created : c'.created = c.created
  users : c'.users = c.users
  closeOnce : c'.closeOnce = c.closeOnce
  udpMu : c'.udpMu = c.udpMu
  flow : ∀ k, (c'.flows k).id = (c.flows k).id ∧ (c'.flows k).once = (c.flows k).once ∧
    (c'.flows k).incomingClosed = (c.flows k).incomingClosed
  held : ∀ k ∈ c'.loop.held, k ∈ c.loop.held ∨ ∃ flowID, c.udpFlows.lookup flowID = some k

theorem Beside.refl (c : QUICClient) : c.Beside c :=
  ⟨rfl, rfl, rfl, rfl, rfl, fun _ => ⟨rfl, rfl, rfl⟩, fun _ => .inl⟩

theorem beside_setFlow {flow : QUICUDPFlow} (hid : flow.id = (c.flows k).id ∧
    flow.once = (c.flows k).once ∧ flow.incomingClosed = (c.flows k).incomingClosed) :
    c.Beside (c.setFlow k flow) := by
  refine { Beside.refl c with flow := fun k' => ?_ }
  rw [setFlow_flows]
  split_ifs with hk
  · exact hk ▸ hid
  · exact ⟨rfl, rfl, rfl⟩

theorem Beside.setLoop (h : c.Beside c') {pc : DatagramPc} (hheld : ∀ k ∈ pc.held,
    k ∈ c.loop.held ∨ ∃ flowID, c.udpFlows.lookup flowID = some k) :
    c.Beside { c' with loop := pc } :=
  { h with held := hheld }

theorem loopStep_beside {now : ℤ} (h : c.loopStep now = some c') : c.Beside c' := by
  cases hloop : c.loop <;> simp only [loopStep, hloop, reduceCtorEq] at h
  case lookup pkt =>
    obtain ⟨-, rfl⟩ := of_guard h
    refine (Beside.refl c).setLoop fun k hk => ?_
    split at hk
    · cases hk
    · rename_i k' hlookup
      obtain rfl := some.inj hk
      exact .inr ⟨_, hlookup⟩
  case add k pkt =>
    cases h
    have hset : c.Beside (c.setFlow k { c.flows k with
        reassembly := ((c.flows k).reassembly.add now pkt).1 }) := beside_setFlow ⟨rfl, rfl, rfl⟩
    refine hset.setLoop fun k' hk' => .inl ?_
    split at hk'
    · cases hk'
    · cases hk'
      rw [hloop]
      rfl
  case push k payload =>
    split at h
    · exact some.inj h ▸ { Beside.refl c with held := fun k hk => .inl (hloop ▸ hk) }
    · rename_i flow hpush
      exact some.inj h ▸ (beside_setFlow (QUICUDPFlow.pushPayload_same hpush)).setLoop (by nofun)
  case failed err =>
    obtain ⟨-, rfl⟩ := of_guard h
    exact { Beside.refl c with
      flow := fun k => QUICUDPFlow.pushErrIf_same (c.flows k) err _
      held := by nofun }

/-- What a step does. -/
inductive StepCase (c : QUICClient) : QUICStep → QUICClient → Prop
  | call {label : QUICStep} {i : ℕ} {pc : UserPc} (hidle : c.users i = .idle)
      (hpc : ∀ k, pc = .closeFlow k → k < c.created)
      (hopen : ∀ flowID, pc = .insert flowID → label = .openUDPFlow i flowID) :
      StepCase c label (c.setUser i pc)
  | insert {i : ℕ} {next : Option UInt64} {flowID : UInt64} (hpc : c.users i = .insert flowID)
      (hmu : c.udpMu = none) :
      StepCase c (.user i next) ((c.insertFlow flowID).setUser i .idle)
  | closeFlow {i k : ℕ} {next : Option UInt64} {r : QUICClient × Bool}
      (hpc : c.users i = .closeFlow k) (h : c.closeFlowStep i k = some r) :
      StepCase c (.user i next) (if r.2 then r.1.setUser i .idle else r.1)
  | close {i : ℕ} {next : Option UInt64} {r : QUICClient × Bool} (hpc : c.users i = .close)
      (h : c.closeStep i next = some r) :
      StepCase c (.user i next) (if r.2 then r.1.setUser i .idle else r.1)
  | beside {label : QUICStep} {c' : QUICClient} (h : c.Beside c') : StepCase c label c'

theorem step_cases (h : c.step label = some c') : c.StepCase label c' := by
  obtain ⟨-, h⟩ := ite_none_left_eq_some.mp h
  cases label with
  | openUDPFlow | close =>
    obtain ⟨hidle, rfl⟩ := of_guard h
    exact .call hidle (by simp) (by simp)
  | closeFlow i k =>
    obtain ⟨⟨hidle, hk⟩, rfl⟩ := of_guard h
    exact .call hidle (fun k' hk' => by cases hk'; exact hk) (by simp)
  | user i next =>
    cases hpc : c.users i <;> simp only [userStep, hpc, reduceCtorEq] at h
    case insert flowID =>
      obtain ⟨hmu, rfl⟩ := of_guard h
      exact .insert hpc hmu
    case closeFlow k =>
      obtain ⟨r, hr, rfl⟩ := map_eq_some_iff.mp h
      exact .closeFlow hpc hr
    case close =>
      obtain ⟨r, hr, rfl⟩ := map_eq_some_iff.mp h
      exact .close hpc hr
  | recv k branch =>
    obtain ⟨-, h⟩ := ite_none_right_eq_some.mp h
    obtain ⟨result, hrecv, rfl⟩ := map_eq_some_iff.mp h
    exact .beside (beside_setFlow (QUICUDPFlow.recv_same hrecv))
  | receive raw =>
    obtain ⟨-, h⟩ := ite_none_right_eq_some.mp h
    split at h
    · exact some.inj h ▸ .beside (.refl c)
    · exact some.inj h ▸ .beside ((Beside.refl c).setLoop (by nofun))
  | receiveError err =>
    obtain ⟨-, rfl⟩ := of_guard h
    exact .beside ((Beside.refl c).setLoop (by nofun))
  | loop now => exact .beside (loopStep_beside h)

end QUICClient
end VlfProto.Client
