import VlfProto.Session.TCP.OwnFlow

/-! # When a loop of a TCP session closes its own flow only -/

namespace VlfProto.Session
open Platform Transition Option

namespace TCPSession

variable {s s' : TCPSession} {label : TCPSessionStep} {ok : Bool} {k flowID : ℕ}

/-- In `closeFlow`, the loop of a flow takes no other flow out of the table and
closes no other target. -/
def ClosesOwnFlow (s : TCPSession) : Prop :=
  ∀ k pc data failed ok s', (s.flows k).loop = .closeFlow pc →
    s.step (.loop k data failed ok) = some s' →
    ∀ j ≠ k, s'.flows j = s.flows j ∧
      ∀ flowID, s.tcpFlows.lookup flowID = some j → s'.tcpFlows.lookup flowID = some j

/-- A flow is filed only when no loop of an earlier flow with the same id may still
close by that id. -/
def ReusesEnded (s : TCPSession) : TCPSessionStep → Prop
  | .run _ _ _ =>
    match s.run with
    | .insert flowID _ => s.tcpFlows.lookup flowID = none →
      ∀ j < s.created, (s.flows j).id = flowID → (s.flows j).loop.mayClose = false
    | _ => True
  | _ => True

instance (s : TCPSession) (label : TCPSessionStep) : Decidable (s.ReusesEnded label) := by
  unfold ReusesEnded
  split
  · split <;> infer_instance
  · infer_instance

structure OwnFlows (s : TCPSession) : Prop where
  consistent : s.Consistent
  about : ∀ k pc, (s.flows k).loop = .closeFlow pc → pc.About k (s.flows k).id
  exclusive : Exclusive (fun k => (s.flows k).id) {k | s.InTable k} s.held

theorem OwnFlows.lt_created (hs : s.OwnFlows) (hk : k ∈ {k | s.InTable k} ∪ s.held) :
    k < s.created := by
  rcases hk with ⟨flowID, hlookup⟩ | hloop | hstarts
  · exact (hs.consistent.table flowID k hlookup).2
  · apply hs.consistent.lt_created
    intro hnot
    simp [hnot, TCPLoopPc.mayClose] at hloop
  · apply (hs.consistent.fresh k _).1
    cases hpc : s.run <;> simp_all [TCPRunPc.starts, TCPRunPc.Fresh]

theorem OwnFlows.lookup (hs : s.OwnFlows) {j : ℕ} (hk : k ∈ s.held)
    (hj : s.tcpFlows.lookup (s.flows k).id = some j) : j = k :=
  hs.exclusive k (.inr hk) j ⟨_, hj⟩ (hs.consistent.table _ j hj).1

theorem OwnFlows.closeFlowStep {r : TCPSession} {pc pc' : CloseFlowPc} (hs : s.OwnFlows)
    (hpc : (s.flows k).loop = .closeFlow pc) (h : s.closeFlowStep ok pc = some (r, some pc')) :
    pc'.About k (s.flows k).id := by
  have habout := hs.about k pc hpc
  generalize hnext : some pc' = next at h
  cases closeFlowStep_cases h with
  | gone | notify => cases hnext
  | delete hlookup =>
    cases hnext
    obtain rfl := habout
    exact hs.lookup (.inl (by rw [hpc]; rfl)) hlookup
  | @closeTarget _ _ notify =>
    cases notify <;> cases hnext
    trivial

theorem OwnFlows.drifts (hs : s.OwnFlows) (hs' : s'.Consistent) (h : s.Drifts s') :
    s'.OwnFlows where
  consistent := hs'
  about k pc hpc := by
    have hid (hstarted : (s.flows k).loop ≠ .notStarted) : (s'.flows k).id = (s.flows k).id :=
      h.id k (hs.consistent.lt_created hstarted)
    rcases h.closes k pc hpc with hold | ⟨hmay, notify, rfl⟩ | ⟨before, ok, r, hbefore, hstep⟩
    · rw [hid (by simp [hold])]
      exact hs.about k pc hold
    · exact (hid fun hnot => by simp [hnot, TCPLoopPc.mayClose] at hmay).symm
    · rw [hid (by simp [hbefore])]
      exact hs.closeFlowStep hbefore hstep
  exclusive := by
    apply hs.exclusive.mono
    · exact fun k hk => h.id k (hs.lt_created hk)
    · rintro k ⟨flowID, hlookup⟩
      exact ⟨flowID, h.table flowID k hlookup⟩
    · rintro k (hloop | hstarts)
      · exact .inr (h.mayClose k hloop)
      · exact .inr (.inr (h.starts k hstarts))

theorem OwnFlows.files (hs : s.OwnFlows) (hpc : s.run = .insert flowID k)
    (hnone : s.tcpFlows.lookup flowID = none)
    (hended : ∀ j < s.created, (s.flows j).id = flowID → (s.flows j).loop.mayClose = false) :
    { s with tcpFlows := s.tcpFlows.insert flowID k, run := .countStream flowID k }.OwnFlows where
  consistent := insert_consistent hs.consistent hpc hnone
  about := hs.about
  exclusive := by
    have hid := (hs.consistent.named flowID k hpc).1
    apply hs.exclusive.file (f := k)
    · rintro j hj hsame
      have hflow : (s.flows j).id = flowID := hsame.trans hid
      have hlt := hs.lt_created hj
      rcases hj with ⟨id, hlookup⟩ | hloop | hstarts
      · rw [← (hs.consistent.table id j hlookup).1, hflow, hnone] at hlookup
        cases hlookup
      · rw [hended j hlt hflow] at hloop
        cases hloop
      · simp [hpc, TCPRunPc.starts] at hstarts
    · rintro j ⟨id, hlookup⟩
      change Finmap.lookup id (s.tcpFlows.insert flowID k) = some j at hlookup
      rw [Table.lookup_insert_eq] at hlookup
      split_ifs at hlookup
      · exact .inl (some.inj hlookup).symm
      · exact .inr ⟨id, hlookup⟩
    · rintro j (hloop | hstarts)
      · exact .inr (.inr (.inl hloop))
      · exact .inl (some.inj hstarts).symm

theorem step_ownFlows (hs : s.OwnFlows) (hreuse : s.ReusesEnded label)
    (h : s.step label = some s') : s'.OwnFlows := by
  have hs' := step_consistent hs.consistent h
  cases label with
  | run frame ok n =>
    by_cases hfiles : ∃ flowID k, s.Files flowID k
    · obtain ⟨flowID, k, hpc, hnone⟩ := hfiles
      simp only [ReusesEnded, hpc] at hreuse
      simp only [step, runStep, hpc, hnone, isSome_none, Bool.false_eq_true, if_false,
        some.injEq] at h
      subst h
      exact hs.files hpc hnone (hreuse hnone)
    · have hnot : ∀ flowID k, ¬s.Files flowID k := fun flowID k hf => hfiles ⟨flowID, k, hf⟩
      exact hs.drifts hs' (runStep_drifts hs.consistent hnot h)
  | loop k data failed ok => exact hs.drifts hs' (loopStep_drifts h)
  | callClose i =>
    obtain ⟨-, rfl⟩ := of_guard h
    exact hs.drifts hs' (.of_flows rfl rfl fun _ => id)
  | closer i =>
    replace h : s.closerStep i = some s' := h
    unfold closerStep at h
    split at h
    · obtain ⟨r, hr, rfl⟩ := map_eq_some_iff.mp h
      obtain ⟨hflows, hrun, htable⟩ := closeStep_keeps hr
      refine hs.drifts hs' ?_
      split_ifs <;> exact .of_loops (fun k _ => (hflows k).1) (fun k => (hflows k).2) htable
        fun k hk => hrun ▸ hk
    · cases h

theorem new_ownFlows (maxFlows : ℤ) : (new maxFlows).OwnFlows where
  consistent := new_consistent maxFlows
  about _ _ h := by cases h
  exclusive := by
    rintro k - j ⟨flowID, hlookup⟩
    simp [new] at hlookup

theorem OwnFlows.closesOwnFlow (hs : s.OwnFlows) : s.ClosesOwnFlow := by
  intro k pc data failed ok s' hpc h j hj
  simp only [step, loopStep, hpc, map_eq_some_iff] at h
  obtain ⟨⟨s₁, next⟩, hr, rfl⟩ := h
  have habout := hs.about k pc hpc
  have hset : (s₁.setLoop k (next.elim .exiting .closeFlow)).flows j = s₁.flows j := by
    simp [setLoop, setFlow, hj]
  rw [hset]
  cases closeFlowStep_cases hr with
  | gone | notify => exact ⟨rfl, fun _ => id⟩
  | delete =>
    obtain rfl := habout
    refine ⟨rfl, fun id hlookup => ?_⟩
    change Finmap.lookup id (s.tcpFlows.erase (s.flows k).id) = some j
    rw [Table.lookup_erase_eq, if_neg, hlookup]
    rintro rfl
    exact hj (hs.lookup (.inl (by rw [hpc]; rfl)) hlookup)
  | closeTarget =>
    obtain rfl := habout
    exact ⟨by simp [closeTarget, setFlow, hj], fun _ => id⟩

theorem path_closesOwnFlow {maxFlows : ℤ} {labels : List TCPSessionStep}
    (hpath : Path step ReusesEnded (new maxFlows) labels s) : s.ClosesOwnFlow := by
  have hown : s.OwnFlows := Path.invariant (fun _ _ _ hs hreuse h => step_ownFlows hs hreuse h)
    hpath (new_ownFlows maxFlows)
  exact hown.closesOwnFlow

end TCPSession
end VlfProto.Session
