import VlfProto.Client.UDPFlowClose

/-! # How UDP flows enter and leave the table of the QUIC client -/

namespace VlfProto.Client
open Platform Session Transition Option Nat

namespace QUICClient

variable {c c' d : QUICClient} {i k : ℕ} {label : QUICStep} {r : QUICClient × Bool}
  {next : Option UInt64} {after : Option ClientCloseStage} {stage : ClientCloseStage}

structure Known (c : QUICClient) : Prop where
  table : ∀ flowID k, c.udpFlows.lookup flowID = some k → k < c.created
  user : ∀ i k, c.users i = .closeFlow k → k < c.created
  closing : ∀ i k visited, c.closeOnce = .running i (.closeFlow k visited) → k < c.created

/-- No flow is entered. -/
structure Still (c c' : QUICClient) : Prop where
  created : c'.created = c.created
  table : ∀ flowID k, c'.udpFlows.lookup flowID = some k → c.udpFlows.lookup flowID = some k
  id : ∀ k, (c'.flows k).id = (c.flows k).id
  left : ∀ k, leftTable (c'.flows k).once → leftTable (c.flows k).once ∨
    k < c.created ∧ c'.udpFlows.lookup (c.flows k).id = none
  insert : ∀ i flowID, c'.users i = .insert flowID → c.users i = .insert flowID

theorem initial_known : initial.Known where
  table _ _ h := by simp [initial] at h
  user _ _ h := by cases h
  closing _ _ _ h := by cases h

theorem Still.refl (c : QUICClient) : c.Still c :=
  ⟨rfl, fun _ _ h => h, fun _ => rfl, fun _ => .inl, fun _ _ h => h⟩

theorem Still.of_same (h : c.Still d) (htable : c'.udpFlows = d.udpFlows)
    (hflows : c'.flows = d.flows) (hcreated : c'.created = d.created)
    (husers : ∀ i flowID, c'.users i = .insert flowID → d.users i = .insert flowID) :
    c.Still c' where
  created := hcreated.trans h.created
  table flowID k hk := h.table flowID k (htable ▸ hk)
  id k := by rw [hflows, h.id]
  left k hk := by
    rw [htable]
    exact h.left k (hflows ▸ hk)
  insert i flowID hi := h.insert i flowID (husers i flowID hi)

theorem Still.setFlow {flow : QUICUDPFlow} (h : c.Still d) (hid : flow.id = (d.flows k).id)
    (hleft : leftTable flow.once → leftTable (d.flows k).once) : c.Still (d.setFlow k flow) := by
  refine { h with id := fun k' => ?_, left := fun k' hk' => ?_ }
  · rw [setFlow_flows]
    split_ifs with hk
    · rw [hid, ← hk, h.id]
    · exact h.id k'
  · rw [setFlow_flows] at hk'
    split_ifs at hk' with hk
    · exact h.left k' (hk ▸ hleft hk')
    · exact h.left k' hk'

theorem closeFlowStep_still (hk : k < c.created) (h : c.closeFlowStep i k = some r) :
    c.Still r.1 := by
  cases closeFlowStep_cases h with
  | once hleft => exact (Still.refl c).setFlow rfl fun h => hleft ▸ h
  | delete =>
    refine ⟨rfl, fun flowID k' hlookup => ?_, fun k' => ?_, fun k' hleft => ?_, fun _ _ hu => hu⟩
    · change (c.udpFlows.erase (c.flows k).id).lookup flowID = some k' at hlookup
      rw [Table.lookup_erase_eq] at hlookup
      split_ifs at hlookup
      exact hlookup
    · rw [setFlow_flows]
      split_ifs with hk'
      · rw [hk']
      · rfl
    · rw [setFlow_flows] at hleft
      split_ifs at hleft with hk'
      · subst hk'
        exact .inr ⟨hk, Finmap.lookup_erase _ _⟩
      · exact .inl hleft
  | closeIncoming hrun => exact (Still.refl c).setFlow rfl fun _ => by rw [hrun]; rfl

theorem closeBody_still (hk : ∀ k visited, stage = .closeFlow k visited → k < c.created)
    (h : c.closeBody i next stage = some (c', after)) : c.Still c' := by
  cases closeBody_cases h with
  | visit => exact .refl c
  | closeFlow hstep => exact closeFlowStep_still (hk _ _ rfl) hstep
  | swap => exact { Still.refl c with table := fun _ _ h => by simp at h, left := fun _ => .inl }
  | other => exact { Still.refl c with }

theorem closeStep_still (h : c.Known) (hstep : c.closeStep i next = some r) : c.Still r.1 := by
  obtain ⟨s, hact, rfl⟩ := map_eq_some_iff.mp hstep
  rcases Once.act_cases hact with ⟨-, rfl⟩ | ⟨stage, c', after, hrun, hbody, rfl⟩ | ⟨-, rfl⟩
  · exact { Still.refl c with }
  · have hk : ∀ k visited, stage = .closeFlow k visited → k < c.created := by
      rintro k visited rfl
      exact h.closing i k visited hrun
    exact { closeBody_still hk hbody with }
  · exact { Still.refl c with }

theorem Still.setUser {pc : UserPc} (h : c.Still d) (hpc : ∀ flowID, pc ≠ .insert flowID) :
    c.Still (d.setUser i pc) := by
  refine h.of_same rfl rfl rfl fun j flowID hj => ?_
  by_cases hi : j = i
  · subst hi
    exact absurd (by simpa [QUICClient.setUser] using hj) (hpc flowID)
  · simpa [QUICClient.setUser, hi] using hj

theorem Beside.still (h : c.Beside c') : c.Still c' where
  created := h.created
  table _ _ hk := h.table ▸ hk
  id k := (h.flow k).1
  left k hk := .inl ((h.flow k).2.1 ▸ hk)
  insert _ _ hi := h.users ▸ hi

/-- Every step but the one that brings a goroutine to the end of `openUDPFlow`. -/
theorem step_still (h : c.Known) (hopen : ∀ i flowID, label ≠ .openUDPFlow i flowID)
    (hstep : c.step label = some c') : c.Still c' ∨
      ∃ i flowID, c.users i = .insert flowID ∧ c' = (c.insertFlow flowID).setUser i .idle := by
  cases step_cases hstep with
  | call _ _ hpc =>
    exact .inl ((Still.refl c).setUser fun flowID hf => hopen _ flowID (hpc flowID hf))
  | insert hpc => exact .inr ⟨_, _, hpc, rfl⟩
  | closeFlow hpc hr =>
    have ht := closeFlowStep_still (h.user _ _ hpc) hr
    left
    split_ifs
    · exact ht.setUser (by simp)
    · exact ht
  | close _ hr =>
    have ht := closeStep_still h hr
    left
    split_ifs
    · exact ht.setUser (by simp)
    · exact ht
  | beside hbeside => exact .inl hbeside.still

theorem Known.of_still (h : c.Known) (hstill : c.Still c')
    (huser : ∀ i k, c'.users i = .closeFlow k → c.users i = .closeFlow k ∨ k < c.created)
    (hclosing : ∀ i k visited, c'.closeOnce = .running i (.closeFlow k visited) → k < c.created) :
    c'.Known where
  table flowID k hk := hstill.created ▸ h.table flowID k (hstill.table flowID k hk)
  user i k hk := hstill.created ▸ (huser i k hk).elim (h.user i k) id
  closing i k visited hk := hstill.created ▸ hclosing i k visited hk

theorem Known.setUser {pc : UserPc} (h : c.Known) (hpc : ∀ k, pc = .closeFlow k → k < c.created) :
    (c.setUser i pc).Known where
  table := h.table
  user j k hj := by
    by_cases hi : j = i
    · subst hi
      exact hpc k (by simpa [QUICClient.setUser] using hj)
    · exact h.user j k (by simpa [QUICClient.setUser, hi] using hj)
  closing := h.closing

theorem closeBody_closes (h : c.Known)
    (hk : ∀ k visited, stage = .closeFlow k visited → k < c.created)
    (hbody : c.closeBody i next stage = some (c', after)) :
    c'.users = c.users ∧ ∀ k visited, after = some (.closeFlow k visited) → k < c.created := by
  cases closeBody_cases hbody with
  | visit hlookup =>
    refine ⟨rfl, fun k' visited' hafter => ?_⟩
    cases hafter
    exact h.table _ _ hlookup
  | closeFlow hstep =>
    refine ⟨(closeFlowStep_same hstep).1, fun k' visited' hafter => ?_⟩
    split_ifs at hafter
    · cases hafter
    · cases hafter
      exact hk _ _ rfl
  | swap => exact ⟨rfl, by simp⟩
  | other hafter => exact ⟨rfl, fun k visited h => absurd h (hafter k visited)⟩

theorem closeStep_known (h : c.Known) (hstep : c.closeStep i next = some r) : r.1.Known := by
  have hstill := closeStep_still h hstep
  obtain ⟨s, hact, rfl⟩ := map_eq_some_iff.mp hstep
  rcases Once.act_cases hact with ⟨-, rfl⟩ | ⟨stage, c', after, hrun, hbody, rfl⟩ | ⟨-, rfl⟩
  · exact h.of_still hstill (fun _ _ => .inl) fun j k visited hj => by cases hj
  · have hk : ∀ k visited, stage = .closeFlow k visited → k < c.created := by
      rintro k visited rfl
      exact h.closing i k visited hrun
    obtain ⟨husers, hafter⟩ := closeBody_closes h hk hbody
    refine h.of_still hstill (fun j k hj => .inl (husers ▸ hj)) fun j k visited hj => ?_
    cases after with
    | none => cases hj
    | some after =>
      cases hj
      exact hafter k visited rfl
  · exact h.of_still hstill (fun _ _ => .inl) fun j k visited hj => by cases hj

theorem Beside.known (hbeside : c.Beside c') (h : c.Known) : c'.Known :=
  h.of_still hbeside.still (fun _ _ hj => .inl (hbeside.users ▸ hj))
    fun j k visited hj => h.closing j k visited (hbeside.closeOnce ▸ hj)

theorem step_known (h : c.Known) (hstep : c.step label = some c') : c'.Known := by
  cases step_cases hstep with
  | call _ hk => exact h.setUser hk
  | insert =>
    refine Known.setUser ⟨fun id k hk => ?_, fun j k hk => lt_succ_of_lt (h.user j k hk),
      fun j k visited hk => lt_succ_of_lt (h.closing j k visited hk)⟩ (by simp)
    simp only [insertFlow, Table.lookup_insert_eq] at hk
    split_ifs at hk
    · cases hk
      exact lt_succ_self _
    · exact lt_succ_of_lt (h.table id k hk)
  | closeFlow hpc hr =>
    obtain ⟨husers, honce, -⟩ := closeFlowStep_same hr
    have ht := h.of_still (closeFlowStep_still (h.user _ _ hpc) hr)
      (fun j k hj => .inl (husers ▸ hj))
      fun j k visited hj => h.closing j k visited (honce ▸ hj)
    split_ifs
    · exact ht.setUser (by simp)
    · exact ht
  | close _ hr =>
    have ht := closeStep_known h hr
    split_ifs
    · exact ht.setUser (by simp)
    · exact ht
  | beside hbeside => exact hbeside.known h

end QUICClient
end VlfProto.Client
