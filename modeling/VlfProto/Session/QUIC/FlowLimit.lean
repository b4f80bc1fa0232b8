import VlfProto.Session.QUIC.BesideSteps
import VlfProto.Session.QUIC.ControlCases

/-! # How many flows a QUIC session has -/

namespace VlfProto.Session
open Platform Transition Table

/-- The id of the flow that the control loop is past the checks for and has not filed. -/
def ControlPc.admitted : ControlPc → Option ℕ
  | .dial _ flowID => some flowID
  | .insert _ flowID => some flowID
  | _ => none

namespace QUICSession

variable {s s' t : QUICSession} {ok : Bool} {frame : Option Frame} {label : QUICSessionStep}
  {maxFlows : ℤ} {flowID : ℕ} {f : FlowRef}

structure Bounded (maxFlows : ℤ) (s : QUICSession) : Prop where
  maxFlows_eq : s.cfg.maxFlows = maxFlows
  count : (s.flowCount : ℤ) ≤ max maxFlows 0
  room : ∀ flowID, s.control.admitted = some flowID → flowID ≠ 0 ∧ (s.flowCount : ℤ) < maxFlows
  table : ∀ kind, (s.table kind).lookup 0 = none
  nonzero : ∀ f : FlowRef, f.index < s.created f.kind → s.flowID f ≠ 0

theorem new_bounded (cfg : SessionConfig) (id : UInt64) (limits : Limits.Manager) :
    (new cfg id limits).Bounded cfg.maxFlows where
  maxFlows_eq := rfl
  count := le_max_right _ _
  room _ h := by cases h
  table kind := by cases kind <;> rfl
  nonzero f h := by
    obtain ⟨kind, k⟩ := f
    cases kind <;> exact absurd h (Nat.not_lt_zero k)

theorem Beside.flowCount_le (h : s.Beside s') : s'.flowCount ≤ s.flowCount :=
  Nat.add_le_add (card_keys_le (h.table .tcp)) (card_keys_le (h.table .udp))

theorem Bounded.beside (h : s.Bounded maxFlows) (hb : s.Beside s') : s'.Bounded maxFlows where
  maxFlows_eq := hb.cfg ▸ h.maxFlows_eq
  count := (Int.ofNat_le.mpr hb.flowCount_le).trans h.count
  room flowID hid := by
    obtain ⟨hne, hlt⟩ := h.room flowID (hb.control ▸ hid)
    exact ⟨hne, (Int.ofNat_le.mpr hb.flowCount_le).trans_lt hlt⟩
  table kind := by
    rw [Option.eq_none_iff_forall_ne_some]
    intro k hk
    have hold := hb.table kind 0 k hk
    rw [h.table] at hold
    cases hold
  nonzero f hf := by
    rw [hb.flowID]
    exact h.nonzero f (hb.created f.kind ▸ hf)

theorem Bounded.setControl {pc : ControlPc} {wg : ℕ} {frames : List (SessionFrame × Bool)}
    (h : s.Bounded maxFlows) (hpc : pc.admitted = none) :
    { s with control := pc, wg, frames }.Bounded maxFlows :=
  { h with room := fun flowID hid => by rw [hpc] at hid; cases hid }

theorem admitted_of_entry {pc : ControlPc} (h : pc.entry) : pc.admitted = none := by
  cases pc <;> first | rfl | cases h

theorem created_createFlow {kind : FlowKind} :
    f.index < (s.createFlow flowID kind).created f.kind ↔
      f.index < s.created f.kind ∨ f = ⟨kind, s.created kind⟩ := by
  obtain ⟨kind', k⟩ := f
  cases kind <;> cases kind' <;>
    simp [createFlow, created, setTCP, setUDP, le_iff_lt_or_eq]

theorem createFlow_flowID_new (s : QUICSession) (flowID : ℕ) (kind : FlowKind) :
    (s.createFlow flowID kind).flowID ⟨kind, s.created kind⟩ = flowID := by
  cases kind <;> simp [QUICSession.flowID, createFlow, setTCP, setUDP, created]

theorem createFlow_old (flowID : ℕ) (kind : FlowKind) (hf : f.index < s.created f.kind) :
    (s.createFlow flowID kind).flowID f = s.flowID f ∧
      (s.createFlow flowID kind).socketClosed f = s.socketClosed f := by
  obtain ⟨kind', k⟩ := f
  have hne := Nat.ne_of_lt hf
  cases kind <;> cases kind' <;>
    simp_all [QUICSession.flowID, QUICSession.socketClosed, createFlow, setTCP, setUDP, created]

theorem createFlow_bounded {kind : FlowKind} (h : s.Bounded maxFlows)
    (hpc : s.control = .dial kind flowID) :
    { s.createFlow flowID kind with
      control := .insert ⟨kind, s.created kind⟩ flowID }.Bounded maxFlows := by
  obtain ⟨hne, hlt⟩ := h.room flowID (by rw [hpc]; rfl)
  have hnonzero : ∀ f : FlowRef, f.index < (s.createFlow flowID kind).created f.kind →
      (s.createFlow flowID kind).flowID f ≠ 0 := by
    intro f hf
    rcases created_createFlow.mp hf with hold | rfl
    · rw [(createFlow_old flowID kind hold).1]
      exact h.nonzero f hold
    · rwa [createFlow_flowID_new]
  cases kind <;>
    exact ⟨h.maxFlows_eq, h.count, fun id hid => (by cases hid; exact ⟨hne, hlt⟩), h.table,
      hnonzero⟩

theorem file_flowCount (hnone : (s.table f.kind).lookup flowID = none) :
    (s.file f flowID).flowCount = s.flowCount + 1 := by
  obtain ⟨kind, k⟩ := f
  cases kind with
  | tcp =>
    have hcard : (s.tcpFlows.insert flowID k).keys.card = s.tcpFlows.keys.card + 1 :=
      card_keys_insert hnone k
    change (s.tcpFlows.insert flowID k).keys.card + s.udpFlows.keys.card = _
    rw [hcard, flowCount]
    exact Nat.add_right_comm _ _ _
  | udp =>
    have hcard : (s.udpFlows.insert flowID k).keys.card = s.udpFlows.keys.card + 1 :=
      card_keys_insert hnone k
    change s.tcpFlows.keys.card + (s.udpFlows.insert flowID k).keys.card = _
    rw [hcard, flowCount]
    exact (Nat.add_assoc _ _ _).symm

theorem file_bounded (h : s.Bounded maxFlows) (hpc : s.control = .insert f flowID)
    (hnone : (s.table f.kind).lookup flowID = none) :
    { s.file f flowID with control := .writeOpenOK f flowID }.Bounded maxFlows := by
  obtain ⟨hne, hlt⟩ := h.room flowID (by rw [hpc]; rfl)
  have hcount : ((s.file f flowID).flowCount : ℤ) ≤ max maxFlows 0 := by
    rw [file_flowCount hnone]
    exact le_max_of_le_left hlt
  have htable : ∀ kind, ((s.file f flowID).table kind).lookup 0 = none := by
    intro kind
    have hzero := h.table kind
    obtain ⟨kind', k⟩ := f
    cases kind' <;> cases kind <;>
      first
      | exact hzero
      | exact (Finmap.lookup_insert_of_ne _ hne.symm).trans hzero
  obtain ⟨kind, k⟩ := f
  cases kind <;> exact ⟨h.maxFlows_eq, hcount, fun id hid => (by cases hid), htable, h.nonzero⟩

theorem controlStep_bounded (h : s.Bounded maxFlows) (hstep : s.controlStep frame ok = some s') :
    s'.Bounded maxFlows := by
  cases controlStep_cases hstep with
  | readFrame _ _ hentry => exact h.setControl (admitted_of_entry hentry)
  | reply | dialFails | duplicate | exiting => exact h.setControl rfl
  | @openCheck kind p hpc =>
    rcases s.openCheck_cases kind p with ⟨reason, hnext⟩ | ⟨hnext, hne, hlt⟩
    · rw [hnext]
      exact h.setControl rfl
    · rw [hnext]
      rw [h.maxFlows_eq] at hlt
      refine { h with room := fun flowID hid => ?_ }
      cases hid
      exact ⟨hne, hlt⟩
  | dial hpc => exact createFlow_bounded h hpc
  | insert hpc hnone => exact file_bounded h hpc hnone
  | closeDuplicate => exact (h.beside (s.dropFlow_shuts _).toBeside).setControl rfl
  | @writeOpenOK f flowID hpc =>
    obtain ⟨kind, k⟩ := f
    refine h.setControl ?_
    cases ok <;> cases kind <;> rfl
  | spawn => exact (h.beside (Aside.refl s).setReader.toBeside).setControl rfl
  | @closeFlow pc r hpc hr =>
    exact (h.beside (closeFlowStep_shuts hr).toBeside).setControl (by cases r.2 <;> rfl)
  | closing hpc hr =>
    have hr := h.beside (closeStep_shuts hr).toBeside
    split_ifs
    · exact hr.setControl rfl
    · exact hr

theorem step_bounded (h : s.Bounded maxFlows) (hstep : s.step label = some s') :
    s'.Bounded maxFlows := by
  cases label with
  | run frame ok =>
    rcases runStep_still hstep with hb | ⟨-, rfl⟩
    · exact { h.beside hb.toBeside with }
    · exact { h with room := fun flowID hid => by cases hid }
  | control frame ok => exact controlStep_bounded h hstep
  | _ => exact h.beside (step_beside (by simp) (by simp) hstep)

end QUICSession
end VlfProto.Session
