import VlfProto.Link.FlowAnswers

/-! # The steps of the session and its UDP flows -/

namespace VlfProto.Link
open Platform Transition Client Session QUICLink Option

namespace FlowPhase

variable {phase : FlowPhase} {s s' : QUICSession} {id : ℕ} {ok : Bool} {uplink : List Frame}
  {downlink : List SessionFrame} {frame : Option Frame} {label : QUICSessionStep}
  {wanted : Prop}

theorem file_lookup {f : FlowRef} {flowID : ℕ} (h : flowID = id) (hkind : f.kind = .udp) :
    ((s.file f flowID).udpFlows.lookup id).isSome := by
  obtain ⟨kind, k⟩ := f
  cases hkind
  subst h
  exact isSome_iff_exists.mpr ⟨k, Finmap.lookup_insert _⟩

theorem closeFlowStep_next {pc : SessionCloseFlowPc} {notify : Bool} {g : SessionGoroutine}
    {r : QUICSession × Option SessionCloseFlowPc} (h : s.closeFlowStep g ok pc = some r) :
    r.2 ≠ some (.delete id notify) := by
  have hafter (flowID : ℕ) (b : Bool) :
      QUICSession.afterClose flowID b ≠ some (.delete id notify) := by
    cases b <;> simp [QUICSession.afterClose]
  cases pc with
  | delete flowID b =>
    cases h
    dsimp only
    split <;> simp
  | closeTCP k udp flowID b =>
    obtain ⟨t, -, rfl⟩ := map_eq_some_iff.mp h
    dsimp only
    split_ifs
    · cases udp with
      | none => exact hafter flowID b
      | some k => simp
    · simp
  | closeUDP k flowID b =>
    cases h
    exact hafter flowID b
  | notify flowID =>
    obtain ⟨t, -, rfl⟩ := map_eq_some_iff.mp h
    simp

theorem controlStep_advances (h : phase.AtServer wanted uplink downlink s id)
    (hkeep : Keeps wanted s s' id) (hread : s.control ≠ .readFrame)
    (hstep : s.controlStep frame ok = some s') :
    phase.Advances wanted uplink downlink s s' id := by
  have hb := QUICSession.Beside.refl s
  cases QUICSession.controlStep_cases hstep with
  | readFrame hpc => exact absurd hpc hread
  | @reply f hpc =>
    cases hf : f.openAnswer with
    | none =>
      refine h.move hkeep rfl (not_mem_delivered ?_) (fun p hp => by cases hp) fun _ hcontrol => by
        cases hcontrol
      simpa using hf
    | some a =>
      refine h.reply hkeep rfl hf ?_ rfl fun _ hcontrol => by cases hcontrol
      simp [hpc, ControlPc.openStage, hf]
  | @openCheck kind p hpc =>
    have hfrom : ofStage id s.control.openStage =
        if p.flowID = id then some (ofKind kind .handled) else none := by rw [hpc]; rfl
    rcases s.openCheck_cases kind p with ⟨reason, hnext⟩ | ⟨hnext, -⟩
    · rw [hnext] at hkeep ⊢
      exact h.goOn .refused hkeep rfl hfrom rfl (by simp) (by simp) (by simp)
    · rw [hnext] at hkeep ⊢
      exact h.goOn .handled hkeep rfl hfrom rfl (by simp) (by simp) (by simp)
  | @dial kind flowID hpc hok =>
    refine h.goOn .handled hkeep ?_ (by rw [hpc]; rfl) rfl (by simp) (by simp) (by simp)
    cases kind <;> rfl
  | @dialFails kind flowID hpc hok =>
    exact h.goOn .refused hkeep rfl (by rw [hpc]; rfl) rfl (by simp) (by simp) (by simp)
  | @insert f flowID hpc hnone =>
    refine h.goOn .filed hkeep ?_ (by rw [hpc]; rfl) rfl (by simp)
      (fun hid hkind _ => file_lookup hid hkind) (by simp)
    obtain ⟨kind, k⟩ := f
    cases kind <;> rfl
  | @duplicate f flowID hpc hsome =>
    exact h.goOn .handled hkeep rfl (by rw [hpc]; rfl) rfl (by simp) (by simp) (by simp)
  | @closeDuplicate f flowID hpc =>
    refine h.goOn .refused hkeep ?_ (by rw [hpc]; rfl) rfl (by simp) (by simp) (by simp)
    obtain ⟨kind, k⟩ := f
    cases kind <;> rfl
  | @writeOpenOK f flowID hpc =>
    refine h.reply hkeep rfl rfl (by rw [hpc]; rfl) ?_ fun notify hcontrol => ?_
    · obtain ⟨kind, k⟩ := f
      cases ok <;> cases kind <;> rfl
    · obtain ⟨kind, k⟩ := f
      cases ok with
      | true => cases kind <;> cases hcontrol
      | false =>
        cases hcontrol
        exact ⟨rfl, rfl, rfl⟩
  | spawn hpc | exiting hpc => exact h.idle hkeep hb rfl rfl (by simp)
  | @closeFlow pc r hpc hr =>
    refine h.idle hkeep (QUICSession.closeFlowStep_shuts hr).toBeside rfl (by cases r.2 <;> rfl) ?_
    intro notify hcontrol
    cases hnext : r.2 with
    | none =>
      rw [hnext] at hcontrol
      cases hcontrol
    | some pc' =>
      rw [hnext] at hcontrol
      exact closeFlowStep_next hr (ControlPc.closeFlow.inj hcontrol ▸ hnext)
  | @closing r hpc hr =>
    have ht := (QUICSession.closeStep_shuts hr).toBeside
    split_ifs at hkeep ⊢
    · exact h.idle hkeep ht rfl rfl (by simp)
    · exact h.beside hkeep ht

/-- A step of the session, which takes the next frame from `uplink` if it reads one. -/
theorem step_advances {l : QUICLink} (h : phase.AtServer wanted l.uplink l.downlink l.server id)
    (hkeep : Keeps wanted l.server s' id) (hconsume : l.consume label = some uplink)
    (hstep : l.server.step label = some s') :
      phase.Advances wanted uplink l.downlink l.server s' id := by
  cases label with
  | control frame ok =>
    by_cases hread : l.server.control = .readFrame
    · simp only [QUICSession.step, QUICSession.controlStep, hread, map_eq_some_iff] at hstep
      obtain ⟨pc, hnext, rfl⟩ := hstep
      cases frame with
      | none =>
        cases hconsume
        cases hnext
        exact h.idle hkeep (.refl _) rfl rfl (by simp)
      | some fr =>
        simp only [consume, hread, if_true] at hconsume
        obtain ⟨hhead, rfl⟩ := of_guard hconsume
        rw [← List.cons_head?_tail hhead] at h
        exact readFrame_advances h hnext
    · have huplink : uplink = l.uplink := by
        cases frame <;> simpa [consume, hread, eq_comm] using hconsume
      exact huplink ▸ controlStep_advances h hkeep hread hstep
  | run frame ok =>
    cases hconsume
    rcases QUICSession.runStep_still hstep with hb | ⟨-, rfl⟩
    · have hkeep' : Keeps wanted l.server { s' with run := l.server.run } id := hkeep
      obtain ⟨phase', sent, hframes, hserver, hphase⟩ := h.beside hkeep' hb.toBeside
      exact ⟨phase', sent, hframes, { hserver with }, hphase⟩
    · exact h.idle hkeep (.refl _) rfl rfl (by simp [QUICSession.start])
  | _ =>
    cases hconsume
    exact h.beside hkeep (QUICSession.step_beside (by simp) (by simp) hstep)

end FlowPhase
end VlfProto.Link
