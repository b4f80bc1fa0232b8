import VlfProto.Link.FlowPhase

/-! # The session brings a UDP flow from its request to its answer -/

namespace VlfProto.Link
open Platform Transition Client Session QUICLink Option List

namespace FlowPhase

variable {phase phase' : FlowPhase} {s s' : QUICSession} {id g : ℕ} {ok : Bool}
  {uplink written : List Frame} {downlink : List SessionFrame} {frame : Option Frame}
  {sent : List (SessionFrame × Bool)} {wanted wanted' : Prop} {fr : Frame}

theorem ofStage_mem {p : FlowPhase} {stage : OpenStage} (h : ofStage id stage = some p) :
    p ∈ [.handled, .filed, .refused, .ended] := by
  have hkind (kind : FlowKind) : ofKind kind .handled ∈ [.handled, .filed, .refused, .ended] := by
    cases kind <;> simp [ofKind]
  cases stage with
  | idle => cases h
  | checking kind flowID | dialed kind flowID k =>
    obtain ⟨-, h⟩ := ite_none_right_eq_some.mp h
    exact some.inj h ▸ hkind kind
  | answering a =>
    obtain ⟨-, h⟩ := ite_none_right_eq_some.mp h
    rw [← some.inj h]
    cases a.kind <;> cases a.ok <;> simp [ofKind]

/-- The client goes on with a flow that was granted to it, or gives the id to a TCP flow. -/
theorem AtServer.later (h : phase.AtServer wanted uplink downlink s id)
    (hphase : phase ∈ [.fresh, .granted, .inserting, .registered])
    (hphase' : phase' = .ended ∨ phase ≠ .fresh ∧ phase' ∈ [.inserting, .registered]) :
    phase'.AtServer wanted uplink downlink s id where
  asked := by
    have hne : phase ≠ .queued := by rintro rfl; simp at hphase
    have hne' : phase' ≠ .queued := by rintro rfl; simp at hphase'
    rw [h.asked, if_neg hne, if_neg hne']
  ends frame hframe hends := by
    rw [h.ends frame hframe hends] at hphase
    simp at hphase
  stage p hp := by
    have hmem := ofStage_mem hp
    rw [← h.stage p hp] at hmem
    revert hphase hmem
    cases phase <;> simp
  table hwanted hmem := by
    refine h.table hwanted ?_
    revert hphase hphase' hmem
    cases phase <;> cases phase' <;> simp
  closing notify hcontrol := by
    have hmem := h.closing notify hcontrol
    revert hphase hmem
    cases phase <;> simp
  answered _ := by
    revert hphase'
    cases phase' <;> simp

/-- The client writes frames that do not ask for the flow, and ends it only if it has ended. -/
theorem AtServer.write (h : phase.AtServer wanted uplink downlink s id)
    (hopen : (written.filterMap openRequest).count (.udp, id) = 0)
    (hends : ∀ frame ∈ written, endsFlow id frame → phase = .ended) :
    phase.AtServer wanted (uplink ++ written) downlink s id :=
  { h with
    asked := by rw [filterMap_append, count_append, h.asked, hopen, Nat.add_zero]
    ends := fun frame hframe => (mem_append.mp hframe).elim (h.ends frame) (hends frame) }

theorem AtServer.ask (h : fresh.AtServer wanted uplink downlink s id)
    (hopen : openRequest fr = some (.udp, id)) (hclose : closeRequest fr = none) :
    queued.AtServer wanted' (uplink ++ [fr]) downlink s id where
  asked := by
    rw [filterMap_append, count_append, h.asked, filterMap_cons_some hopen]
    simp
  ends frame hframe hends := by
    rcases mem_append.mp hframe with hold | hnew
    · cases h.ends frame hold hends
    · simp [mem_singleton.mp hnew, endsFlow, hopen, hclose] at hends
  stage p hp := by
    have hmem := ofStage_mem hp
    rw [← h.stage p hp] at hmem
    simp at hmem
  table _ hmem := by simp at hmem
  closing notify hcontrol := by simpa using h.closing notify hcontrol
  answered hok := by simpa using h.answered hok

theorem AtServer.mono (h : phase.AtServer wanted uplink downlink s id)
    (hwanted : wanted' → wanted) : phase.AtServer wanted' uplink downlink s id :=
  { h with table := fun hw => h.table (hwanted hw) }

theorem AtServer.read (h : phase.AtServer wanted uplink downlink s id) :
    phase.AtServer wanted uplink downlink.tail s id :=
  { h with answered := fun hok => h.answered (mem_of_mem_tail hok) }

/-- A flow that is wanted stays filed, unless the control loop deletes it. -/
def Keeps (wanted : Prop) (s s' : QUICSession) (id : ℕ) : Prop :=
  wanted → (s.udpFlows.lookup id).isSome →
    (s'.udpFlows.lookup id).isSome ∨ ∃ notify, s.control = .closeFlow (.delete id notify)

/-- The session keeps the phase of a flow, or goes on with one that the client waits for. -/
def Advances (phase : FlowPhase) (wanted : Prop) (uplink : List Frame)
    (downlink : List SessionFrame) (s s' : QUICSession) (id : ℕ) : Prop :=
  ∃ (phase' : FlowPhase) (sent : List (SessionFrame × Bool)), s'.frames = s.frames ++ sent ∧
    phase'.AtServer wanted uplink (downlink ++ delivered sent) s' id ∧
    (phase' = phase ∨ phase ∈ [.queued, .handled, .filed] ∧
      phase' ∈ [.handled, .filed, .granted, .refused])

theorem AtServer.keeps_table (h : phase.AtServer wanted uplink downlink s id)
    (hkeep : Keeps wanted s s' id) (hwanted : wanted)
    (hphase : phase ∈ [.filed, .granted, .inserting, .registered]) :
    (s'.udpFlows.lookup id).isSome := by
  rcases hkeep hwanted (h.table hwanted hphase) with hin | ⟨notify, hcontrol⟩
  · exact hin
  · have hmem := h.closing notify hcontrol
    revert hphase hmem
    cases phase <;> simp

theorem AtServer.move (h : phase.AtServer wanted uplink downlink s id)
    (hkeep : Keeps wanted s s' id) (hframes : s'.frames = s.frames ++ sent)
    (hsent : .openOK .udp id ∉ delivered sent)
    (hstage : ∀ p, ofStage id s'.control.openStage = some p →
      ofStage id s.control.openStage = some p)
    (hclosing : ∀ notify, s'.control = .closeFlow (.delete id notify) →
      phase ∈ [.refused, .ended]) :
    phase.Advances wanted uplink downlink s s' id := by
  refine ⟨phase, sent, hframes, { h with
    stage := fun p hp => h.stage p (hstage p hp)
    table := h.keeps_table hkeep
    closing := hclosing
    answered := fun hok => ?_ }, .inl rfl⟩
  exact h.answered ((mem_append.mp hok).resolve_right hsent)

theorem not_mem_delivered (hanswer : ∀ f ∈ sent, f.1.openAnswer = none) :
    .openOK .udp id ∉ delivered sent := by
  intro hok
  obtain ⟨f, hf, hdelivered⟩ := mem_filterMap.mp hok
  obtain ⟨-, hdelivered⟩ := ite_none_right_eq_some.mp hdelivered
  have hnone := hanswer f hf
  rw [some.inj hdelivered] at hnone
  cases hnone

theorem AtServer.beside (h : phase.AtServer wanted uplink downlink s id)
    (hkeep : Keeps wanted s s' id) (hb : s.Beside s') :
    phase.Advances wanted uplink downlink s s' id := by
  obtain ⟨sent, hsent, hanswer⟩ := hb.frames
  exact h.move hkeep hsent (not_mem_delivered hanswer) (fun p hp => hb.control ▸ hp)
    fun notify hcontrol => h.closing notify (hb.control ▸ hcontrol)

/-- The control loop goes on to a place where it has no request in hand. -/
theorem AtServer.idle {t : QUICSession} (h : phase.AtServer wanted uplink downlink s id)
    (hkeep : Keeps wanted s s' id) (hb : s.Beside t) (hframes : s'.frames = t.frames)
    (hstage : s'.control.openStage = .idle)
    (hclosing : ∀ notify, s'.control ≠ .closeFlow (.delete id notify)) :
    phase.Advances wanted uplink downlink s s' id := by
  obtain ⟨sent, hsent, hanswer⟩ := hb.frames
  refine h.move hkeep (hframes.trans hsent) (not_mem_delivered hanswer) (fun p hp => ?_)
    fun notify hcontrol => absurd hcontrol (hclosing notify)
  rw [hstage] at hp
  cases hp

/-- The control loop brings the request for `g`, which it has in hand, to `target`. -/
theorem AtServer.goOn {kind : FlowKind} (h : phase.AtServer wanted uplink downlink s id)
    (target : FlowPhase) (hkeep : Keeps wanted s s' id) (hframes : s'.frames = s.frames)
    (hfrom : ofStage id s.control.openStage = if g = id then some (ofKind kind .handled) else none)
    (hto : ofStage id s'.control.openStage = if g = id then some (ofKind kind target) else none)
    (htarget : target ∈ [.handled, .filed, .refused])
    (htable : g = id → kind = .udp → target = .filed → (s'.udpFlows.lookup id).isSome)
    (hclosing : ∀ notify, s'.control ≠ .closeFlow (.delete id notify)) :
    phase.Advances wanted uplink downlink s s' id := by
  by_cases hg : g = id ∧ kind = .udp
  · obtain ⟨hg, rfl⟩ := hg
    rw [if_pos hg] at hfrom hto
    obtain rfl := h.stage _ hfrom
    refine ⟨target, [], hframes.trans (append_nil _).symm, ⟨?_, fun frame hframe hends => ?_,
      fun p hp => ?_, fun _ hmem => ?_, fun notify hcontrol => absurd hcontrol (hclosing notify),
      fun hok => ?_⟩, .inr ⟨by simp [ofKind], ?_⟩⟩
    · have hne : target ≠ .queued := by rintro rfl; simp at htarget
      simpa [hne, ofKind] using h.asked
    · cases h.ends frame hframe hends
    · rw [hto] at hp
      exact some.inj hp
    · refine htable hg rfl ?_
      revert htarget hmem
      cases target <;> simp
    · simpa [delivered, ofKind] using h.answered (by simpa [delivered] using hok)
    · revert htarget
      cases target <;> simp
  · refine h.move hkeep (hframes.trans (append_nil _).symm) (by simp [delivered])
      (fun p hp => ?_) fun notify hcontrol => absurd hcontrol (hclosing notify)
    rw [hto] at hp
    split_ifs at hp with hid
    rw [hfrom, if_pos hid]
    have hkind : kind ≠ .udp := fun hudp => hg ⟨hid, hudp⟩
    simpa [ofKind, hkind] using hp

/-- The control loop answers the request that it has in hand. When it cannot write an OK, it
closes the flow. -/
theorem AtServer.reply {f : SessionFrame} {a : OpenAnswer}
    (h : phase.AtServer wanted uplink downlink s id)
    (hkeep : Keeps wanted s s' id) (hframes : s'.frames = s.frames ++ [(f, ok)])
    (hanswer : f.openAnswer = some a) (hfrom : s.control.openStage = .answering a)
    (hto : s'.control.openStage = .idle)
    (hclosing : ∀ notify, s'.control = .closeFlow (.delete id notify) →
      a.flowID = id ∧ a.ok = true ∧ ok = false) :
    phase.Advances wanted uplink downlink s s' id := by
  have hidle (p : FlowPhase) (hp : ofStage id s'.control.openStage = some p) : False := by
    rw [hto] at hp
    cases hp
  have hstage (hid : a.flowID = id) : phase = ofKind a.kind (if a.ok then .filed else .refused) :=
    h.stage _ (by rw [hfrom, ofStage, if_pos hid])
  by_cases ha : a = ⟨.udp, id, true⟩
  · subst ha
    obtain rfl := hstage rfl
    have hasked := h.asked
    have hends : ∀ frame ∈ uplink, ¬endsFlow id frame := fun frame hframe hends => by
      cases h.ends frame hframe hends
    cases ok with
    | true =>
      refine ⟨.granted, _, hframes, ⟨hasked, fun frame hframe hend => absurd hend (hends _ hframe),
        fun p hp => (hidle p hp).elim,
          fun hwanted _ => h.keeps_table hkeep hwanted (by simp [ofKind]),
        fun notify hcontrol => ?_, fun _ => (by simp)⟩, .inr ⟨by simp [ofKind], by simp⟩⟩
      cases (hclosing notify hcontrol).2.2
    | false =>
      refine ⟨.refused, _, hframes, ⟨hasked, fun frame hframe hend => absurd hend (hends _ hframe),
        fun p hp => (hidle p hp).elim, fun _ hmem => ?_, fun _ _ => (by simp), fun hok => ?_⟩,
        .inr ⟨by simp [ofKind], by simp⟩⟩
      · simp at hmem
      · simpa [delivered, ofKind] using h.answered (by simpa [delivered] using hok)
  · refine h.move hkeep hframes (fun hok => ha ?_) (fun p hp => (hidle p hp).elim)
      fun notify hcontrol => ?_
    · obtain ⟨f', hf', hdelivered⟩ := mem_filterMap.mp hok
      obtain ⟨-, hdelivered⟩ := ite_none_right_eq_some.mp hdelivered
      rw [mem_singleton.mp hf'] at hdelivered
      have hf : f = .openOK .udp id := some.inj hdelivered
      rw [hf] at hanswer
      exact (some.inj hanswer).symm
    · obtain ⟨hid, hok, -⟩ := hclosing notify hcontrol
      have hkind : a.kind ≠ .udp := fun hudp => ha (by cases a; simp_all)
      rw [hstage hid, ofKind, if_neg hkind]
      simp

theorem closeRequest_of_dispatch {notify : Bool}
    (h : QUICSession.dispatch fr = some (.closeFlow (.delete id notify))) :
    closeRequest fr = some id := by
  by_cases htype : fr.type = frameCLOSEFLOW
  · simp only [QUICSession.dispatch, htype, frameCLOSEFLOW, framePING, framePONG, frameOPENTCP,
      frameOPENUDP, reduceIte, Nat.reduceEqDiff] at h
    split at h <;> cases h
    case h_1 hdecode => rw [closeRequest, if_pos htype, hdecode]; rfl
  · unfold QUICSession.dispatch at h
    split_ifs at h
    all_goals first | cases h | (split at h <;> cases h)

theorem readFrame_advances {pc : ControlPc}
    (h : phase.AtServer wanted (fr :: uplink) downlink s id)
    (hnext : QUICSession.dispatch fr = some pc) :
    phase.Advances wanted uplink downlink s { s with control := pc } id := by
  have hends : ∀ frame ∈ uplink, endsFlow id frame → phase = .ended :=
    fun frame hframe => h.ends frame (mem_cons_of_mem _ hframe)
  have hasked := h.asked
  have hframes : s.frames = s.frames ++ [] := (append_nil _).symm
  have hanswered : .openOK .udp id ∈ downlink ++ delivered [] →
      phase ∈ [.granted, .inserting, .registered, .ended] := by
    rw [delivered, filterMap_nil, append_nil]
    exact h.answered
  rcases QUICSession.dispatch_asks hnext with ⟨hnone, hstage⟩ | ⟨kind, flowID, hsome, hstage⟩
  · rw [filterMap_cons_none hnone] at hasked
    refine ⟨phase, [], hframes, ⟨hasked, hends, fun p hp => ?_, h.table, fun notify hcontrol => ?_,
      hanswered⟩, .inl rfl⟩
    · rw [hstage] at hp
      cases hp
    · cases hcontrol
      simp [h.ends fr mem_cons_self (.inr (closeRequest_of_dispatch hnext))]
  · have hclosing (notify : Bool) : pc ≠ .closeFlow (.delete id notify) := by
      rintro rfl
      rcases hstage with hstage | hstage <;> cases hstage
    rw [filterMap_cons_some hsome] at hasked
    by_cases hudp : (kind, flowID) = (.udp, id)
    · -- the request of the flow is in hand, or was refused
      obtain ⟨rfl, rfl⟩ := Prod.mk.inj hudp
      obtain ⟨target, htarget, hto⟩ : ∃ target, (target = handled ∨ target = refused) ∧
          ofStage flowID pc.openStage = some target := by
        rcases hstage with hstage | hstage <;> simp [hstage, ofStage, ofKind]
      rw [count_cons_self] at hasked
      split_ifs at hasked with hqueued
      subst hqueued
      refine ⟨target, [], hframes, ⟨?_, fun frame hframe hend => ?_,
        fun p hp => some.inj (hto.symm.trans hp), fun _ hmem => ?_,
        fun notify hcontrol => absurd hcontrol (hclosing notify), fun hok => ?_⟩,
        .inr ⟨by simp, ?_⟩⟩
      · rcases htarget with rfl | rfl <;> exact Nat.succ.inj hasked
      · cases hends frame hframe hend
      · rcases htarget with rfl | rfl <;> simp at hmem
      · simpa using hanswered hok
      · rcases htarget with rfl | rfl <;> simp
    · rw [count_cons_of_ne hudp] at hasked
      refine ⟨phase, [], hframes, ⟨hasked, hends, fun p hp => ?_, h.table,
        fun notify hcontrol => absurd hcontrol (hclosing notify), hanswered⟩, .inl rfl⟩
      by_cases hid : flowID = id
      · subst hid
        have hkind : kind = .tcp := by cases kind <;> simp_all
        subst hkind
        rw [h.ends fr mem_cons_self (.inl hsome)]
        rcases hstage with hstage | hstage <;> simpa [hstage, ofStage, ofKind] using hp
      · rcases hstage with hstage | hstage <;> simp [hstage, ofStage, hid] at hp

end FlowPhase
end VlfProto.Link
