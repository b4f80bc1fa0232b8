import VlfProto.Link.OpenPhase

/-! # The session brings an open to its answer -/

namespace VlfProto.Link
open Platform Transition Client Session Option List

namespace OpenPhase

def ofStage (f : ℕ) : OpenStage → Option OpenPhase
  | .checking kind flowID => if kind = .tcp ∧ flowID = f then some .handled else none
  | .dialed kind flowID _ => if kind = .tcp ∧ flowID = f then some .handled else none
  | .answering a => if a.kind = .tcp ∧ a.flowID = f then some (answered a.ok) else none
  | .idle => none

theorem ofStage_ne_unsent (f : ℕ) (stage : OpenStage) : ofStage f stage ≠ some .unsent := by
  cases stage with
  | idle | checking kind flowID | dialed kind flowID k => simp [ofStage]
  | answering a => cases hok : a.ok <;> simp [ofStage, answered, hok]

/-- What the session knows of the request for flow `f`. -/
structure AtServer (phase : OpenPhase) (uplink : List Frame) (s : TCPSession) (f : ℕ) : Prop where
  asked : (uplink.filterMap openRequest).count (.tcp, f) = if phase = .queued then 1 else 0
  stage : ∀ p, ofStage f s.run.openStage = some p → phase = p
  absent : phase ≠ .accepted → s.tcpFlows.lookup f = none
  answer : ∀ ok, ⟨.tcp, f, ok⟩ ∈ s.answers → phase = answered ok

/-- The session keeps the phase of a request, or goes on with one that it has not answered;
it accepts the request when it `files` the flow. -/
def Advances (phase : OpenPhase) (uplink : List Frame) (files : Prop) (s : TCPSession) (f : ℕ) :
    Prop :=
  ∃ phase' : OpenPhase, (phase' = phase ∨
    phase ∈ [.queued, .handled] ∧ (phase' = .accepted → files)) ∧ phase'.AtServer uplink s f

variable {phase target : OpenPhase} {s s' : TCPSession} {f : ℕ} {uplink : List Frame}
  {label : TCPSessionStep} {files P : Prop}

theorem AtServer.keep (h : phase.AtServer uplink s f)
    (hstage : ∀ p, ofStage f s'.run.openStage = some p → ofStage f s.run.openStage = some p)
    (htable : ∀ k, s'.tcpFlows.lookup f = some k → s.tcpFlows.lookup f = some k)
    (hanswers : s'.answers = s.answers) : phase.AtServer uplink s' f where
  asked := h.asked
  stage p hp := h.stage p (hstage p hp)
  absent hphase := by
    rw [eq_none_iff_forall_ne_some]
    intro k hk
    simpa [h.absent hphase] using htable k hk
  answer ok hok := h.answer ok (hanswers ▸ hok)

/-- `Run` brings the request that it has in hand, which is that for `f` if `P` holds,
to `target`. -/
theorem AtServer.goOn [Decidable P] (h : phase.AtServer uplink s f)
    (hfrom : P → ofStage f s.run.openStage = some .handled)
    (hto : ofStage f s'.run.openStage = if P then some target else none)
    (htarget : target ∉ [.unsent, .queued]) (hfiles : P → target = .accepted → files)
    (htable : P ∧ target = .accepted ∨
      ∀ k, s'.tcpFlows.lookup f = some k → s.tcpFlows.lookup f = some k)
    (hanswers : s'.answers = s.answers) : phase.Advances uplink files s' f := by
  by_cases hown : P
  · obtain rfl := h.stage _ (hfrom hown)
    refine ⟨target, .inr ⟨by simp, hfiles hown⟩, ?_, fun p hp => ?_, fun hne => ?_,
      fun ok hok => ?_⟩
    · have hqueued : target ≠ .queued := fun hq => htarget (by simp [hq])
      simpa [hqueued] using h.asked
    · rw [hto, if_pos hown] at hp
      exact some.inj hp
    · have hold := h.absent (by simp)
      rw [eq_none_iff_forall_ne_some]
      intro k hk
      rcases htable with ⟨-, haccepted⟩ | htable
      · exact hne haccepted
      · simpa [hold] using htable k hk
    · have hanswered := h.answer ok (hanswers ▸ hok)
      cases ok <;> cases hanswered
  · have hkept := htable.resolve_left fun h => hown h.1
    refine ⟨phase, .inl rfl, h.keep (fun p hp => ?_) hkept hanswers⟩
    rw [hto, if_neg hown] at hp
    cases hp

theorem AtServer.reply {a : OpenAnswer} (h : phase.AtServer uplink s f)
    (hfrom : s.run.openStage = .answering a) (hto : s'.run.openStage = .idle)
    (htable : ∀ k, s'.tcpFlows.lookup f = some k → s.tcpFlows.lookup f = some k)
    (hanswers : s'.answers = s.answers ++ [a]) : phase.AtServer uplink s' f where
  asked := h.asked
  stage p hp := by
    rw [hto] at hp
    cases hp
  absent hphase := by
    rw [eq_none_iff_forall_ne_some]
    intro k hk
    simpa [h.absent hphase] using htable k hk
  answer ok hok := by
    rw [hanswers, mem_append, mem_singleton] at hok
    rcases hok with hold | rfl
    · exact h.answer ok hold
    · exact h.stage _ (by simp [hfrom, ofStage])

theorem readFrame_advances {fr : Frame} {pc : TCPRunPc} (h : phase.AtServer (fr :: uplink) s f)
    (hnext : TCPSession.dispatch fr = some pc) :
    phase.Advances uplink files { s with run := pc } f := by
  have hasked := h.asked
  rcases TCPSession.dispatch_asks hnext with ⟨hnone, hstage⟩ | ⟨kind, flowID, hsome, hstage⟩
  · refine ⟨phase, .inl rfl, { h with asked := ?_, stage := fun p hp => ?_ }⟩
    · rwa [filterMap_cons_none hnone] at hasked
    · rw [hstage] at hp
      cases hp
  · rw [filterMap_cons_some hsome] at hasked
    by_cases hf : kind = .tcp ∧ flowID = f
    · obtain ⟨rfl, rfl⟩ := hf
      rw [count_cons_self] at hasked
      split_ifs at hasked with hqueued
      subst hqueued
      have hcount := Nat.succ.inj hasked
      rcases hstage with hstage | hstage
      · refine ⟨.handled, .inr ⟨by simp, nofun⟩, hcount, fun p hp => ?_,
          fun _ => h.absent (by simp),
          fun ok hok => ?_⟩
        · simpa [hstage, ofStage] using hp
        · have hanswered := h.answer ok hok
          cases ok <;> cases hanswered
      · refine ⟨.refused, .inr ⟨by simp, nofun⟩, hcount, fun p hp => ?_,
          fun _ => h.absent (by simp),
          fun ok hok => ?_⟩
        · simpa [hstage, ofStage, answered] using hp
        · have hanswered := h.answer ok hok
          cases ok <;> cases hanswered
    · refine ⟨phase, .inl rfl, { h with asked := ?_, stage := fun p hp => ?_ }⟩
      · rwa [count_cons_of_ne (by simpa using hf)] at hasked
      · rcases hstage with hstage | hstage <;> simp [hstage, ofStage, hf] at hp

theorem AtServer.advances (h : phase.AtServer uplink s f) : phase.Advances uplink files s f :=
  ⟨phase, .inl rfl, h⟩

theorem step_advances (h : phase.AtServer uplink s f)
    (hread : ∀ frame, s.openEvent label ≠ .read frame) (hstep : s.step label = some s') :
    phase.Advances uplink (s.files label = some f) s' f := by
  obtain ⟨sent, hsent, hmove⟩ := (TCPSession.step_openMoves hstep).move
  have hfiled (k : ℕ) := @TCPSession.lookup_of_step _ _ _ f k hstep
  simp only [TCPSession.openView, TCPSession.files] at hsent hmove hfiled ⊢
  generalize hfrom : s.run.openStage = stage at hmove hfiled ⊢
  generalize hto : s'.run.openStage = stage' at hmove
  generalize s.openEvent label = event at hmove hread hfiled ⊢
  cases hmove with
  | read => exact absurd rfl (hread _)
  | keep =>
    refine AtServer.advances (h.keep (fun p hp => ?_) ?_ (hsent.trans (append_nil _)))
    · rwa [hfrom, ← hto]
    · simpa using hfiled
  | @dial kind flowID k =>
    refine AtServer.advances (h.keep (fun p hp => ?_) ?_ (hsent.trans (append_nil _)))
    · rw [hto] at hp
      rwa [hfrom]
    · simpa using hfiled
  | @refuse kind flowID | @drop kind flowID k =>
    refine h.goOn (P := kind = .tcp ∧ flowID = f) (fun hown => ?_)
      (?_ : _ = if _ then some refused else none) (by simp) (by simp) (.inr ?_)
      (hsent.trans (append_nil _))
    · simp [hfrom, ofStage, hown]
    · simp [hto, ofStage, answered]
    · simpa using hfiled
  | @insert kind flowID k =>
    refine h.goOn (P := kind = .tcp ∧ flowID = f) (fun hown => ?_)
      (?_ : _ = if _ then some accepted else none) (by simp) (fun hown _ => ?_) ?_
      (hsent.trans (append_nil _))
    · simp [hfrom, ofStage, hown]
    · simp [hto, ofStage, answered]
    · simp [hown]
    · by_cases hown : kind = .tcp ∧ flowID = f
      · exact .inl ⟨hown, rfl⟩
      · refine .inr fun k' hk' => (hfiled k' hk').resolve_right fun heq => hown ?_
        cases kind with
        | tcp => simpa using heq
        | udp => cases heq
  | reply => exact AtServer.advances (h.reply hfrom hto (by simpa using hfiled) hsent)

end OpenPhase
end VlfProto.Link
