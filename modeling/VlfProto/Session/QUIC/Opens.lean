import VlfProto.Session.QUIC.FlowLimit
import VlfProto.Session.QUIC.PipelineCases

/-! # The open handlers of a QUIC session -/

namespace VlfProto.Session
open Platform Transition Option List

def ControlPc.openStage : ControlPc → OpenStage
  | .openCheck kind p => .checking kind p.flowID
  | .dial kind flowID => .checking kind flowID
  | .insert f flowID => .dialed f.kind flowID f.index
  | .closeDuplicate f flowID => .dialed f.kind flowID f.index
  | .writeOpenOK f flowID => .answering ⟨f.kind, flowID, true⟩
  | .reply frame => frame.openAnswer.elim .idle .answering
  | _ => .idle

def SessionRunPc.early : SessionRunPc → Bool
  | .acceptControl => true
  | .readFirst => true
  | .authFail _ => true
  | .register => true
  | .writeAuthOK => true
  | .start => true
  | _ => false

namespace QUICSession

variable {s s' t : QUICSession} {ok : Bool} {frame : Option Frame} {pc : ControlPc}

def closedFlow (s : QUICSession) (f : FlowRef) : Prop :=
  f.index < s.created f.kind ∧ s.socketClosed f

/-- The answers to opens that were attempted. -/
def answers (s : QUICSession) : List OpenAnswer := s.frames.filterMap fun f => f.1.openAnswer

theorem dropFlow_socketClosed (f : FlowRef) : (s.dropFlow f).socketClosed f := by
  obtain ⟨kind, k⟩ := f
  cases kind
  · simp [dropFlow, closeTarget, socketClosed, setTCP]
  · simp [dropFlow, closeUDPConn, socketClosed, setUDP]

theorem runStep_early (h : s.runStep frame ok = some s') (hearly : s'.run.early) :
    s.run.early := by
  cases hpc : s.run <;> simp only [runStep, hpc, some.injEq, map_eq_some_iff,
    reduceCtorEq] at h
  case waitDone | waitGroup =>
    obtain ⟨-, rfl⟩ := of_guard h
    exact hearly
  case unregister =>
    obtain rfl := h
    exact hearly
  case deferredClose =>
    obtain ⟨r, hr, rfl⟩ := h
    split_ifs at hearly
    · exact hearly
    · rwa [(closeStep_shuts hr).run, hpc] at hearly
  all_goals rfl

theorem Beside.closedFlow {f : FlowRef} (hb : s.Beside t) (hf : s.closedFlow f) : t.closedFlow f :=
  ⟨hb.created f.kind ▸ hf.1, hb.socketClosed f hf.2⟩

theorem Beside.answers_eq (h : s.Beside s') : s'.answers = s.answers := by
  obtain ⟨sent, hsent, hnone⟩ := h.frames
  rw [answers, hsent, filterMap_append, filterMap_eq_nil_iff.mpr hnone, append_nil]
  rfl

theorem createFlow_closedFlow {f : FlowRef} (flowID : ℕ) (kind : FlowKind) (hf : s.closedFlow f) :
    (s.createFlow flowID kind).closedFlow f :=
  ⟨created_createFlow.mpr (.inl hf.1), (createFlow_old flowID kind hf.1).2.trans hf.2⟩

theorem dispatch_asks {f : Frame} (h : dispatch f = some pc) :
    Asks (openRequest f) pc.openStage := by
  by_cases htcp : f.type = frameOPENTCP
  · have hrequest : openRequest f = some (requestOf .tcp f.payload) := if_pos htcp
    simp only [dispatch, htcp, frameOPENTCP, framePING, framePONG, reduceIte, Nat.reduceEqDiff] at h
    split at h <;> cases h
    case h_1 p hp => exact .inr ⟨.tcp, p.flowID, by rw [hrequest, requestOf, hp], .inl rfl⟩
    case h_2 e he => exact .inr ⟨.tcp, 0, by rw [hrequest, requestOf, he], .inr rfl⟩
  · by_cases hudp : f.type = frameOPENUDP
    · have hrequest : openRequest f = some (requestOf .udp f.payload) :=
        (if_neg htcp).trans (if_pos hudp)
      simp only [dispatch, hudp, frameOPENTCP, frameOPENUDP, framePING, framePONG, reduceIte,
        Nat.reduceEqDiff] at h
      split at h <;> cases h
      case h_1 p hp => exact .inr ⟨.udp, p.flowID, by rw [hrequest, requestOf, hp], .inl rfl⟩
      case h_2 e he => exact .inr ⟨.udp, 0, by rw [hrequest, requestOf, he], .inr rfl⟩
    · refine .inl ⟨by simp [openRequest, htcp, hudp], ?_⟩
      unfold dispatch at h
      split_ifs at h
      all_goals first | (cases h; rfl) | (split at h <;> cases h <;> rfl)

theorem dispatch_returns {f : Frame} (hfits : f.OpenFits) : dispatch f ≠ none := by
  intro h
  unfold dispatch at h
  split_ifs at h with _ _ htcp hudp
  · split at h <;> cases h
    case h_3 hpanic => exact not_openFits (.inl htcp) hpanic hfits
  · split at h <;> cases h
    case h_3 hpanic => exact not_openFits (.inr hudp) hpanic hfits
  · split at h <;> cases h

/-! ### The session and the record of its opens -/

def opens (s : QUICSession) : OpenView :=
  ⟨s.control.openStage, s.answers, s.closedFlow, s.created⟩

def openEvent (s : QUICSession) : QUICSessionStep → OpenEvent
  | .control frame ok =>
    match s.control with
    | .readFrame => frame.elim .none .read
    | .dial kind _ => if ok then .dial (s.created kind) else .none
    | .insert f flowID => if ((s.table f.kind).lookup flowID).isSome then .none else .insert
    | _ => .none
  | _ => .none

/-- A panic of `Run` or of the control loop when it decodes a frame, from where its deferred
calls go on. -/
def unwind (s : QUICSession) : QUICSessionStep → Option QUICSession
  | .run (some frame) ok =>
    if s.run = .readFirst ∧ authenticate frame ok = none then some { s with run := .deferredClose }
    else none
  | .control (some frame) _ =>
    if s.control = .readFrame ∧ dispatch frame = none then some { s with control := .exiting }
    else none
  | _ => none

def openServer : OpenServer QUICSession QUICSessionStep :=
  ⟨step, openEvent, unwind, fun s => s.run = .returned ∨ s.control = .stopped⟩

theorem Beside.moves (hb : s.Beside t) : s.opens.Moves .none t.opens :=
  .keep (congrArg ControlPc.openStage hb.control) hb.answers_eq hb.created fun _ => hb.closedFlow

theorem Beside.moves_idle {wg : ℕ} (hb : s.Beside t)
    (hold : s.control.openStage = .idle) (hpc : pc.openStage = .idle) :
    s.opens.Moves .none { t with control := pc, wg }.opens :=
  .keep (hpc.trans hold.symm) hb.answers_eq hb.created fun _ => hb.closedFlow

theorem answers_send {f : SessionFrame} :
    { s with frames := s.frames ++ [(f, ok)], control := pc }.answers =
      s.answers ++ f.openAnswer.toList := by
  cases hf : f.openAnswer <;> simp [answers, hf]

theorem createFlow_moves {kind : FlowKind} {flowID : ℕ} (hpc : s.control = .dial kind flowID) :
    s.opens.Moves (.dial (s.created kind)) { s.createFlow flowID kind with
      control := .insert ⟨kind, s.created kind⟩ flowID }.opens := by
  have hcreated (kind' : FlowKind) :
      s.created kind' ≤ (s.createFlow flowID kind).created kind' :=
    forall_lt_iff_le.mp fun k hk => (created_createFlow (f := ⟨kind', k⟩)).mpr (.inl hk)
  have hlt : s.created kind < (s.createFlow flowID kind).created kind :=
    (created_createFlow (f := ⟨kind, s.created kind⟩)).mpr (.inr rfl)
  refine ⟨fun _ => s.createFlow_closedFlow flowID kind, hcreated, [], ?_, ?_⟩
  · cases kind <;> exact (append_nil _).symm
  · simp only [opens, hpc]
    exact .dial hlt

theorem controlStep_openMoves (hstep : s.controlStep frame ok = some s') :
    s.opens.Moves (s.openEvent (.control frame ok)) s'.opens := by
  have hb := Beside.refl s
  have hsame : ∀ f, s.closedFlow f → s.closedFlow f := fun _ h => h
  have hold : s.answers = s.answers ++ [] := (append_nil _).symm
  cases controlStep_cases hstep with
  | readFrame hpc hnext =>
    simp only [openEvent, hpc]
    cases frame with
    | none =>
      cases hnext
      exact hb.moves_idle (by rw [hpc]; rfl) rfl
    | some f =>
      refine ⟨hsame, fun _ => le_rfl, [], hold, ?_⟩
      simp only [opens, hpc]
      exact .read (dispatch_asks hnext)
  | @reply f hpc =>
    simp only [openEvent, hpc]
    refine ⟨hsame, fun _ => le_rfl, _, answers_send, ?_⟩
    simp only [opens, hpc, ControlPc.openStage]
    cases f.openAnswer with
    | none => exact .keep
    | some a => exact .reply
  | @openCheck kind p hpc =>
    simp only [openEvent, hpc]
    refine ⟨hsame, fun _ => le_rfl, [], hold, ?_⟩
    simp only [opens, hpc]
    rcases s.openCheck_cases kind p with ⟨reason, hnext⟩ | ⟨hnext, -⟩ <;> rw [hnext]
    · exact .refuse
    · exact .keep
  | dial hpc hok =>
    simp only [openEvent, hpc, hok, if_true]
    exact createFlow_moves hpc
  | dialFails hpc hok =>
    simp only [openEvent, hpc, hok]
    refine ⟨hsame, fun _ => le_rfl, [], hold, ?_⟩
    simp only [opens, hpc]
    exact .refuse
  | @insert f flowID hpc hnone =>
    obtain ⟨kind, k⟩ := f
    have hinsert : s.openEvent (.control frame ok) = .insert := by
      simp only [openEvent, hpc, hnone]
      rfl
    rw [hinsert]
    cases kind
    all_goals
      refine ⟨hsame, fun _ => le_rfl, [], hold, ?_⟩
      simp only [opens, hpc]
      exact .insert
  | duplicate hpc hsome =>
    simp only [openEvent, hpc, hsome, if_true]
    exact .keep (by simp only [opens, hpc]; rfl) rfl (fun _ => rfl) hsame
  | @closeDuplicate f flowID hpc =>
    simp only [openEvent, hpc]
    have hdrop := (s.dropFlow_shuts f).toBeside
    refine ⟨fun _ => hdrop.closedFlow, fun kind => (hdrop.created kind).ge, [],
      hdrop.answers_eq.trans hold, ?_⟩
    simp only [opens, hpc]
    exact .drop fun hk => ⟨hk, dropFlow_socketClosed f⟩
  | @writeOpenOK f flowID hpc =>
    simp only [openEvent, hpc]
    refine ⟨hsame, fun _ => le_rfl, _, answers_send, ?_⟩
    obtain ⟨kind, k⟩ := f
    simp only [opens, hpc]
    cases ok <;> cases kind <;> exact .reply
  | spawn hpc =>
    simp only [openEvent, hpc]
    exact (Aside.refl s).setReader.toBeside.moves_idle (by rw [hpc]; rfl) rfl
  | @closeFlow pc t hpc hr =>
    simp only [openEvent, hpc]
    exact (closeFlowStep_shuts hr).toBeside.moves_idle (by rw [hpc]; rfl) (by cases t.2 <;> rfl)
  | closing hpc hr =>
    simp only [openEvent, hpc]
    have hb := (closeStep_shuts hr).toBeside
    split_ifs
    · exact hb.moves_idle (by rw [hpc]; rfl) rfl
    · exact hb.moves
  | exiting hpc =>
    simp only [openEvent, hpc]
    exact hb.moves_idle (by rw [hpc]; rfl) rfl

/-- The flows are within the limit, and the control loop is not ahead of `Run`. -/
structure Opens (maxFlows : ℤ) (s : QUICSession) : Prop where
  bounded : s.Bounded maxFlows
  unstarted : s.run.early → s.control = .notStarted

theorem step_opens {maxFlows : ℤ} {label : QUICSessionStep} (h : s.Opens maxFlows)
    (hstep : s.step label = some s') :
    s'.Opens maxFlows ∧ s.opens.Moves (s.openEvent label) s'.opens := by
  have hbounded := step_bounded h.bounded hstep
  cases label with
  | control frame ok =>
    refine ⟨⟨hbounded, fun hearly => ?_⟩, controlStep_openMoves hstep⟩
    have hnone := h.unstarted ((controlStep_apart hstep).run ▸ hearly)
    simp [step, controlStep, hnone] at hstep
  | run frame ok =>
    rcases runStep_still hstep with hb | ⟨hstart, rfl⟩
    · refine ⟨⟨hbounded, fun hearly => ?_⟩, hb.toBeside.moves⟩
      exact hb.toBeside.control.trans (h.unstarted (runStep_early hstep hearly))
    · have hidle : s.control = .notStarted := h.unstarted (by rw [hstart]; rfl)
      refine ⟨⟨hbounded, fun hearly => by cases hearly⟩, .keep ?_ rfl (fun _ => rfl) fun _ h => h⟩
      simp only [opens, hidle]
      rfl
  | _ =>
    have hb := step_beside (by simp) (by simp) hstep
    exact ⟨⟨hbounded, fun hearly => hb.control.trans (h.unstarted (hb.run ▸ hearly))⟩, hb.moves⟩

theorem openServer_moves (maxFlows : ℤ) : openServer.Moves opens (Opens maxFlows) where
  step hs hstep := step_opens hs hstep
  unwind {s label t} hs hfits hstep := by
    have hb := Beside.refl s
    simp only [openServer] at hstep hfits ⊢
    unfold unwind at hstep
    split at hstep
    case h_1 =>
      obtain ⟨⟨hpc, -⟩, rfl⟩ := of_guard hstep
      exact ⟨⟨{ hs.bounded with }, fun hearly => by cases hearly⟩, hb.moves⟩
    case h_2 =>
      obtain ⟨⟨hpc, hnone⟩, -⟩ := of_guard hstep
      simp only [openEvent, hpc] at hfits
      exact absurd hnone (dispatch_returns hfits)
    case h_3 => cases hstep

end QUICSession
end VlfProto.Session
