import VlfProto.Session.TCP.FlowLimit

/-! # The open handler of a TCP session -/

namespace VlfProto.Session
open Platform Transition Option List

def TCPRunPc.openStage : TCPRunPc → OpenStage
  | .openCheck p => .checking .tcp p.flowID
  | .dial flowID => .checking .tcp flowID
  | .insert flowID k => .dialed .tcp flowID k
  | .closeDuplicate flowID k => .dialed .tcp flowID k
  | .countStream flowID _ => .answering ⟨.tcp, flowID, true⟩
  | .writeOpenOK flowID _ => .answering ⟨.tcp, flowID, true⟩
  | .reply frame => frame.openAnswer.elim .idle .answering
  | _ => .idle

namespace TCPSession

variable {s t : TCPSession} {ok : Bool} {f : FlowRef} {pc : TCPRunPc} {label : TCPSessionStep}

def closedFlow (s : TCPSession) (f : FlowRef) : Prop :=
  f.kind = .tcp ∧ f.index < s.created ∧ (s.flows f.index).targetClosed

theorem Beside.closedFlow (hb : s.Beside t) (hf : s.closedFlow f) : t.closedFlow f :=
  ⟨hf.1, hb.created ▸ hf.2.1, hb.targetClosed _ hf.2.2⟩

theorem createFlow_closedFlow (flowID : ℕ) (hf : s.closedFlow f) :
    (s.createFlow flowID).closedFlow f := by
  obtain ⟨hkind, hlt, hclosed⟩ := hf
  refine ⟨hkind, Nat.lt_succ_of_lt hlt, ?_⟩
  rw [createFlow_flows s hlt.ne]
  exact hclosed

theorem setWritten_closedFlow {written : Bytes} (k : ℕ) (hf : s.closedFlow f) :
    (s.setFlow k { s.flows k with written }).closedFlow f := by
  obtain ⟨hkind, hlt, hclosed⟩ := hf
  refine ⟨hkind, hlt, ?_⟩
  by_cases hk : f.index = k
  · simpa [setFlow, hk] using hclosed
  · simpa [setFlow, hk] using hclosed

theorem authenticate_idle {f : Frame} (h : authenticate f ok = some pc) :
    pc.openStage = .idle := by
  unfold authenticate at h
  split_ifs at h
  all_goals first | (cases h; rfl) | (split at h <;> cases h <;> rfl)

theorem dispatch_asks {f : Frame} (h : dispatch f = some pc) :
    Asks (openRequest f) pc.openStage := by
  by_cases htcp : f.type = frameOPENTCP
  · have hrequest : openRequest f = some (requestOf .tcp f.payload) := if_pos htcp
    simp only [dispatch, htcp, frameOPENTCP, framePING, framePONG, reduceIte, Nat.reduceEqDiff] at h
    split at h <;> cases h
    case h_1 p hp => exact .inr ⟨.tcp, p.flowID, by rw [hrequest, requestOf, hp], .inl rfl⟩
    case h_2 e he => exact .inr ⟨.tcp, 0, by rw [hrequest, requestOf, he], .inr rfl⟩
  · by_cases hudp : f.type = frameOPENUDP
    · have hrequest : openRequest f = some (requestOf .udp f.payload) :=
        (if_neg htcp).trans (if_pos hudp)
      simp only [dispatch, hudp, frameOPENTCP, frameOPENUDP, framePING, framePONG, reduceIte,
        Nat.reduceEqDiff] at h
      split at h <;> cases h
      case h_1 p hp => exact .inr ⟨.udp, p.flowID, by rw [hrequest, requestOf, hp], .inr rfl⟩
      case h_2 e he => exact .inr ⟨.udp, 0, by rw [hrequest, requestOf, he], .inr rfl⟩
    · refine .inl ⟨by simp [openRequest, htcp, hudp], ?_⟩
      unfold dispatch at h
      split_ifs at h
      all_goals first | (cases h; rfl) | (split at h <;> cases h <;> rfl)

theorem dispatch_returns {f : Frame} (hfits : f.OpenFits) : dispatch f ≠ none := by
  intro h
  unfold dispatch at h
  split_ifs at h with _ _ htcp hudp
  · split at h <;> cases h
    case h_3 hpanic => exact not_openFits (.inl htcp) hpanic hfits
  · split at h <;> cases h
    case h_3 hpanic => exact not_openFits (.inr hudp) hpanic hfits
  all_goals split at h <;> cases h

/-! ### The session and the record of its opens -/

def openView (s : TCPSession) : OpenView :=
  ⟨s.run.openStage, s.answers, s.closedFlow, fun _ => s.created⟩

def openEvent (s : TCPSession) : TCPSessionStep → OpenEvent
  | .run frame ok _ =>
    match s.run with
    | .readFrame => frame.elim .none .read
    | .dial _ => if ok then .dial s.created else .none
    | .insert flowID _ => if (s.tcpFlows.lookup flowID).isSome then .none else .insert
    | _ => .none
  | _ => .none

/-- A panic of `Run` when it decodes a frame, from where its deferred calls go on. -/
def unwind (s : TCPSession) : TCPSessionStep → Option TCPSession
  | .run (some frame) ok _ =>
    match s.run with
    | .readFirst =>
      if authenticate frame ok = none then some { s with run := .deferredClose } else none
    | .readFrame => if dispatch frame = none then some { s with run := .unregister } else none
    | _ => none
  | _ => none

def openServer : OpenServer TCPSession TCPSessionStep :=
  ⟨step, openEvent, unwind, fun s => s.run = .returned⟩

theorem Beside.moves (hb : s.Beside t) : s.openView.Moves .none t.openView :=
  .keep (congrArg TCPRunPc.openStage hb.run) hb.answers_eq (fun _ => hb.created)
    fun _ => hb.closedFlow

theorem Beside.moves_idle {wg : ℕ} (hb : s.Beside t) (hold : s.run.openStage = .idle)
    (hpc : pc.openStage = .idle) : s.openView.Moves .none { t with run := pc, wg }.openView :=
  .keep (hpc.trans hold.symm) hb.answers_eq (fun _ => hb.created) fun _ => hb.closedFlow

theorem answers_send {f : ServerFrame} :
    { s with frames := s.frames ++ [(f, ok)], run := pc }.answers =
      s.answers ++ f.openAnswer.toList := by
  cases hf : f.openAnswer <;> simp [answers, hf]

theorem runStep_openMoves {frame : Option Frame} {n : ℕ} (hstep : s.runStep frame ok n = some t) :
    s.openView.Moves (s.openEvent (.run frame ok n)) t.openView := by
  have hb := Beside.refl s
  have hsame : ∀ f, s.closedFlow f → s.closedFlow f := fun _ => id
  cases runStep_cases hstep with
  | setDeadline hpc | lookup hpc | dataLimit hpc =>
    simp only [openEvent, hpc]
    refine .keep ?_ rfl (fun _ => rfl) hsame
    simp only [openView, hpc]
    split_ifs <;> rfl
  | register hpc | countStream hpc | lookupFails hpc | unregister hpc =>
    simp only [openEvent, hpc]
    exact .keep (by simp only [openView, hpc]; rfl) rfl (fun _ => rfl) hsame
  | duplicate hpc hsome =>
    simp only [openEvent, hpc, hsome, if_true]
    exact .keep (by simp only [openView, hpc]; rfl) rfl (fun _ => rfl) hsame
  | readFirst hpc hnext =>
    simp only [openEvent, hpc]
    refine hb.moves_idle (by rw [hpc]; rfl) ?_
    cases frame with
    | none => cases hnext; rfl
    | some f => exact authenticate_idle hnext
  | authFail hpc =>
    simp only [openEvent, hpc]
    exact .keep (by simp only [openView, hpc]; rfl) (answers_send.trans (append_nil _))
      (fun _ => rfl) hsame
  | writeAuthOK hpc =>
    simp only [openEvent, hpc]
    refine .keep ?_ (answers_send.trans (append_nil _)) (fun _ => rfl) hsame
    simp only [openView, hpc]
    split_ifs <;> rfl
  | readFrame hpc hnext =>
    simp only [openEvent, hpc]
    cases frame with
    | none =>
      cases hnext
      exact hb.moves_idle (by rw [hpc]; rfl) rfl
    | some f =>
      refine ⟨hsame, fun _ => le_rfl, [], (append_nil _).symm, ?_⟩
      simp only [openView, hpc]
      exact .read (dispatch_asks hnext)
  | @reply f hpc =>
    simp only [openEvent, hpc]
    refine ⟨hsame, fun _ => le_rfl, _, answers_send, ?_⟩
    simp only [openView, hpc, TCPRunPc.openStage]
    cases f.openAnswer with
    | none => exact .keep
    | some a => exact .reply
  | writeOpenOK hpc =>
    simp only [openEvent, hpc]
    refine ⟨hsame, fun _ => le_rfl, _, answers_send, ?_⟩
    simp only [openView, hpc]
    cases ok <;> exact .reply
  | @openCheck p hpc =>
    simp only [openEvent, hpc]
    refine ⟨hsame, fun _ => le_rfl, [], (append_nil _).symm, ?_⟩
    simp only [openView, hpc]
    rcases s.openCheck_cases p with ⟨reason, hnext⟩ | ⟨hnext, -⟩ <;> rw [hnext]
    · exact .refuse
    · exact .keep
  | @dial flowID hpc hok =>
    simp only [openEvent, hpc, hok, if_true]
    refine ⟨fun _ => s.createFlow_closedFlow flowID, fun _ => Nat.le_succ _, [],
      (append_nil _).symm, ?_⟩
    simp only [openView, hpc]
    exact .dial (Nat.lt_succ_self _)
  | dialFails hpc hok =>
    simp only [openEvent, hpc, hok]
    refine ⟨hsame, fun _ => le_rfl, [], (append_nil _).symm, ?_⟩
    simp only [openView, hpc]
    exact .refuse
  | insert hpc hnone =>
    simp only [openEvent, hpc, hnone]
    refine ⟨hsame, fun _ => le_rfl, [], (append_nil _).symm, ?_⟩
    simp only [openView, hpc]
    exact .insert
  | @closeDuplicate flowID k hpc =>
    simp only [openEvent, hpc]
    refine ⟨fun _ => hb.closeTarget.closedFlow, fun _ => le_rfl, [], (append_nil _).symm, ?_⟩
    simp only [openView, hpc]
    exact .drop fun hk => ⟨rfl, hk, by simp⟩
  | spawn hpc =>
    simp only [openEvent, hpc]
    exact hb.setLoop.moves_idle (by rw [hpc]; rfl) rfl
  | @closeFlow pc t hpc hr =>
    simp only [openEvent, hpc]
    exact (closeFlowStep_beside hr).moves_idle (by rw [hpc]; rfl) (by cases t.2 <;> rfl)
  | @dataWrite flowID k data hpc =>
    simp only [openEvent, hpc]
    refine .keep ?_ rfl (fun _ => rfl) fun _ => setWritten_closedFlow k
    simp only [openView, hpc]
    split_ifs <;> rfl
  | closing hpc hr | deferredClose hpc hr =>
    simp only [openEvent, hpc]
    have hb := closeStep_beside hr
    split_ifs
    · exact hb.moves_idle (by rw [hpc]; rfl) rfl
    · exact hb.moves

theorem step_openMoves (hstep : s.step label = some t) :
    s.openView.Moves (s.openEvent label) t.openView := by
  cases label with
  | run frame ok n => exact runStep_openMoves hstep
  | loop k data failed ok | callClose i | closer i => exact (step_beside (by simp) hstep).moves

def files (s : TCPSession) (label : TCPSessionStep) : Option ℕ :=
  match s.openEvent label, s.run.openStage with
  | .insert, .dialed .tcp flowID _ => some flowID
  | _, _ => none

theorem dialed_of_files {flowID : ℕ} (h : s.files label = some flowID) :
    ∃ k, s.run.openStage = .dialed .tcp flowID k := by
  unfold files at h
  split at h <;> cases h
  case h_1 k _ hstage => exact ⟨k, hstage⟩

theorem readFrame_of_openEvent {frame : Frame}
    (h : s.openEvent label = .read frame) : ∃ ok n, label = .run (some frame) ok n ∧
      s.run = .readFrame := by
  unfold openEvent at h
  split at h
  case h_1 fr ok n =>
    split at h
    case h_1 hpc =>
      cases fr <;> cases h
      exact ⟨ok, n, rfl, hpc⟩
    case h_2 | h_3 => split_ifs at h
    case h_4 => cases h
  case h_2 => cases h

theorem lookup_of_step {flowID k : ℕ} (hstep : s.step label = some t)
    (hk : t.tcpFlows.lookup flowID = some k) :
    s.tcpFlows.lookup flowID = some k ∨ s.files label = some flowID := by
  cases label with
  | run frame ok n =>
    cases runStep_cases hstep with
    | @insert flowID' k' hpc hnone =>
      by_cases hid : flowID = flowID'
      · exact .inr (by simp [files, openEvent, hpc, TCPRunPc.openStage, hnone, hid])
      · exact .inl ((Finmap.lookup_insert_of_ne _ hid).symm.trans hk)
    | closeFlow hpc hr => exact .inl ((closeFlowStep_beside hr).lookup _ _ hk)
    | closing hpc hr | deferredClose hpc hr =>
      refine .inl ((closeStep_beside hr).lookup _ _ ?_)
      split_ifs at hk <;> exact hk
    | _ => exact .inl hk
  | loop k data failed ok | callClose i | closer i =>
    exact .inl ((step_beside (by simp) hstep).lookup _ _ hk)

theorem openServer_moves (maxFlows : ℤ) : openServer.Moves openView (Bounded maxFlows) where
  step hs hstep := ⟨step_bounded hs hstep, step_openMoves hstep⟩
  unwind {s label t} hs hfits hstep := by
    have hb := Beside.refl s
    cases label with
    | run frame ok n =>
      cases frame with
      | none => cases hstep
      | some frame =>
        simp only [openServer, unwind] at hstep hfits ⊢
        split at hstep
        case h_1 hpc =>
          obtain ⟨-, rfl⟩ := of_guard hstep
          simp only [openEvent, hpc]
          exact ⟨hs.setRun rfl, hb.moves_idle (by rw [hpc]; rfl) rfl⟩
        case h_2 hpc =>
          obtain ⟨hnone, -⟩ := of_guard hstep
          simp only [openEvent, hpc] at hfits
          exact absurd hnone (dispatch_returns hfits)
        case h_3 => cases hstep
    | loop k data failed ok | callClose i | closer i => cases hstep

end TCPSession
end VlfProto.Session
