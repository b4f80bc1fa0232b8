import VlfProto.Link.TCPLink

/-! # How far an open has got -/

namespace VlfProto.Link
open Platform Transition Client Session Function Option

inductive OpenPhase where
  | unsent
  | queued
  | handled
  | refused
  | accepted
  deriving DecidableEq

namespace OpenPhase

def answered (ok : Bool) : OpenPhase := if ok then .accepted else .refused

/-- A call that returns an error, or has done so. -/
def givenUp : OpenPc → Bool
  | .givingUp | .unregistered | .failed => true
  | _ => false

/-- What an `openTCPFlow` call knows of its request; `absent` tells that the session has not
filed the flow or has dropped it, and `resolved` that `readLoop` is about to close the reply
channel. -/
structure AtCall (phase : OpenPhase) (absent : Prop) (shutdown : ShutdownPc) (resolved : Prop)
    (call : OpenCall) : Prop where
  unsent : call.pc ∈ [.idle, .registered] → phase = .unsent
  givenUp : shutdown = .idle → givenUp call.pc → phase = .accepted → absent
  reply : shutdown = .idle → call.reply = some false → phase = .refused
  closed : resolved ∨ call.replyClosed → call.reply ≠ none ∨
    call.pc ∈ [.accepted, .opened, .failed]

/-- What the client knows of the request for flow `f`. -/
structure AtClient (phase : OpenPhase) (absent : Prop) (s : ClientState) (f : ℕ) : Prop where
  call : phase.AtCall absent s.shutdown (s.loop = .closeReply f) (s.calls f)
  wire : .openFail f ∈ s.wire → phase = .refused
  loop : s.loop = .resolve f false ∨ s.loop = .reply f false → phase = .refused

variable {phase phase' : OpenPhase} {s s' : ClientState} {f g : ℕ} {call : OpenCall}
  {shutdown : ShutdownPc} {absent absent' resolved : Prop} {a : ClientStep}

theorem initial_atClient (f : ℕ) : unsent.AtClient absent .initial f where
  call := by
    refine ⟨fun _ => rfl, fun _ _ hphase => (by cases hphase), fun _ hreply => ?_,
      fun hclosed => ?_⟩
    · cases hreply
    · simp [ClientState.initial] at hclosed
  wire h := by cases h
  loop h := by simp [ClientState.initial] at h

theorem AtClient.mono (h : phase.AtClient absent s f)
    (habsent : phase = .accepted → absent → absent') : phase.AtClient absent' s f :=
  { h with call := { h.call with
      givenUp := fun hshut hpc hphase => habsent hphase (h.call.givenUp hshut hpc hphase) } }

theorem AtClient.advance (h : phase.AtClient absent s f) (hphase : phase ∈ [.queued, .handled])
    (haccepted : phase' = .accepted → s.shutdown = .idle → ¬givenUp (s.calls f).pc) :
    phase'.AtClient absent' s f where
  call := by
    refine ⟨fun hpc => ?_, fun hshutdown hpc hphase' => absurd hpc (haccepted hphase' hshutdown),
      fun hshutdown hreply => ?_, h.call.closed⟩
    · rw [h.call.unsent hpc] at hphase
      simp at hphase
    · rw [h.call.reply hshutdown hreply] at hphase
      simp at hphase
  wire hwire := by
    rw [h.wire hwire] at hphase
    simp at hphase
  loop hloop := by
    rw [h.loop hloop] at hphase
    simp at hphase

theorem AtCall.setPc {pc : OpenPc} (h : phase.AtCall absent shutdown resolved call)
    (hunsent : pc ∈ [.idle, .registered] → phase = .unsent)
    (hgivenUp : shutdown = .idle → OpenPhase.givenUp pc → phase = .accepted → absent)
    (hclosed : call.pc ∈ [.accepted, .opened, .failed] → pc ∈ [.accepted, .opened, .failed]) :
    phase.AtCall absent shutdown resolved { call with pc } :=
  ⟨hunsent, hgivenUp, h.reply, fun hr => (h.closed hr).imp_right hclosed⟩

theorem AtClient.setCall (h : phase.AtClient absent s f)
    (hcall : g = f → phase.AtCall absent s.shutdown (s.loop = .closeReply f) call) :
    phase.AtClient absent (s.setCall g call) f := by
  refine ⟨?_, h.wire, h.loop⟩
  by_cases hg : f = g
  · subst hg
    simpa [ClientState.setCall] using hcall rfl
  · simpa [ClientState.setCall, hg] using h.call

theorem AtClient.setPc {pc : OpenPc} (h : phase.AtClient absent s f)
    (hunsent : g = f → pc ∈ [.idle, .registered] → phase = .unsent)
    (hgivenUp : g = f → s.shutdown = .idle → OpenPhase.givenUp pc → phase = .accepted → absent)
    (hclosed : (s.calls g).pc ∈ [.accepted, .opened, .failed] →
      pc ∈ [.accepted, .opened, .failed]) :
    phase.AtClient absent (s.setPc g pc) f := by
  refine h.setCall fun hg => ?_
  subst hg
  exact h.call.setPc (hunsent rfl) (hgivenUp rfl) hclosed

theorem register_atClient (h : phase.AtClient absent s f) (hstep : s.register g = some s') :
    phase.AtClient absent s' f := by
  obtain ⟨hpc, rfl⟩ := of_guard hstep
  refine AtClient.setPc { h with } (fun hg _ => ?_) (fun _ _ hgiven => ?_) (fun hold => ?_)
  · subst hg
    exact h.call.unsent (by simp [hpc])
  · cases hgiven
  · rw [hpc] at hold
    simp at hold

theorem writeFails_atClient (h : phase.AtClient absent s f)
    (hstep : s.writeOpen g false = some s') : phase.AtClient absent s' f := by
  obtain ⟨hpc, rfl⟩ := of_guard hstep
  refine h.setPc (fun _ hpc' => ?_) (fun hg _ _ hphase => ?_) (fun hold => ?_)
  · simp at hpc'
  · subst hg
    cases (h.call.unsent (by simp [hpc])).symm.trans hphase
  · rw [hpc] at hold
    simp at hold

theorem writeOther_atClient (h : phase.AtClient absent s f) (hg : g ≠ f)
    (hstep : s.writeOpen g true = some s') : phase.AtClient absent s' f := by
  obtain ⟨-, rfl⟩ := of_guard hstep
  exact AtClient.setCall { h with } fun heq => absurd heq hg

theorem writeOpen_atClient (h : phase.AtClient absent s f) (hstep : s.writeOpen f true = some s') :
    phase = .unsent ∧ queued.AtClient absent s' f := by
  obtain ⟨hpc, rfl⟩ := of_guard hstep
  have hunsent := h.call.unsent (by simp [hpc])
  subst hunsent
  refine ⟨rfl, ⟨?_, fun hwire => ?_, fun hloop => ?_⟩⟩
  · simp only [ClientState.setPc, ClientState.setCall, update_self]
    refine ⟨fun hpc' => ?_, fun _ hpc' => ?_, fun hshutdown hreply => ?_, fun hr => ?_⟩
    · simp at hpc'
    · cases hpc'
    · cases h.call.reply hshutdown hreply
    · simpa [hpc] using h.call.closed hr
  · cases h.wire hwire
  · cases h.loop hloop

theorem receive_atClient (h : phase.AtClient absent s f) (hstep : s.receive g = some s') :
    phase.AtClient absent s' f := by
  obtain ⟨hpc, hstep⟩ := ite_none_right_eq_some.mp hstep
  split at hstep
  case h_1 hreply =>
    cases hstep
    refine h.setCall fun _ => ⟨fun hpc' => ?_, fun _ hpc' => ?_, fun _ hr => ?_, fun _ => ?_⟩
    · simp at hpc'
    · cases hpc'
    · cases hr
    · simp
  case h_2 hreply =>
    cases hstep
    refine h.setCall fun hg => ⟨fun hpc' => ?_, fun hshutdown _ hphase => ?_, fun _ hr => ?_,
      fun _ => ?_⟩
    · simp at hpc'
    · subst hg
      cases (h.call.reply hshutdown hreply).symm.trans hphase
    · cases hr
    · simp
  case h_3 hreply =>
    obtain ⟨hclosed, rfl⟩ := of_guard hstep
    refine h.setCall fun hg => absurd (h.call.closed ?_) ?_
    · subst hg
      exact .inr hclosed
    · subst hg
      simp [hreply, hpc]

theorem timeout_atClient (h : phase.AtClient absent s f) (habsent : g = f → absent)
    (hstep : s.timeout g = some s') : phase.AtClient absent s' f := by
  obtain ⟨hpc, rfl⟩ := of_guard hstep
  refine h.setPc (fun _ hpc' => ?_) (fun hg _ _ _ => habsent hg) (fun hold => ?_)
  · simp at hpc'
  · rw [hpc] at hold
    simp at hold

theorem unregister_atClient (h : phase.AtClient absent s f) (hstep : s.unregister g = some s') :
    phase.AtClient absent s' f := by
  obtain ⟨hpc, hstep⟩ := ite_none_right_eq_some.mp hstep
  have hgiven (hg : g = f) (hshutdown : s.shutdown = .idle) : phase = .accepted → absent := by
    subst hg
    exact h.call.givenUp hshutdown (by rw [hpc]; rfl)
  have hold : (s.calls g).pc ∉ [.accepted, .opened, .failed] := by simp [hpc]
  split_ifs at hstep
  · cases hstep
    refine AtClient.setPc { h with } (fun _ hpc' => ?_) (fun hg hs _ => hgiven hg hs)
      (absurd · hold)
    simp at hpc'
  · cases hstep
    refine h.setPc (fun _ hpc' => ?_) (fun hg hs _ => hgiven hg hs) (absurd · hold)
    simp at hpc'

theorem closeReply_atClient (h : phase.AtClient absent s f) (hstep : s.closeReply g = some s') :
    phase.AtClient absent s' f := by
  obtain ⟨hpc, hstep⟩ := ite_none_right_eq_some.mp hstep
  split_ifs at hstep
  · cases hstep
    exact { h with }
  · cases hstep
    refine h.setCall fun hg => ?_
    subst hg
    refine ⟨fun hpc' => ?_, fun hshutdown _ => ?_, h.call.reply, fun _ => ?_⟩
    · simp at hpc'
    · exact h.call.givenUp hshutdown (by rw [hpc]; rfl)
    · simp

theorem insertFlow_atClient (h : phase.AtClient absent s f) (hstep : s.insertFlow g = some s') :
    phase.AtClient absent s' f := by
  obtain ⟨-, rfl⟩ := of_guard hstep
  refine AtClient.setPc { h with } (fun _ hpc' => ?_) (fun _ _ hpc' => ?_) (fun _ => ?_)
  · simp at hpc'
  · cases hpc'
  · simp

theorem AtClient.setLoop {loop : LoopPc} (h : phase.AtClient absent s f)
    (hloop : loop = .resolve f false ∨ loop = .reply f false → phase = .refused)
    (hclose : loop ≠ .closeReply f) : phase.AtClient absent { s with loop } f where
  call := ⟨h.call.unsent, h.call.givenUp, h.call.reply,
    fun hr => h.call.closed (.inr (hr.resolve_left hclose))⟩
  wire := h.wire
  loop := hloop

theorem readFrame_atClient (h : phase.AtClient absent s f) (hstep : s.readFrame = some s') :
    phase.AtClient absent s' f := by
  unfold ClientState.readFrame at hstep
  split at hstep
  · cases hstep
  case h_2 frame wire hwire =>
    cases hstep
    have hfail : frame = .openFail f → phase = .refused := fun heq => h.wire (by simp [hwire, heq])
    have hrest : phase.AtClient absent { s with wire } f :=
      { h with wire := fun hmem => h.wire (by simp [hwire, hmem]) }
    refine hrest.setLoop (fun hloop => hfail ?_) ?_
    · cases frame <;> simp_all
    · cases frame <;> simp

theorem push_atClient {frame : GatewayFrame} (h : phase.AtClient absent s f) :
    phase.AtClient absent (s.push g frame) f := by
  have hloop : phase.AtClient absent { s with loop := .reading } f := h.setLoop (by simp) (by simp)
  have hreading (room : Bool) (flow : FramedFlow) :
      phase.AtClient absent ((s.setObject g flow).pushed g frame room) f := { hloop with }
  unfold ClientState.push
  split
  · dsimp only
    split
    · exact { h with }
    · exact hreading _ _
  · exact hreading _ _

theorem reply_atClient {ok : Bool} (h : phase.AtClient absent s f) (hpc : s.loop = .reply g ok) :
    phase.AtClient absent
      { s.setCall g { s.calls g with reply := some ok } with loop := .closeReply g } f := by
  refine ⟨?_, h.wire, by simp⟩
  by_cases hg : f = g
  · subst hg
    simp only [ClientState.setCall, update_self]
    refine ⟨h.call.unsent, h.call.givenUp, fun _ hreply => ?_, fun _ => .inl (by simp)⟩
    cases hreply
    exact h.loop (.inr hpc)
  · have hne : LoopPc.closeReply g ≠ .closeReply f := by simpa using Ne.symm hg
    simp only [ClientState.setCall, update_of_ne hg]
    exact ⟨h.call.unsent, h.call.givenUp, h.call.reply,
      fun hr => h.call.closed (.inr (hr.resolve_left hne))⟩

theorem closeAnswered_atClient (h : phase.AtClient absent s f) (hpc : s.loop = .closeReply g) :
    phase.AtClient absent
      { s.setCall g { s.calls g with replyClosed := true } with loop := .reading } f := by
  have hset : phase.AtClient absent (s.setCall g { s.calls g with replyClosed := true }) f := by
    refine h.setCall fun hg => ?_
    subst hg
    exact ⟨h.call.unsent, h.call.givenUp, h.call.reply, fun _ => h.call.closed (.inl hpc)⟩
  exact hset.setLoop (by simp) (by simp)

theorem loopStep_atClient (h : phase.AtClient absent s f) (hstep : s.loopStep = some s') :
    phase.AtClient absent s' f := by
  unfold ClientState.loopStep at hstep
  split at hstep
  case h_1 => exact readFrame_atClient h hstep
  case h_2 g ok hpc =>
    have hrefused : g = f → ok = false → phase = .refused := by
      rintro rfl rfl
      exact h.loop (.inl hpc)
    split_ifs at hstep
    · cases hstep
      refine AtClient.setLoop (s := { s with pendingTCP := _ }) { h with } (fun hloop => ?_)
        (by simp)
      simp only [reduceCtorEq, LoopPc.reply.injEq, false_or] at hloop
      exact hrefused hloop.1 hloop.2
    · cases hstep
      exact h.setLoop (by simp) (by simp)
  case h_3 g ok hpc =>
    split_ifs at hstep
    · cases hstep
      exact { h with }
    · cases hstep
      exact reply_atClient h hpc
  case h_4 g hpc =>
    split_ifs at hstep
    · cases hstep
      exact { h with }
    · cases hstep
      exact closeAnswered_atClient h hpc
  case h_5 g frame hpc =>
    cases hstep
    refine h.setLoop (fun hloop => ?_) ?_
    · split_ifs at hloop <;> simp at hloop
    · split_ifs <;> simp
  case h_6 g frame hpc =>
    cases hstep
    exact push_atClient h
  case h_7 =>
    obtain ⟨-, rfl⟩ := of_guard hstep
    exact h.setLoop (by simp) (by simp)
  case h_8 => cases hstep

theorem AtClient.setShutdown (h : phase.AtClient absent s f) (hshutdown : shutdown ≠ .idle) :
    phase.AtClient absent { s with shutdown } f :=
  { h with call := ⟨h.call.unsent, fun hs => absurd hs hshutdown, fun hs => absurd hs hshutdown,
      h.call.closed⟩ }

theorem readError_atClient (h : phase.AtClient absent s f) (hstep : s.readError = some s') :
    phase.AtClient absent s' f := by
  obtain ⟨-, rfl⟩ := of_guard hstep
  refine AtClient.setShutdown (s := { s with loop := .closing }) (h.setLoop (by simp) (by simp)) ?_
  split_ifs with hs
  · simp
  · exact hs

theorem shutdownStep_atClient {err : FlowError} (h : phase.AtClient absent s f)
    (hstep : s.shutdownStep err = some s') : phase.AtClient absent s' f := by
  unfold ClientState.shutdownStep at hstep
  split at hstep
  case h_3 =>
    cases hstep
    refine ⟨⟨fun hpc => ?_, by simp, by simp, fun hr => ?_⟩, h.wire, h.loop⟩
    · refine h.call.unsent ?_
      dsimp only at hpc
      split_ifs at hpc <;> exact hpc
    · dsimp only at hr ⊢
      split_ifs at hr ⊢
      · simp
      · exact h.call.closed hr
  case h_5 => cases hstep
  all_goals
    cases hstep
    exact { h.setShutdown (by simp) with }

/-- A step of the client that does not send the request, and is no timeout of its call while
the session has the flow. -/
theorem AtClient.step_atClient (h : phase.AtClient absent s f) (hsend : a ≠ .writeOpen f true)
    (hgateway : ∀ frame, a ≠ .gateway frame) (htimeout : a = .timeout f → absent)
    (hstep : s.step a = some s') : phase.AtClient absent s' f := by
  obtain ⟨-, hstep⟩ := ite_none_left_eq_some.mp hstep
  cases a with
  | register g => exact register_atClient h hstep
  | writeOpen g ok =>
    cases ok with
    | false => exact writeFails_atClient h hstep
    | true => exact writeOther_atClient h (fun hg => hsend (by rw [hg])) hstep
  | receive g => exact receive_atClient h hstep
  | timeout g => exact timeout_atClient h (fun hg => htimeout (by rw [hg])) hstep
  | unregister g => exact unregister_atClient h hstep
  | closeReply g => exact closeReply_atClient h hstep
  | insert g => exact insertFlow_atClient h hstep
  | gateway frame => exact absurd rfl (hgateway frame)
  | loop => exact loopStep_atClient h hstep
  | readError => exact readError_atClient h hstep
  | read g n branch =>
    obtain ⟨-, hstep⟩ := ite_none_right_eq_some.mp hstep
    obtain ⟨r, -, rfl⟩ := map_eq_some_iff.mp hstep
    exact { h with }
  | closeFlow g =>
    change s.closeFlow g = some s' at hstep
    unfold ClientState.closeFlow at hstep
    split at hstep
    case h_1 =>
      obtain ⟨-, rfl⟩ := of_guard hstep
      exact { h with }
    case h_4 => cases hstep
    all_goals
      cases hstep
      exact { h with }
  | shutdown err => exact shutdownStep_atClient h hstep

end OpenPhase
end VlfProto.Link
