import VlfProto.Session.FlowEnds
import VlfProto.Session.QUIC.WaitGroup

/-! # What the limiter keeps of an unregistered session -/

namespace VlfProto.Session
open Platform Transition Option

/-- The loop has data in hand for which it calls the limiter next. -/
def TCPLoopPc.metering : TCPLoopPc → Bool
  | .limit _ _ => true
  | _ => false

namespace TCPSession

variable {s s' : TCPSession} {label : TCPSessionStep} {k : ℕ} {r : TCPSession × Bool}
  {frame : Option Frame} {failed ok : Bool}

/-- What a loop reads from its target. -/
def brought : TCPSessionStep → Bytes
  | .loop _ data _ _ => data
  | _ => []

/-- Nobody is left who will call the limiter unless more data comes, and the limiter has
forgotten the session. -/
structure Over (s : TCPSession) : Prop where
  run : s.run = .deferredClose ∨ s.run = .returned
  loops : ∀ k, (s.flows k).loop.metering = false
  forgotten : s.limiterEntry = false

theorem bodyStep_limiterEntry {stage : TCPCloseStage} {next : Option TCPCloseStage}
    (h : s.bodyStep stage = some (s', next)) : s'.limiterEntry = s.limiterEntry := by
  cases bodyStep_cases h <;> rfl

theorem closeStep_limiterEntry {g : TCPGoroutine} (h : s.closeStep g = some r) :
    r.1.limiterEntry = s.limiterEntry := by
  rcases closeStep_cases h with ⟨-, rfl⟩ | ⟨stage, s', next, -, hbody, rfl⟩ | ⟨-, rfl⟩
  · rfl
  · exact (bodyStep_limiterEntry hbody :)
  · rfl

theorem Over.close {g : TCPGoroutine} (hs : s.Over) (h : s.closeStep g = some r) : r.1.Over where
  run := (closeStep_moves h).run ▸ hs.run
  loops k := (closeStep_moves h).loop k ▸ hs.loops k
  forgotten := (closeStep_limiterEntry h).trans hs.forgotten

theorem Over.closeFlow {pc : CloseFlowPc} {r : TCPSession × Option CloseFlowPc} (hs : s.Over)
    (h : s.closeFlowStep ok pc = some r) : r.1.Over := by
  cases closeFlowStep_cases h with
  | closeTarget => exact { hs with loops := fun k => (closeTarget_loop s _ k).symm ▸ hs.loops k }
  | _ => exact { hs with }

theorem Over.setLoop {pc : TCPLoopPc} (hs : s.Over) (hpc : pc.metering = false) :
    (s.setLoop k pc).Over := by
  refine { hs with loops := fun j => ?_ }
  by_cases hj : j = k
  · subst hj
    rwa [setLoop_loop_self]
  · rw [setLoop_loop_of_ne s pc hj]
    exact hs.loops j

theorem loopStep_over (hs : s.Over) (h : s.loopStep k [] failed ok = some s') : s'.Over := by
  have hafter : ∀ flowID failed, (afterRead flowID failed).metering = false := by
    rintro flowID (_ | _) <;> rfl
  cases hpc : (s.flows k).loop <;> simp only [loopStep, hpc, map_eq_some_iff, reduceCtorEq] at h
  case read =>
    obtain ⟨-, rfl⟩ := of_guard h
    exact hs.setLoop (hafter _ _)
  case limit data failed =>
    have hholds := hs.loops k
    rw [hpc] at hholds
    cases hholds
  case write data failed =>
    obtain ⟨s₁, hwrite, rfl⟩ := h
    obtain ⟨rfl, -⟩ := writeFrame_cases hwrite
    refine Over.setLoop { hs with } ?_
    split_ifs
    · exact hafter _ _
    · rfl
  case closing =>
    obtain ⟨r, hr, rfl⟩ := h
    have hclosed := hs.close hr
    split_ifs
    · exact hclosed.setLoop rfl
    · exact hclosed
  case closeFlow pc =>
    obtain ⟨r, hr, rfl⟩ := h
    refine (hs.closeFlow hr).setLoop ?_
    cases r.2 <;> rfl
  case exiting =>
    cases h
    exact Over.setLoop { hs with } rfl

theorem runStep_over {ok : Bool} {n : ℕ} (hs : s.Over) (h : s.runStep frame ok n = some s') :
    s'.Over := by
  rcases hs.run with hpc | hpc
  · simp only [runStep, hpc, map_eq_some_iff] at h
    obtain ⟨r, hr, rfl⟩ := h
    have hclosed := hs.close hr
    split_ifs
    · exact { hclosed with run := .inr rfl }
    · exact hclosed
  · simp [runStep, hpc] at h

theorem step_over (s : TCPSession) (label : TCPSessionStep) (s' : TCPSession) (hs : s.Over)
    (hnothing : brought label = []) (h : s.step label = some s') : s'.Over := by
  cases label with
  | run frame ok n => exact runStep_over hs h
  | loop k data failed ok =>
    obtain rfl : data = [] := hnothing
    exact loopStep_over hs h
  | callClose i =>
    obtain ⟨-, rfl⟩ := of_guard h
    exact { hs with }
  | closer i =>
    obtain ⟨r, closers, hr, rfl⟩ := closerStep_moves h
    exact { hs.close hr with }

/-- No loop has data in hand. -/
def NoneHeld (s : TCPSession) : Prop := ∀ k < s.created, (s.flows k).loop.metering = false

instance (s : TCPSession) : Decidable s.NoneHeld :=
  inferInstanceAs (Decidable (∀ k < s.created, _))

theorem unregister_over {n : ℕ} (hs : s.Consistent) (hnone : s.NoneHeld)
    (hpc : s.run = .unregister) (h : s.runStep frame ok n = some s') : s'.Over := by
  simp only [runStep, hpc] at h
  cases h
  refine ⟨.inl rfl, fun k => ?_, rfl⟩
  rcases Nat.lt_or_ge k s.created with hk | hk
  · exact hnone k hk
  · exact (hs.uncreated k hk).symm ▸ rfl

/-- `s` is reached after `Run` has unregistered the session, which it did in a state
with property `P`, and no target has sent anything since. -/
def UnregisteredWhen (P : TCPSession → Prop) (maxFlows : ℤ) (s : TCPSession) : Prop :=
  ∃ before s₁ frame ok n s₂ after, Path step anyLabel (new maxFlows) before s₁ ∧
    s₁.run = .unregister ∧ P s₁ ∧ s₁.step (.run frame ok n) = some s₂ ∧
    Path step (fun _ label => brought label = []) s₂ after s

theorem UnregisteredWhen.exists_of_run {P Q : TCPSession → Prop} [DecidablePred P]
    [DecidablePred Q] {maxFlows : ℤ} (before after : List TCPSessionStep)
    (h : (Transition.run step anyLabel (new maxFlows) before).any fun s₁ =>
      s₁.run = .unregister ∧ P s₁ ∧
        (Transition.run step (fun _ label => brought label = []) s₁ (.run none true 0 :: after)).any
          fun s => Q s) :
    ∃ s, UnregisteredWhen P maxFlows s ∧ Q s := by
  obtain ⟨s₁, hbefore, hpc, hP, hrest⟩ := Path.exists_of_run h
  obtain ⟨s, hpath, hQ⟩ := Path.exists_of_run hrest
  obtain _ | ⟨-, hstep, hafter⟩ := hpath
  exact ⟨s, ⟨before, s₁, none, true, 0, _, after, hbefore, hpc, hP, hstep, hafter⟩, hQ⟩

theorem UnregisteredWhen.over {maxFlows : ℤ}
    (h : UnregisteredWhen NoneHeld maxFlows s) : s.Over := by
  obtain ⟨before, s₁, frame, ok, n, s₂, after, hbefore, hpc, hnone, hstep, hafter⟩ := h
  have hs := hbefore.invariant (fun _ _ _ hs _ => step_consistent hs) (new_consistent maxFlows)
  exact hafter.invariant step_over (unregister_over hs hnone hpc hstep)

end TCPSession

namespace QUICSession

variable {s s' : QUICSession} {limits : Limits.Manager} {cfg : SessionConfig} {id : UInt64}

/-- Nobody is left who will call the limiter unless more data comes, and the limiter has
forgotten the session. -/
def Over (s : QUICSession) : Prop := s.threads.Over

theorem step_over (s : QUICSession) (label : QUICSessionStep) (s' : QUICSession) (hs : s.Over)
    (hnothing : brought label = []) (h : s.step label = some s') : s'.Over :=
  (step_move h).over (not_not.mpr hnothing) hs

/-- No goroutine that copies between a stream and its target has data in hand. -/
def NoneHeld (s : QUICSession) : Prop :=
  ∀ i < s.accepted, (s.streams i).upload.metering = false ∧ (s.streams i).download.metering = false

instance (s : QUICSession) : Decidable s.NoneHeld :=
  inferInstanceAs (Decidable (∀ i < s.accepted, _))

theorem NoneHeld.copyPc (h : s.NoneHeld) (hs : s.Grouped) (i : ℕ) (dir : CopyDirection) :
    (s.copyPc i dir).metering = false := by
  rcases Nat.lt_or_ge i s.accepted with hi | hi
  · cases dir with
    | upload => exact (h i hi).1
    | download => exact (h i hi).2
  · have hpc : s.copyPc i dir = .notStarted := (hs.unaccepted i hi).2 dir
    rw [hpc]
    rfl

theorem unregister_over {frame : Option Frame} {ok : Bool} (hs : s.Grouped)
    (hcopies : s.NoneHeld) (hpc : s.run = .unregister) (h : s.runStep frame ok = some s') :
    s'.Over := by
  simp only [runStep, hpc] at h
  cases h
  have hdead : s.threads.Dead := hs.idle (.inr (by change s.run.ended; rw [hpc]; rfl))
  exact ⟨.inl rfl, hdead, hcopies.copyPc hs,
    (Table.lookup_erase_eq _ _ _).trans (if_pos rfl),
    (Table.lookup_erase_eq _ _ _).trans (if_pos rfl)⟩

/-- `s` is reached after `Run` has unregistered the session, which it did in a state
with property `P`, and no copying goroutine has read anything since. -/
def UnregisteredWhen (P : QUICSession → Prop) (cfg : SessionConfig) (id : UInt64)
    (limits : Limits.Manager) (s : QUICSession) : Prop :=
  ∃ before s₁ frame ok s₂ after, Path step anyLabel (new cfg id limits) before s₁ ∧
    s₁.run = .unregister ∧ P s₁ ∧ s₁.step (.run frame ok) = some s₂ ∧
    Path step (fun _ label => brought label = []) s₂ after s

theorem UnregisteredWhen.exists_of_run {P Q : QUICSession → Prop} [DecidablePred P]
    [DecidablePred Q] {cfg : SessionConfig} {id : UInt64} {limits : Limits.Manager}
    (before after : List QUICSessionStep)
    (h : (Transition.run step anyLabel (new cfg id limits) before).any fun s₁ =>
      s₁.run = .unregister ∧ P s₁ ∧
        (Transition.run step (fun _ label => brought label = []) s₁ (.run none true :: after)).any
          fun s => Q s) :
    ∃ s, UnregisteredWhen P cfg id limits s ∧ Q s := by
  obtain ⟨s₁, hbefore, hpc, hP, hrest⟩ := Path.exists_of_run h
  obtain ⟨s, hpath, hQ⟩ := Path.exists_of_run hrest
  obtain _ | ⟨-, hstep, hafter⟩ := hpath
  exact ⟨s, ⟨before, s₁, none, true, _, after, hbefore, hpc, hP, hstep, hafter⟩, hQ⟩

theorem UnregisteredWhen.over (h : UnregisteredWhen NoneHeld cfg id limits s) : s.Over := by
  obtain ⟨before, s₁, frame, ok, s₂, after, hbefore, hpc, hcopies, hstep, hafter⟩ := h
  have hs := hbefore.invariant step_grouped (new_grouped cfg id limits)
  exact hafter.invariant step_over (unregister_over hs hcopies hpc hstep)

theorem path_id {ok : QUICSession → QUICSessionStep → Prop} {labels : List QUICSessionStep}
    (h : Path step ok s labels s') :
    s'.id = s.id := by
  induction h with
  | nil => rfl
  | cons _ hstep _ ih => exact ih.trans (step_move hstep).id_eq

theorem UnregisteredWhen.id_eq {P : QUICSession → Prop} (h : UnregisteredWhen P cfg id limits s) :
    s.id = id := by
  obtain ⟨before, s₁, frame, ok, s₂, after, hbefore, -, -, hstep, hafter⟩ := h
  calc s.id = s₂.id := path_id hafter
    _ = s₁.id := (step_move hstep).id_eq
    _ = id := path_id hbefore

end QUICSession

/-- When no goroutine of a flow has data in hand at the time a session is unregistered, the
limiter has no entry of the session for as long as none of them reads more. -/
theorem unregistered_forgotten (maxFlows : ℤ) (s : TCPSession) (cfg : SessionConfig)
    (id : UInt64) (limits : Limits.Manager) (s' : QUICSession) :
    (TCPSession.UnregisteredWhen TCPSession.NoneHeld maxFlows s → s.limiterEntry = false) ∧
    (QUICSession.UnregisteredWhen QUICSession.NoneHeld cfg id limits s' →
      s'.limits.sessionBytes.lookup id = none ∧ s'.limits.sessionPackets.lookup id = none) := by
  refine ⟨fun h => h.over.forgotten, fun h => ?_⟩
  rw [← h.id_eq]
  exact h.over.forgotten

namespace TCPSession

/-- The loop of flow 1 has read `data` when the client leaves. -/
def leftRun (data : List Bytes) : List TCPSessionStep :=
  openRun ++ data.map (.loop 0 · false true) ++ [.run none true 0]

end TCPSession

namespace QUICSession

/-- The target of flow 1 ends the stream while the client has sent `data`, and then the
client leaves. -/
def leavingRun (data : List Bytes) : List QUICSessionStep :=
  openTCPRun ++ [.acceptor true, .stream 0 (some 1) true] ++
    List.replicate 3 (.stream 0 none true) ++ data.map (.copy 0 .upload · .more true 0 0) ++
    List.replicate 2 (.copy 0 .download [] .eof true 0 0) ++
    List.replicate 7 (.stream 0 none true) ++ List.replicate 8 (.control none true) ++
    List.replicate 2 (.acceptor false) ++ List.replicate 2 (.pinger false) ++
    List.replicate 2 (.datagramReader none 0) ++ List.replicate 3 (.worker 0 false 0) ++
    List.replicate 2 (.run none true)

end QUICSession

/-- The client leaves while the goroutines of its flow wait for data, and these end later. -/
theorem idle_sessions_forgotten :
    (∃ s, TCPSession.UnregisteredWhen TCPSession.NoneHeld 1 s ∧ s.run = .returned ∧
      (s.flows 0).loop = .stopped ∧ s.limiterEntry = false) ∧
    ∃ s, QUICSession.UnregisteredWhen QUICSession.NoneHeld QUICSession.twoFlows 1
        QUICSession.noLimits s ∧ s.run = .deferredClose ∧ (s.streams 0).upload = .stopped ∧
      s.limits.sessionBytes.lookup 1 = none ∧ s.limits.sessionPackets.lookup 1 = none := by
  obtain ⟨s, hs, hrun, hloop⟩ : ∃ s, TCPSession.UnregisteredWhen TCPSession.NoneHeld 1 s ∧
      s.run = .returned ∧ (s.flows 0).loop = .stopped :=
    TCPSession.UnregisteredWhen.exists_of_run (TCPSession.leftRun [])
      (List.replicate 5 (.run none true 0) ++ List.replicate 3 (.loop 0 [] true true) ++
        List.replicate 2 (.run none true 0)) (by decide +kernel)
  obtain ⟨s', hs', hrun', hcopy⟩ : ∃ s', QUICSession.UnregisteredWhen QUICSession.NoneHeld
      QUICSession.twoFlows 1 QUICSession.noLimits s' ∧ s'.run = .deferredClose ∧
        (s'.streams 0).upload = .stopped :=
    QUICSession.UnregisteredWhen.exists_of_run (QUICSession.leavingRun [])
      (List.replicate 2 (.copy 0 .upload [] .failed false 0 0)) (by decide +kernel)
  obtain ⟨htcp, hquic⟩ := unregistered_forgotten 1 s QUICSession.twoFlows 1 QUICSession.noLimits s'
  exact ⟨⟨s, hs, hrun, hloop, htcp hs⟩, s', hs', hrun', hcopy, hquic hs'⟩

theorem left_sessions_remembered :
    (∃ s, TCPSession.UnregisteredWhen (fun _ => True) 1 s ∧ s.run = .deferredClose ∧
      s.limiterEntry = true) ∧
    ∃ s, QUICSession.UnregisteredWhen (fun _ => True) QUICSession.twoFlows 1
        QUICSession.noLimits s ∧ s.run = .deferredClose ∧
      s.limits.sessionBytes.lookup 1 ≠ none := by
  constructor
  · exact TCPSession.UnregisteredWhen.exists_of_run (TCPSession.leftRun [[7]])
      [.loop 0 [] false true] (by decide +kernel)
  · exact QUICSession.UnregisteredWhen.exists_of_run (QUICSession.leavingRun [[7]])
      [.copy 0 .upload [] .eof true 0 0] (by decide +kernel)

end VlfProto.Session
