import VlfProto.Session.QUIC.ControlSteps
import VlfProto.Session.QUIC.ThreadMoves

/-! # The wait group of a QUIC session -/

namespace VlfProto.Session
open Platform Transition Function Option

theorem ControlPc.opens_of_handsOff {pc : ControlPc} (h : pc.handsOff) : pc.opens = none := by
  cases pc with
  | insert f id | writeOpenOK f id | spawn k => cases h
  | _ => rfl

namespace QUICSession

variable {s s' : QUICSession} {i : ℕ} {ok : Bool} {frame : Option Frame}
  {label : QUICSessionStep} {brings : Prop}

theorem threads_control (s : QUICSession) (pc : ControlPc) : { s with control := pc }.threads =
    { s.threads with live := update s.threads.live .control pc.live, opens := pc.opens } :=
  congrArg (fun live => { s.threads with live, opens := pc.opens }) (by funext g; cases g <;> rfl)

theorem threads_control_of_live {pc : ControlPc} (hlive : s.live .control) (hpc : pc.live) :
    { s with control := pc }.threads = { s.threads with opens := pc.opens } := by
  rw [threads_control s pc, hpc, ← hlive]
  exact congrArg (fun live => { s.threads with live, opens := pc.opens })
    (update_eq_self .control s.live)

theorem setControl_move {t : QUICSession} {pc : ControlPc} (ht : t.threads = s.threads)
    (hlive : s.live .control) (hpc : pc.live)
    (hopens : ∀ k, pc.opens = some k → s.control.opens = some k) :
    s.threads.Move brings { t with control := pc }.threads := by
  rw [threads_control t pc, ht]
  exact .own hlive (by simp [hpc]) hopens fun _ _ => rfl

theorem file_threads (s : QUICSession) (f : FlowRef) (flowID : ℕ) :
    (s.file f flowID).threads = s.threads := by
  obtain ⟨kind, k⟩ := f
  cases kind <;> rfl

theorem live_of_entry {pc : ControlPc} (h : pc.entry) : pc.live := by
  cases pc <;> first | rfl | cases h

theorem openCheck_live (s : QUICSession) (kind : FlowKind) (p : OpenPayload) :
    (s.openCheck kind p).live := by
  rcases s.openCheck_cases kind p with ⟨reason, h⟩ | ⟨h, -⟩ <;> rw [h] <;> rfl

theorem controlStep_move (h : s.controlStep frame ok = some s') :
    s.threads.Move brings s'.threads := by
  have hlive {pc : ControlPc} (hpc : s.control = pc) (h : pc.live) : s.live .control := by
    rwa [live, hpc]
  cases controlStep_cases h with
  | readFrame hpc _ hentry =>
    exact setControl_move rfl (hlive hpc rfl) (live_of_entry hentry)
      (by simp [ControlPc.opens_of_handsOff (ControlPc.handsOff_of_entry hentry)])
  | openCheck hpc =>
    exact setControl_move rfl (hlive hpc rfl) (s.openCheck_live _ _)
      (by simp [ControlPc.opens_of_handsOff (s.openCheck_handsOff _ _)])
  | @dial kind flowID hpc hok =>
    cases kind with
    | tcp => exact setControl_move rfl (hlive hpc rfl) rfl (by simp [ControlPc.opens])
    | udp =>
      rw [threads_control_of_live (s := s.createFlow flowID .udp) (hlive hpc rfl) rfl, createFlow,
        threads_setUDP]
      exact .create (hlive hpc rfl)
  | @insert f flowID hpc hnone =>
    refine setControl_move (s.file_threads f flowID) (hlive hpc rfl) rfl fun k hk => ?_
    rw [hpc]
    obtain ⟨kind, j⟩ := f
    cases kind <;> exact hk
  | duplicate hpc hsome | reply hpc | dialFails hpc hok =>
    exact setControl_move rfl (hlive hpc rfl) rfl (by simp [ControlPc.opens])
  | @closeDuplicate f flowID hpc =>
    exact setControl_move (s.dropFlow_shuts f).threads (hlive hpc rfl) rfl
      (by simp [ControlPc.opens])
  | @writeOpenOK f flowID hpc =>
    obtain ⟨kind, j⟩ := f
    refine setControl_move rfl (hlive hpc rfl) ?_ fun k hk => ?_
    · cases ok <;> cases kind <;> rfl
    · rw [hpc]
      cases ok <;> cases kind <;> first | exact hk | cases hk
  | @spawn k hpc =>
    rw [threads_control_of_live (s := { s.setReader k .read with wg := s.wg + 1 })
      (hlive hpc rfl) rfl]
    change s.threads.Move brings
      { (s.setReader k .read).threads with wg := s.wg + 1, opens := none }
    rw [setReader, threads_setUDP]
    exact .spawn (hlive hpc rfl) (by change s.control.opens = some k; rw [hpc]; rfl)
  | @closeFlow pc r hpc hr =>
    refine setControl_move (closeFlowStep_shuts hr).threads (hlive hpc rfl) ?_ ?_
    · cases r.2 <;> rfl
    · cases r.2 <;> simp [ControlPc.opens]
  | closing hpc hr =>
    have ht := (closeStep_shuts hr).threads
    split_ifs
    · exact setControl_move ht (hlive hpc rfl) rfl (by simp [ControlPc.opens])
    · rw [ht]
      exact .same
  | exiting hpc =>
    rw [threads_control { s with wg := s.wg - 1 } _]
    exact .own (hlive hpc rfl) rfl (by rintro k ⟨⟩) fun _ _ => rfl

theorem setRun_move {t : QUICSession} {pc : SessionRunPc} (ht : t.threads = s.threads)
    (hearly : s.run.early) : s.threads.Move brings { t with run := pc }.threads := by
  change s.threads.Move brings { t.threads with run := pc }
  rw [ht]
  refine .run (fun _ => hearly) (fun _ => .inl hearly) fun hpast => ?_
  change s.run = .deferredClose ∨ s.run = .returned at hpast
  rcases hpast with hpc | hpc <;> rw [hpc] at hearly <;> cases hearly

theorem runStep_move (h : s.runStep frame ok = some s') : s.threads.Move brings s'.threads := by
  cases hpc : s.run <;> simp only [runStep, hpc, map_eq_some_iff, reduceCtorEq] at h
  case acceptControl =>
    cases h
    exact setRun_move rfl (by rw [hpc]; rfl)
  case readFirst =>
    obtain ⟨pc, -, rfl⟩ := h
    exact setRun_move rfl (by rw [hpc]; rfl)
  case authFail reason | writeAuthOK =>
    obtain ⟨t, hwrite, rfl⟩ := h
    obtain rfl := writeFrame_eq hwrite
    exact setRun_move rfl (by rw [hpc]; rfl)
  case register =>
    cases h
    have ht : { s with registered := true }.threads = s.threads := rfl
    exact setRun_move ht (by rw [hpc]; rfl)
  case start =>
    cases h
    have hlive : s.start.live = s.threads.started s.workerCount := by
      funext g
      cases g with
      | worker i =>
        by_cases hi : i < s.workerCount <;> simp [live, start, Threads.started, WorkerPc.live, hi]
      | _ => rfl
    change s.threads.Move brings { s.threads with
      run := .waitDone, live := s.start.live, opens := none, wg := s.wg + s.workerCount + 4 }
    rw [hlive]
    exact .start (by change s.run.early; rw [hpc]; rfl)
  case waitDone =>
    obtain ⟨-, rfl⟩ := of_guard h
    refine .run (by rintro ⟨⟩) (by rintro ⟨⟩) fun hpast => ?_
    change s.run = .deferredClose ∨ s.run = .returned at hpast
    simp [hpc] at hpast
  case waitGroup =>
    obtain ⟨hwg, rfl⟩ := of_guard h
    refine .run (by rintro ⟨⟩) (fun _ => .inr (.inr hwg)) fun hpast => ?_
    change s.run = .deferredClose ∨ s.run = .returned at hpast
    simp [hpc] at hpast
  case unregister =>
    cases h
    exact .unregister hpc
  case deferredClose =>
    obtain ⟨r, hr, rfl⟩ := h
    have ht := (closeStep_shuts hr).threads
    split_ifs
    · change s.threads.Move brings { r.1.threads with run := .returned }
      rw [ht]
      exact .run (by rintro ⟨⟩) (fun _ => .inr (.inl (by change s.run.ended; rw [hpc]; rfl)))
        fun _ => .inr rfl
    · rw [ht]
      exact .same

theorem closerStep_move (h : s.closerStep i = some s') : s.threads.Move brings s'.threads := by
  unfold closerStep at h
  split at h
  · obtain ⟨r, hr, rfl⟩ := map_eq_some_iff.mp h
    have ht := (closeStep_shuts hr).threads
    split_ifs <;>
    · change s.threads.Move brings r.1.threads
      rw [ht]
      exact .same
  · cases h

/-- What a copying goroutine reads. -/
def brought : QUICSessionStep → Bytes
  | .copy _ _ data _ _ _ _ => data
  | _ => []

theorem step_move (h : s.step label = some s') :
    s.threads.Move (brought label ≠ []) s'.threads := by
  cases label with
  | run frame ok => exact runStep_move h
  | control frame ok => exact controlStep_move h
  | acceptor ok => exact acceptorStep_move h
  | pinger ok => exact pingerStep_move h
  | stream i flowID ok => exact streamStep_move h
  | copy i dir data readEnd ok n now => exact copyStep_move h
  | udpReader k data failed ok now => exact udpReadStep_move h
  | datagramReader raw now => exact datagramReadStep_move h
  | worker i ok now => exact workerStep_move h
  | callClose i =>
    obtain ⟨-, rfl⟩ := of_guard h
    exact .same
  | closer i => exact closerStep_move h

theorem new_dead (cfg : SessionConfig) (id : UInt64) (limits : Limits.Manager) :
    (new cfg id limits).threads.Dead := by
  rintro (_ | _ | _ | _ | _ | _ | _) <;> rfl

theorem new_grouped (cfg : SessionConfig) (id : UInt64) (limits : Limits.Manager) :
    (new cfg id limits).threads.Grouped where
  wg := ⟨∅, fun g => by simp [new_dead cfg id limits g], rfl⟩
  unaccepted _ _ := ⟨rfl, fun dir => by cases dir <;> rfl⟩
  opens _ h := by cases h
  unread _ _ := rfl
  idle _ := new_dead cfg id limits

/-- The wait group counts the goroutines that are left. -/
def Grouped (s : QUICSession) : Prop := s.threads.Grouped

theorem step_grouped (s : QUICSession) (label : QUICSessionStep) (s' : QUICSession)
    (hs : s.Grouped) (_ : anyLabel s label) (h : s.step label = some s') : s'.Grouped :=
  (step_move h).grouped hs

end QUICSession
end VlfProto.Session
