import VlfProto.Relay.ConnInvariant

/-! # Closing the upstream queue -/

namespace VlfProto.Relay
open Platform Transition Option

def ConnStep.goroutine : ConnStep → Option Goroutine
  | .reader _ _ => some .reader
  | .writer _ _ => some .writer
  | .caller i _ => some (.caller i)
  | _ => none

/-- The call has passed the flags and not yet sent the chunk. -/
def CallPc.committed : CallPc → Bool
  | .loopWindow _ _ => true
  | .loopSend _ _ => true
  | _ => false

namespace Conn

variable {c c' : Conn} {g : Goroutine} {r : Conn × Bool} {i : ℕ} {ok : Bool} {label : ConnStep}

/-- No call is about to send on the closed queue. A call at the send can always
take that step, so this excludes the panic. -/
def SendsOpen (c : Conn) : Prop :=
  ∀ i data offset, c.callers i = .loopSend data offset → c.queueClosed = false

/-- The queue is closed while no call stands between the flags and its send. -/
def ClosesUnsent (c : Conn) (label : ConnStep) : Prop :=
  ∀ g, label.goroutine = some g → c.once = .running g .closeQueue →
    ∀ i, (c.callers i).committed = false

/-- The body of `Close` raises `eos` before it closes the queue, and nobody who has
passed the flags is left when it does. -/
structure QueueSafe (c : Conn) : Prop where
  raised : 3 ≤ bodyProgress c.once → c.eos
  eos : c.queueClosed → c.eos
  unsent : c.queueClosed → ∀ i, (c.callers i).committed = false

theorem new_queueSafe (recvWindow sendWindow : ℤ) : (new recvWindow sendWindow).QueueSafe where
  raised := by simp [new, bodyProgress]
  eos := by simp [new]
  unsent := by simp [new]

theorem Keeps.queueSafe (hk : c.Keeps c') (hc : c.QueueSafe)
    (hpc : c.eos → ∀ i, (c'.callers i).committed → (c.callers i).committed) : c'.QueueSafe where
  raised h := hk.eos (hc.raised (hk.once ▸ h))
  eos h := hk.eos (hc.eos (hk.queueClosed ▸ h))
  unsent h i := by
    have hclosed : c.queueClosed := hk.queueClosed ▸ h
    by_contra hcommitted
    have hbefore := hpc (hc.eos hclosed) i (by simpa using hcommitted)
    simp [hc.unsent hclosed i] at hbefore

theorem callerStep_committed (hpc : ∀ found, c.callers i ≠ .closing found)
    (h : c.callerStep i ok = some c') (heos : c.eos) (j : ℕ)
    (hj : (c'.callers j).committed) : (c.callers j).committed := by
  by_cases hji : j = i
  · subst hji
    cases hcall : c.callers j <;>
      simp only [callerStep, hcall, some.injEq, reduceCtorEq] at h
    case loopWindow | loopSend => rfl
    case closing found => exact absurd hcall (hpc found)
    case enqueueQueued =>
      subst h
      simp [setCaller, CallPc.committed] at hj
    all_goals
      subst h
      simp only [setCaller, Function.update_self, loopHead] at hj
      split_ifs at hj
      all_goals cases hj
  · rwa [(callerStep_moves hpc h).callers j hji] at hj

theorem closeStep_queueSafe (hc : c.QueueSafe)
    (hquiet : c.once = .running g .closeQueue → ∀ i, (c.callers i).committed = false)
    (h : c.closeStep g = some r) : r.1.QueueSafe := by
  have hcallers := (closeStep_frame h).callers
  rcases closeStep_cases h with ⟨-, rfl⟩ | ⟨stage, c', next, hrun, hbody, rfl⟩ | ⟨-, rfl⟩
  · exact ⟨by simp [bodyProgress, CloseStage.rank], hc.eos, hc.unsent⟩
  · have hm := bodyStep_moves hbody
    have hraised : 3 ≤ stage.rank → c.eos := fun hrank => hc.raised (by rw [hrun]; exact hrank)
    constructor
    · intro hlate
      rw [hm.progress] at hlate
      exact hm.raised hraised hlate
    · intro hclosed
      rcases hm.queueClosed hclosed with hbefore | rfl
      · exact hm.eos (hc.eos hbefore)
      · exact hm.eos (hraised (by decide))
    · intro hclosed i
      rw [hcallers]
      rcases hm.queueClosed hclosed with hbefore | rfl
      · exact hc.unsent hbefore i
      · exact hquiet hrun i
  · exact hc

theorem QueueSafe.setCaller {pc : CallPc} (hc : c.QueueSafe) (hpc : pc.committed = false) :
    (c.setCaller i pc).QueueSafe where
  raised := hc.raised
  eos := hc.eos
  unsent hclosed j := by
    by_cases hji : j = i
    · simp [Conn.setCaller, hji, hpc]
    · simpa [Conn.setCaller, hji] using hc.unsent hclosed j

theorem step_queueSafe (hquiet : c.ClosesUnsent label) (hc : c.QueueSafe)
    (h : c.step label = some c') : c'.QueueSafe := by
  cases label with
  | start =>
    obtain ⟨-, rfl⟩ := of_guard h
    exact ⟨hc.raised, hc.eos, hc.unsent⟩
  | reader data err =>
    rcases readerStep_cases h with ⟨-, hm⟩ | ⟨r, -, hclose, rfl⟩
    · apply hm.toKeeps.queueSafe hc
      rw [hm.callers]
      exact fun _ _ => id
    · have hr := closeStep_queueSafe hc (hquiet .reader rfl) hclose
      split_ifs
      · exact ⟨hr.raised, hr.eos, hr.unsent⟩
      · exact hr
  | writer ok n =>
    have hm := writerStep_moves h
    apply hm.toKeeps.queueSafe hc
    rw [hm.callers]
    exact fun _ _ => id
  | call i request =>
    obtain ⟨-, rfl⟩ := of_guard h
    exact hc.setCaller (by cases request <;> rfl)
  | caller i ok =>
    rcases callerStep_cases h with ⟨hpc, hm⟩ | ⟨found, r, -, hclose, rfl⟩
    · exact hm.toKeeps.queueSafe hc (callerStep_committed hpc h)
    · have hr := closeStep_queueSafe hc (hquiet (.caller i) rfl) hclose
      split_ifs
      · exact hr.setCaller rfl
      · exact hr
  | collect i =>
    obtain ⟨-, rfl⟩ := collect_cases h
    exact hc.setCaller rfl

/-- When the queue is only closed while no call stands between the flags and its
send, nobody ever sends on the closed queue. -/
theorem sendsOpen_of_closesUnsent (recvWindow sendWindow : ℤ) (labels : List ConnStep) (c : Conn)
    (hpath : Path step ClosesUnsent (new recvWindow sendWindow) labels c) : c.SendsOpen := by
  have hkeep : ∀ (c : Conn) label c', c.QueueSafe → c.ClosesUnsent label →
      c.step label = some c' → c'.QueueSafe :=
    fun _ _ _ hc hquiet hstep => step_queueSafe hquiet hc hstep
  have hc := hpath.invariant hkeep (new_queueSafe recvWindow sendWindow)
  intro i data offset hcall
  by_contra hclosed
  have hcommitted := hc.unsent (by simpa using hclosed) i
  simp [hcall, CallPc.committed] at hcommitted

/-- One byte is posted and its handler goes `n` steps; then another handler goes
eight steps into `Close`, up to and including the close of the queue. -/
def postThenClose (n : ℕ) : List ConnStep :=
  [.start, .call 0 (.send [1])] ++ List.replicate n (.caller 0 true) ++
    [.call 1 .close] ++ List.replicate 8 (.caller 1 true)

theorem postThenClose_sendsOpen :
    ∃ c, Path step ClosesUnsent (new 1 1) (postThenClose 10) c ∧ c.queueClosed ∧
      c.enqueued = [1] ∧ c.SendsOpen := by
  obtain ⟨c, hbefore, hquiet, c', hlast, hqueue, henqueued⟩ :
      ∃ c, run step (fun c _ => bodyProgress c.once ≠ 6) (new 1 1)
          (postThenClose 10).dropLast = some c ∧ (∀ i, (c.callers i).committed = false) ∧
        ∃ c', c.step (.caller 1 true) = some c' ∧ c'.queueClosed ∧ c'.enqueued = [1] := by
    refine ⟨_, rfl, fun i => ?_, _, rfl, rfl, rfl⟩
    rcases i with _ | _ | i <;> rfl
  have hfirst : Path step ClosesUnsent (new 1 1) (postThenClose 10).dropLast c := by
    apply (Path.of_run hbefore).mono
    intro c label hearly g _ hrun
    exact absurd (by rw [hrun]; rfl) hearly
  have hpath : Path step ClosesUnsent (new 1 1) (postThenClose 10) c' :=
    hfirst.append (.cons (fun _ _ _ => hquiet) hlast (.nil c'))
  exact ⟨c', hpath, hqueue, henqueued, sendsOpen_of_closesUnsent 1 1 _ c' hpath⟩

/-- The queue is closed between the check of the window and the send. -/
theorem postThenClose_crashes :
    ∃ c, Path step anyLabel (new 1 1) (postThenClose 7) c ∧ ¬c.SendsOpen ∧
      ∃ c', c.step (.caller 0 true) = some c' ∧ c'.callers 0 = .finished .crashed := by
  refine Path.exists_of_run_imp (P := fun c => c.queueClosed = true ∧
      c.callers 0 = .loopSend [1] 0 ∧
      (c.step (.caller 0 true)).map (fun c' => c'.callers 0) = some (.finished .crashed))
    (by decide +kernel) fun c hpath ⟨hclosed, hcall, hnext⟩ => ?_
  obtain ⟨c', hstep, hcrashed⟩ := map_eq_some_iff.mp hnext
  refine ⟨fun hopen => ?_, c', hstep, hcrashed⟩
  simp [hopen 0 [1] 0 hcall] at hclosed

end Conn
end VlfProto.Relay
