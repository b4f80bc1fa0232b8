import VlfProto.Transit.TCPWhole

/-! # What gets through a transit TCP lane -/

namespace VlfProto.Transit
open Platform Transition Option

namespace TCPConn

variable {s s' : TCPConn} {x : Side} {f : Flow} {label : TCPConnStep} {n : ℕ}

def handlerRank : TCPHandlerPc → ℕ
  | .dial => 7
  | .first => 6
  | .closeClient => 5
  | .closeBackend => 4
  | .second => 3
  | .deferBackend => 2
  | .deferClient => 1
  | .returned => 0

def rank (s : TCPConn) : ℕ :=
  (s.flows .client).rank + (s.flows .backend).rank + handlerRank s.handler

theorem rank_setFlow_lt (h : f.rank < (s.flows x).rank) : (s.setFlow x f).rank < s.rank := by
  cases x <;> simpa [rank, setFlow] using h

theorem startCopiers_rank (hs : s.Whole) (hpc : s.handler = .dial) :
    s.startCopiers.rank < s.rank := by
  simp [rank, startCopiers, Flow.rank, hs.undialed hpc, hpc, CopierPc.rank, handlerRank]

theorem handlerStep_rank (hs : s.Whole) (h : s.handlerStep true = some s') : s'.rank < s.rank := by
  cases hpc : s.handler <;> simp only [handlerStep, hpc, if_true, reduceCtorEq] at h
  case dial =>
    cases h
    exact startCopiers_rank hs hpc
  case first | second =>
    split_ifs at h
    cases h
    simp [rank, hpc, handlerRank]
  case closeClient | closeBackend | deferBackend | deferClient =>
    cases h
    simp [rank, close, hpc, handlerRank]

theorem copierStep_rank (h : s.copierStep x n = some s') : s'.rank < s.rank := by
  unfold copierStep at h
  split_ifs at h with hsend
  · cases h
    have hless : (s.setCopier x .stopped).rank < s.rank :=
      rank_setFlow_lt (by simp [Flow.rank, hsend, CopierPc.rank])
    exact hless
  · obtain ⟨f, hf, rfl⟩ := map_eq_some_iff.mp h
    exact rank_setFlow_lt (Flow.copyStep_cases hf).rank_lt

theorem receive_rank (hs : s.Whole) (h : s.step (.receive x n) = some s') :
    s'.rank < s.rank := by
  simp only [step, ite_none_left_eq_some, some.injEq, not_or] at h
  obtain ⟨⟨-, hn, hne⟩, rfl⟩ := h
  have hle := (hs.flows x).received_le
  refine rank_setFlow_lt ?_
  simp only [Flow.rank]
  omega

theorem courteous_of_internal (h : s.Internal label) : s.Courteous label := by
  obtain ⟨hinternal, hok⟩ := h
  cases label with
  | send | fin => cases hinternal
  | _ => exact hok

theorem step_rank (s : TCPConn) (label : TCPConnStep) (s' : TCPConn) (hs : s.Whole)
    (hok : s.Internal label) (h : s.step label = some s') : s'.Whole ∧ s'.rank < s.rank := by
  refine ⟨step_whole s label s' hs (courteous_of_internal hok) h, ?_⟩
  cases label with
  | handler ok =>
    obtain rfl : ok = true := hok.2
    exact handlerStep_rank hs h
  | copier x n => exact copierStep_rank h
  | send | fin | reset => cases hok.1
  | receive x n => exact receive_rank hs h
  | lose x => simp [step, hs.not_aborted] at h

theorem Quiescent.through (hq : s.Quiescent) (hs : s.Whole) (x : Side) :
    (s.flows x).Through := by
  have hdialed : s.handler ≠ .dial := by
    intro hpc
    have h := hq (.handler true) ⟨rfl, rfl⟩
    simp [step, handlerStep, hpc] at h
  have hstep : s.copierStep x 1 = none := hq (.copier x 1) ⟨rfl, trivial⟩
  cases hpc : (s.flows x).copier with
  | notStarted => exact absurd hpc (hs.dialed hdialed x)
  | read =>
    simp only [copierStep, hpc, reduceCtorEq, if_false, map_eq_none_iff, Flow.copyStep]
      at hstep
    split_ifs at hstep with hclosed hunread
    refine (hs.flows x).through_of_unread (by simpa using hunread) (by rw [hpc]; rfl)
  | write data =>
    simp only [copierStep, hpc, reduceCtorEq, if_false, map_eq_none_iff, Flow.copyStep]
      at hstep
    split_ifs at hstep
  | closeWrite | send | stopped =>
    exact (hs.complete (.copier x (by rw [hpc]; rfl))).through x

theorem Quiescent.received (hq : s.Quiescent) (hs : s.Whole) (x : Side) :
    (s.flows x).received = (s.flows x).written.length := by
  have hstep := hq (.receive x 1) ⟨rfl, trivial⟩
  simpa [step, (hs.flows x).kept] using hstep

/-- Between courteous sides whatever one has sent arrives at the other: the proxy and the
network come to rest in any case, and when they do, all of it is there. -/
theorem courteous_transparent (labels : List TCPConnStep) (s : TCPConn)
    (hpath : Path step Courteous new labels s) :
    (s.Quiescent → ∀ x, (s.flows x).delivered = (s.flows x).sent) ∧
    ∃ bound, ∀ labels' t, Path step Internal s labels' t → labels'.length ≤ bound := by
  have hs := hpath.invariant step_whole new_whole
  refine ⟨fun hq x => ?_, s.rank, fun labels' t h => h.length_le rank step_rank hs⟩
  rw [Flow.delivered, hq.received hs x, List.take_length]
  exact (hs.flows x).written_eq (hq.through hs x)

/-- The handler has returned, both goroutines have stopped, and what they have written has
arrived or never will. -/
def Over (s : TCPConn) : Prop :=
  s.handler = .returned ∧ ∀ x ∈ [Side.client, .backend], (s.flows x).copier = .stopped ∧
    (s.flows x).received = (s.flows x).written.length ∧
    ((s.flows x).lost ∨ s.aborted x.other = false)

instance (s : TCPConn) : Decidable s.Over := inferInstanceAs (Decidable (_ ∧ _))

theorem Over.quiescent (h : s.Over) : s.Quiescent := by
  obtain ⟨hreturned, hflows⟩ := h
  replace hflows : ∀ x, _ := fun x => hflows x (by cases x <;> simp)
  rintro label ⟨hinternal, -⟩
  cases label with
  | handler ok => simp [step, handlerStep, hreturned]
  | copier x n => simp [step, copierStep, Flow.copyStep, (hflows x).1]
  | receive x n => simp [step, (hflows x).2.1]
  | lose x => rcases (hflows x).2.2 with h | h <;> simp [step, h]
  | send | fin | reset => cases hinternal

/-- The goroutine of side `x` passes one byte on. -/
def copyRun (x : Side) : List TCPConnStep := [.copier x 1, .copier x 1, .receive x 1]

/-- The client asks, the backend answers, and the client ends its stream. -/
def answeredRun : List TCPConnStep :=
  [.handler true, .send .client [7]] ++ copyRun .client ++ [.send .backend [8]] ++
    copyRun .backend ++ [.fin .client] ++ List.replicate 3 (.copier .client 1) ++
    List.replicate 3 (.handler true) ++ List.replicate 3 (.copier .backend 1) ++
    List.replicate 3 (.handler true)

/-- The client asks and ends its stream, and then the backend answers. -/
def halfClosedRun : List TCPConnStep :=
  [.handler true, .send .client [7], .fin .client] ++ copyRun .client ++
    List.replicate 3 (.copier .client 1) ++ List.replicate 3 (.handler true) ++
    [.send .backend [8]] ++ List.replicate 3 (.copier .backend 1) ++
    List.replicate 3 (.handler true) ++ [.lose .client]

theorem answeredRun_transparent : ∃ s, Path step Courteous new answeredRun s ∧ s.Quiescent ∧
    (s.flows .client).sent = [7] ∧ (s.flows .backend).sent = [8] ∧
    ∀ x, (s.flows x).delivered = (s.flows x).sent := by
  refine Path.exists_of_run_imp (P := fun s => s.Over ∧ (s.flows .client).sent = [7] ∧
      (s.flows .backend).sent = [8])
    (by decide +kernel) fun s hpath ⟨hover, hclient, hbackend⟩ => ?_
  exact ⟨hover.quiescent, hclient, hbackend,
    (courteous_transparent answeredRun s hpath).1 hover.quiescent⟩

theorem halfClosedRun_loses_answer : ∃ s, Path step Unbroken new halfClosedRun s ∧
    s.Quiescent ∧ (s.flows .client).delivered = [7] ∧ (s.flows .backend).sent = [8] ∧
    (s.flows .backend).delivered = [] := by
  refine Path.exists_of_run_imp (P := fun s => s.Over ∧ (s.flows .client).delivered = [7] ∧
      (s.flows .backend).sent = [8] ∧ (s.flows .backend).delivered = [])
    (by decide +kernel) fun s hpath ⟨hover, hrest⟩ => ?_
  exact ⟨hover.quiescent, hrest⟩

end TCPConn
end VlfProto.Transit
