import VlfProto.Session.TCP.Moves

/-! # Teardown of a TCP session -/

namespace VlfProto.Session
open Platform Transition Option

/-- The loop has read bytes of its target that it has not forwarded yet. -/
def TCPLoopPc.holds : TCPLoopPc → Bool
  | .limit _ _ => true
  | .write _ _ => true
  | _ => false

def TCPSessionStep.actor : TCPSessionStep → Option TCPGoroutine
  | .run _ _ _ => some .run
  | .loop k _ _ _ => some (.loop k)
  | .callClose _ => none
  | .closer i => some (.closer i)

namespace TCPSession

variable {s s' : TCPSession} {g : TCPGoroutine} {r : TCPSession × Bool} {k n : ℕ}
  {ok failed : Bool} {data : Bytes} {frame : Option Frame} {label : TCPSessionStep}

/-- Some goroutine that the body of `Close` is waiting for runs the body or waits
for it. -/
def WaitsForItself (s : TCPSession) : Prop := ∃ g, s.Counted g ∧ s.InClose g

/-- Some continuation by admitted steps completes the body and lets `Run` return. -/
def Completable (ok : TCPSession → TCPSessionStep → Prop) (s : TCPSession) : Prop :=
  ∃ labels s', Path step ok s labels s' ∧ s'.once = .done ∧ s'.run = .returned

/-- The step relies neither on a frame of the client nor on a target: reads, and
writes to a target, return because what they use has been closed. -/
def Unaided (s : TCPSession) : TCPSessionStep → Prop
  | .run _ _ _ =>
    match s.run with
    | .readFirst => s.connClosed
    | .readFrame => s.connClosed
    | .dataWrite _ k _ => (s.flows k).targetClosed
    | _ => True
  | .loop k _ _ _ => (s.flows k).loop = .read → (s.flows k).targetClosed
  | _ => True

/-- Once the body of `Close` has started, nobody it waits for waits for it, it can be
completed and `Run` can return. -/
def TearsDown (s : TCPSession) : Prop :=
  s.once ≠ .idle → ¬s.WaitsForItself ∧ Completable Unaided s

/-- No loop step leads to `Close`: the byte limit and the frame write succeed, and no
bytes are read for a closed connection. -/
def LoopForwards (s : TCPSession) : TCPSessionStep → Prop
  | .loop k data _ ok =>
    match (s.flows k).loop with
    | .read => data ≠ [] → s.connClosed = false
    | .limit _ _ => ok
    | .write _ _ => ok
    | _ => True
  | _ => True

/-- The body of `Close` closes the connection only while no loop holds bytes of its
target. -/
def ClosesIdleConn (s : TCPSession) (label : TCPSessionStep) : Prop :=
  match s.once with
  | .running g .closeConn =>
    label.actor = some g → ∀ k < s.created, (s.flows k).loop.holds = false
  | _ => True

def ForwardsAll (s : TCPSession) (label : TCPSessionStep) : Prop :=
  s.LoopForwards label ∧ s.ClosesIdleConn label

instance (s : TCPSession) (label : TCPSessionStep) : Decidable (s.ForwardsAll label) := by
  have hloop : Decidable (s.LoopForwards label) := by
    unfold LoopForwards
    split
    · split <;> infer_instance
    · infer_instance
  have hconn : Decidable (s.ClosesIdleConn label) := by
    unfold ClosesIdleConn
    split <;> infer_instance
  exact inferInstanceAs (Decidable (_ ∧ _))

theorem waitsForItself_iff : s.WaitsForItself ↔ ∃ k, (s.flows k).loop = .closing := by
  constructor
  · rintro ⟨g, hcounted, hclose⟩
    cases g with
    | run | closer i => exact hcounted.elim
    | loop k => exact ⟨k, hclose⟩
  · rintro ⟨k, hk⟩
    refine ⟨.loop k, ?_, hk⟩
    simp [Counted, hk, TCPLoopPc.live]

/-- Only the loops in `moved` have gone on; the cell, the connection and `Run` are
as before. -/
structure Calm (moved : Set ℕ) (s s' : TCPSession) : Prop where
  once : s'.once = s.once
  connClosed : s'.connClosed = s.connClosed
  created : s'.created = s.created
  run : s'.run = s.run
  loop : ∀ k, k ∉ moved → (s'.flows k).loop = (s.flows k).loop

theorem closeFlowStep_calm {pc : CloseFlowPc} {r : TCPSession × Option CloseFlowPc}
    (h : s.closeFlowStep ok pc = some r) : Calm ∅ s r.1 := by
  cases closeFlowStep_cases h with
  | closeTarget => exact ⟨rfl, rfl, rfl, rfl, fun j _ => closeTarget_loop s _ j⟩
  | _ => exact ⟨rfl, rfl, rfl, rfl, fun _ _ => rfl⟩

/-- `Run` outside `Close` leaves every loop as it is, apart from starting one. -/
theorem runStep_calm (hs : s.Consistent) (hclosing : s.run ≠ .closing)
    (hdeferred : s.run ≠ .deferredClose) (h : s.runStep frame ok n = some s') :
    s'.once = s.once ∧ s'.connClosed = s.connClosed ∧
      ∀ k, (s'.flows k).loop = (s.flows k).loop ∨
        ((s.flows k).loop = .notStarted ∧ (s'.flows k).loop = .read) := by
  cases runStep_cases h with
  | closing hpc => exact absurd hpc hclosing
  | deferredClose hpc => exact absurd hpc hdeferred
  | dial => exact ⟨rfl, rfl, fun k => .inl (createFlow_loop hs k)⟩
  | closeDuplicate => exact ⟨rfl, rfl, fun j => .inl (closeTarget_loop s _ j)⟩
  | @spawn k hpc =>
    refine ⟨rfl, rfl, fun j => ?_⟩
    by_cases hj : j = k
    · subst hj
      exact .inr ⟨(hs.fresh j (by rw [hpc]; rfl)).2, setLoop_loop_self s j .read⟩
    · exact .inl (setLoop_loop_of_ne s .read hj)
  | closeFlow hpc hr =>
    have hcalm := closeFlowStep_calm hr
    exact ⟨hcalm.once, hcalm.connClosed, fun k => .inl (hcalm.loop k (by simp))⟩
  | @dataWrite flowID k data hpc =>
    refine ⟨rfl, rfl, fun j => .inl ?_⟩
    by_cases hj : j = k <;> simp [setFlow, hj]
  | _ => exact ⟨rfl, rfl, fun _ => .inl rfl⟩

theorem setLoop_calm {pc : TCPLoopPc} {wg : ℕ} {frames : List (ServerFrame × Bool)}
    {limiterEntry : Bool} :
    Calm {k} s ({ s with wg := wg, frames := frames, limiterEntry := limiterEntry }.setLoop k pc) :=
  ⟨rfl, rfl, rfl, rfl, fun _ hj => setLoop_loop_of_ne s pc (by simpa using hj)⟩

theorem loopStep_calm (hpc : (s.flows k).loop ≠ .closing)
    (h : s.loopStep k data failed ok = some s') : Calm {k} s s' := by
  cases hloop : (s.flows k).loop <;> simp only [loopStep, hloop, some.injEq,
    map_eq_some_iff, reduceCtorEq] at h
  case closing => exact absurd hloop hpc
  case read =>
    obtain ⟨-, rfl⟩ := of_guard h
    exact setLoop_calm
  case limit | exiting =>
    subst h
    exact setLoop_calm
  case write data failed =>
    obtain ⟨s₁, hwrite, rfl⟩ := h
    obtain ⟨rfl, -⟩ := writeFrame_cases hwrite
    exact setLoop_calm
  case closeFlow pc =>
    obtain ⟨r, hr, rfl⟩ := h
    have hcalm := closeFlowStep_calm hr
    have hmove : Calm {k} r.1 (r.1.setLoop k (r.2.elim .exiting .closeFlow)) := setLoop_calm
    exact ⟨hmove.once.trans hcalm.once, hmove.connClosed.trans hcalm.connClosed,
      hmove.created.trans hcalm.created, hmove.run.trans hcalm.run,
      fun j hj => (hmove.loop j hj).trans (hcalm.loop j (by simp))⟩

theorem closeStep_connClosed (h : s.closeStep g = some r) :
    r.1.connClosed = s.connClosed ∨ s.once = .running g .closeConn := by
  rcases closeStep_cases h with ⟨-, rfl⟩ | ⟨stage, s', next, hrun, hbody, rfl⟩ | ⟨-, rfl⟩
  · exact .inl rfl
  · cases bodyStep_cases hbody with
    | closeConn => exact .inr hrun
    | _ => exact .inl rfl
  · exact .inl rfl

/-- No loop is inside `Close`, and none holds bytes for a closed connection. -/
structure Clear (s : TCPSession) : Prop where
  closing : ∀ k, (s.flows k).loop ≠ .closing
  holding : s.connClosed → ∀ k, (s.flows k).loop.holds = false

theorem new_clear (maxFlows : ℤ) : (new maxFlows).Clear where
  closing k h := by cases h
  holding _ _ := rfl

theorem Clear.of_loops (hclear : s.Clear) (hconn : s'.connClosed = s.connClosed)
    (hloop : ∀ k, (s'.flows k).loop = (s.flows k).loop ∨
      (s'.flows k).loop ≠ .closing ∧ (s'.connClosed → (s'.flows k).loop.holds = false)) :
    s'.Clear where
  closing k := by
    rcases hloop k with h | ⟨h, -⟩
    · rw [h]
      exact hclear.closing k
    · exact h
  holding hclosed k := by
    rcases hloop k with h | ⟨-, h⟩
    · rw [h]
      exact hclear.holding (hconn ▸ hclosed) k
    · exact h hclosed

theorem closeStep_clear (hclear : s.Clear) (hidle : s.once = .running g .closeConn →
    ∀ k, (s.flows k).loop.holds = false) (h : s.closeStep g = some r) : r.1.Clear := by
  have hm := closeStep_moves h
  constructor
  · intro k
    rw [hm.loop]
    exact hclear.closing k
  · intro hclosed k
    rw [hm.loop]
    rcases closeStep_connClosed h with hconn | hconn
    · exact hclear.holding (hconn ▸ hclosed) k
    · exact hidle hconn k

theorem runStep_close (hg : s.InClose .run) (h : s.runStep frame ok n = some s') :
    ∃ r, s.closeStep .run = some r ∧ s'.flows = r.1.flows ∧ s'.connClosed = r.1.connClosed ∧
      s'.once = r.1.once := by
  rcases hg with hg | hg <;> simp only [runStep, hg, map_eq_some_iff] at h <;>
    obtain ⟨r, hclose, rfl⟩ := h <;> refine ⟨r, hclose, ?_, ?_, ?_⟩ <;> split_ifs <;> rfl

theorem ClosesIdleConn.holds (hs : s.Consistent) (hconn : s.ClosesIdleConn label)
    (hactor : label.actor = some g) (hrun : s.once = .running g .closeConn) (k : ℕ) :
    (s.flows k).loop.holds = false := by
  simp only [ClosesIdleConn, hrun] at hconn
  by_cases hk : k < s.created
  · exact hconn hactor k hk
  · rw [hs.uncreated k (by omega)]
    rfl

theorem afterRead_clear (flowID : ℕ) (failed : Bool) :
    afterRead flowID failed ≠ .closing ∧ (afterRead flowID failed).holds = false := by
  cases failed <;> simp [afterRead, TCPLoopPc.holds]

theorem loopStep_pc (hclear : s.Clear) (hok : s.LoopForwards (.loop k data failed ok))
    (h : s.loopStep k data failed ok = some s') :
    (s'.flows k).loop ≠ .closing ∧ (s.connClosed → (s'.flows k).loop.holds = false) := by
  cases hpc : (s.flows k).loop <;> simp only [LoopForwards, hpc] at hok <;>
    simp only [loopStep, hpc, some.injEq, map_eq_some_iff, reduceCtorEq] at h
  case closing => exact absurd hpc (hclear.closing k)
  case read =>
    obtain ⟨-, rfl⟩ := of_guard h
    rw [setLoop_loop_self]
    split_ifs with hdata
    · exact ⟨(afterRead_clear _ _).1, fun _ => (afterRead_clear _ _).2⟩
    · exact ⟨by simp, fun hclosed => by simp [hok hdata] at hclosed⟩
  case limit data failed =>
    subst h
    have hheld : s.connClosed → False := fun hclosed => by
      simpa [hpc, TCPLoopPc.holds] using hclear.holding hclosed k
    rw [setLoop_loop_self, if_pos hok]
    exact ⟨by simp, fun hclosed => (hheld hclosed).elim⟩
  case write data failed =>
    obtain ⟨s₁, -, rfl⟩ := h
    rw [setLoop_loop_self, if_pos hok]
    exact ⟨(afterRead_clear _ _).1, fun _ => (afterRead_clear _ _).2⟩
  case closeFlow pc =>
    obtain ⟨r, -, rfl⟩ := h
    rw [setLoop_loop_self]
    cases r.2 <;> simp [TCPLoopPc.holds]
  case exiting =>
    subst h
    rw [setLoop_loop_self]
    simp [TCPLoopPc.holds]

theorem loopStep_clear (hclear : s.Clear) (hok : s.LoopForwards (.loop k data failed ok))
    (h : s.loopStep k data failed ok = some s') : s'.Clear := by
  have hcalm := loopStep_calm (hclear.closing k) h
  apply hclear.of_loops hcalm.connClosed
  intro j
  by_cases hj : j = k
  · subst hj
    obtain ⟨hclosing, hholds⟩ := loopStep_pc hclear hok h
    exact .inr ⟨hclosing, fun hclosed => hholds (hcalm.connClosed ▸ hclosed)⟩
  · exact .inl (hcalm.loop j (by simpa using hj))

theorem runStep_clear (hs : s.Consistent) (hclear : s.Clear) (hg : ¬s.InClose .run)
    (h : s.runStep frame ok n = some s') : s'.Clear := by
  obtain ⟨hne, hne'⟩ := not_or.mp hg
  obtain ⟨-, hconn, hloops⟩ := runStep_calm hs hne hne' h
  apply hclear.of_loops hconn
  intro k
  rcases hloops k with hk | ⟨-, hk⟩
  · exact .inl hk
  · exact .inr (by simp [hk, TCPLoopPc.holds])

theorem step_clear (hs : s.Consistent) (hclear : s.Clear) (hok : s.ForwardsAll label)
    (h : s.step label = some s') : s'.Clear := by
  obtain ⟨hloop, hconn⟩ := hok
  cases label with
  | run frame ok n =>
    by_cases hclosing : s.InClose .run
    · obtain ⟨r, hclose, hflows, hclosed, -⟩ := runStep_close hclosing h
      have hr := closeStep_clear hclear (hconn.holds hs rfl) hclose
      exact ⟨hflows ▸ hr.closing, hflows ▸ hclosed ▸ hr.holding⟩
    · exact runStep_clear hs hclear hclosing h
  | loop k data failed ok => exact loopStep_clear hclear hloop h
  | callClose i =>
    obtain ⟨-, rfl⟩ := of_guard h
    exact ⟨hclear.closing, hclear.holding⟩
  | closer i =>
    simp only [step, closerStep] at h
    split at h
    · obtain ⟨r, hclose, rfl⟩ := map_eq_some_iff.mp h
      have hr := closeStep_clear hclear (hconn.holds hs rfl) hclose
      split_ifs
      · exact ⟨hr.closing, hr.holding⟩
      · exact hr
    · cases h

end TCPSession
end VlfProto.Session
