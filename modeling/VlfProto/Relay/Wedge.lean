import VlfProto.Relay.Frame

/-! # Teardown of a relay connection -/

namespace VlfProto.Relay.Conn
open Platform Transition

variable {c c' : Conn} {g : Goroutine} {i : ℕ}

/-- Some goroutine that the body of `Close` is waiting for runs the body or waits
for it. -/
def WaitsForItself (c : Conn) : Prop := ∃ g, c.Counted g ∧ c.InClose g

/-- Some continuation by admitted steps completes the body, with the connection
out of the table. -/
def Completable (ok : Conn → ConnStep → Prop) (c : Conn) : Prop :=
  ∃ labels c', Path step ok c labels c' ∧ c'.once = .done ∧ c'.registered = false

/-- The step does not rely on the target: its reads and writes return because it
has been closed. -/
def Unaided (c : Conn) : ConnStep → Prop
  | .reader _ _ => c.reader = .read → c.targetClosed
  | .writer _ _ =>
    match c.writer with
    | .deadline _ => c.targetClosed
    | .write _ => c.targetClosed
    | _ => True
  | _ => True

/-- Once the body of `Close` has started, nobody it waits for waits for it, and it
can be completed whatever the target does. -/
def TearsDown (c : Conn) : Prop := c.once ≠ .idle → ¬c.WaitsForItself ∧ Completable Unaided c

/-- The step does not write more into the open downstream buffer than it has
room for. -/
def FitsDownstream (c : Conn) : ConnStep → Prop
  | .reader _ _ =>
    match c.reader with
    | .write data _ => c.downstream.closed ∨ data.length ≤ c.downstream.free
    | _ => True
  | _ => True

instance (c : Conn) (label : ConnStep) : Decidable (c.FitsDownstream label) := by
  unfold FitsDownstream
  split
  · split <;> infer_instance
  · infer_instance

theorem waitsForItself_iff : c.WaitsForItself ↔ c.reader = .closing := by
  constructor
  · rintro ⟨g, hcounted, hclose⟩
    cases g with
    | reader => exact hclose
    | writer => exact hclose.elim
    | caller i => exact hcounted.elim
  · intro hreader
    refine ⟨.reader, ?_, hreader⟩
    simp [Counted, hreader, ReaderPc.live]

def eosRank : EOSStage → ℕ
  | .swap => 5
  | .closeDownstream => 4
  | .closeTarget => 3
  | .cancel => 2

/-- An upper bound of the steps `readLoop` needs to end while the body waits. -/
def readerRank : ReaderPc → ℕ
  | .read => 7
  | .write _ _ => 6
  | .markEOS stage => eosRank stage
  | .check => 2
  | .exiting => 1
  | _ => 0

def writerRank : WriterPc → ℕ
  | .checkEOS _ => 7
  | .deadline _ => 6
  | .write _ => 6
  | .markEOS stage => eosRank stage
  | .subtract _ => 4
  | .checkClosed _ => 3
  | .select => 2
  | .exiting => 1
  | _ => 0

def teardownRank (c : Conn) : ℕ :=
  (9 - bodyProgress c.once) + readerRank c.reader + writerRank c.writer

theorem afterRead_rank (err : Option TargetError) : readerRank (afterRead err) ≤ 5 := by
  rcases err with _ | _ | _ | _ <;> simp [afterRead, readerRank, eosRank]

theorem markEOSStep_rank (c : Conn) (stage : EOSStage) :
    (c.markEOSStep stage).2.elim 1 eosRank < eosRank stage := by
  cases stage with
  | swap => cases h : c.eos <;> simp [markEOSStep, eosRank, h]
  | closeDownstream | closeTarget | cancel => simp [markEOSStep, eosRank]

theorem readerStep_ends (hlive : c.reader.live) (hpc : c.reader ≠ .closing) (hclosed : c.closed)
    (hdownstream : c.downstream.closed) :
    ∃ data err c', c.readerStep data err = some c' ∧
      readerRank c'.reader < readerRank c.reader := by
  cases hr : c.reader with
  | notStarted | stopped => simp [hr, ReaderPc.live] at hlive
  | closing => exact absurd hr hpc
  | check =>
    refine ⟨[], none, _, by simp only [readerStep, hr]; rfl, ?_⟩
    simp [hclosed, readerRank]
  | read =>
    refine ⟨[], some .other, { c with reader := .markEOS .swap }, ?_, ?_⟩
    · simp [readerStep, hr, afterRead]
    · simp [readerRank, eosRank]
  | write data err =>
    have hfits : (c.downstream.write data).2.2 = false := by
      rw [← Bool.not_eq_true, RingBuffer.write_overflow_iff]
      simp [hdownstream]
    have hrank := afterRead_rank err
    refine ⟨[], none, _, by simp only [readerStep, hr]; rfl, ?_⟩
    simp only [hfits, Bool.false_eq_true, if_false]
    exact Nat.lt_succ_of_le hrank
  | markEOS stage =>
    have hrank := c.markEOSStep_rank stage
    refine ⟨[], none, _, by simp only [readerStep, hr]; rfl, ?_⟩
    cases hnext : (c.markEOSStep stage).2 <;> simpa [hnext, readerRank] using hrank
  | exiting =>
    refine ⟨[], none, _, by simp only [readerStep, hr]; rfl, ?_⟩
    simp [readerRank]

theorem writerStep_ends (hlive : c.writer.live) (hclosed : c.closed) (hcancelled : c.cancelled) :
    ∃ ok n c', c.writerStep ok n = some c' ∧ writerRank c'.writer < writerRank c.writer := by
  cases hw : c.writer
  case notStarted | stopped => simp [hw, WriterPc.live] at hlive
  case select =>
    refine ⟨false, 0, _, by simp only [writerStep, hw]; simp only [hcancelled]; rfl, ?_⟩
    simp [writerRank]
  case markEOS stage =>
    have hrank := c.markEOSStep_rank stage
    refine ⟨false, 0, _, by simp only [writerStep, hw]; rfl, ?_⟩
    cases hnext : (c.markEOSStep stage).2 <;> simpa [hnext, writerRank] using hrank
  all_goals refine ⟨false, 0, _, by simp only [writerStep, hw]; rfl, ?_⟩
  case subtract chunk => by_cases hempty : chunk = [] <;> simp [hempty, writerRank]
  case checkClosed chunk => simp [hclosed, writerRank]
  case checkEOS chunk => cases heos : c.eos <;> simp [writerRank]
  case deadline chunk | write chunk => simp [writerRank, eosRank]
  case exiting => simp [writerRank]

theorem bodyStep_enabled (c : Conn) (stage : CloseStage) (hwait : stage = .wait → c.wg = 0) :
    ∃ c' next, c.bodyStep stage = some (c', next) := by
  cases stage with
  | wait => exact ⟨c, some .onClosed, if_pos (hwait rfl)⟩
  | _ => exact ⟨_, _, rfl⟩

theorem callerStep_body {stage : CloseStage} {found : CallResult}
    (hcall : c.callers i = .closing found) (hrun : c.once = .running (.caller i) stage)
    (hwait : stage = .wait → c.wg = 0) :
    ∃ c', c.callerStep i true = some c' ∧ c'.reader = c.reader ∧ c'.writer = c.writer ∧
      bodyProgress c'.once = stage.rank + 1 := by
  obtain ⟨c₁, next, hbody⟩ := c.bodyStep_enabled stage hwait
  have hm := bodyStep_moves hbody
  have hact : c.closeStep (.caller i) =
      some ({ c₁ with once := next.elim .done (.running (.caller i)) }, next.isNone) := by
    simp [closeStep, hrun, Once.act, hbody]
  simp only [callerStep, hcall, hact, Option.map_some, Option.some.injEq, exists_eq_left']
  cases next <;> exact ⟨hm.reader, hm.writer, hm.progress (.caller i)⟩

/-- A state in which the body has started and `readLoop` is not inside `Close`. -/
structure Draining (c : Conn) : Prop where
  consistent : c.Consistent
  begun : c.once ≠ .idle
  reader : c.reader ≠ .closing

/-- The step lowers the rank and keeps the body completable. -/
def Advances (c : Conn) (label : ConnStep) : Prop :=
  c.Unaided label ∧ ∃ c', c.step label = some c' ∧ c'.Draining ∧ c'.teardownRank < c.teardownRank

theorem Draining.body {stage : CloseStage} (hd : c.Draining)
    (hrun : c.once = .running (.caller i) stage) (hwait : stage = .wait → c.wg = 0) :
    c.Advances (.caller i true) := by
  obtain ⟨found, hfound⟩ := hd.consistent.inClose _ _ hrun
  obtain ⟨c', hstep, hreader, hwriter, hprogress⟩ := callerStep_body hfound hrun hwait
  have hrank := CloseStage.rank_bounds stage
  refine ⟨trivial, c', hstep, ⟨callerStep_consistent hd.consistent hstep, ?_, ?_⟩, ?_⟩
  · intro hidle
    simp [hidle, bodyProgress] at hprogress
  · rw [hreader]
    exact hd.reader
  · have hbefore : bodyProgress c.once = stage.rank := by rw [hrun]; rfl
    simp only [teardownRank, hreader, hwriter, hprogress, hbefore]
    omega

theorem Draining.readLoop (hd : c.Draining) (hwait : 6 ≤ bodyProgress c.once)
    (hlive : c.reader.live) : ∃ data err, c.Advances (.reader data err) := by
  have hclosed := hd.consistent.closed (by omega)
  have hdownstream := hd.consistent.downstream hwait
  obtain ⟨data, err, c', hstep, hrank⟩ := readerStep_ends hlive hd.reader hclosed hdownstream
  have hm := readerStep_moves hd.reader hstep
  have htarget := hd.consistent.targetClosed (by omega)
  refine ⟨data, err, fun _ => htarget, c', hstep,
    ⟨readerStep_consistent hd.consistent hstep, ?_, ?_⟩, ?_⟩
  · rw [hm.once]
    exact hd.begun
  · intro hclosing
    obtain ⟨_, _, -, hopen, -⟩ := hm.overflows hclosing
    simp [hdownstream] at hopen
  · simp only [teardownRank, hm.once, hm.writer]
    omega

theorem Draining.writeLoop (hd : c.Draining) (hwait : 6 ≤ bodyProgress c.once)
    (hlive : c.writer.live) : ∃ ok n, c.Advances (.writer ok n) := by
  have hclosed := hd.consistent.closed (by omega)
  have hcancelled := hd.consistent.cancelled (by omega)
  obtain ⟨ok, n, c', hstep, hrank⟩ := writerStep_ends hlive hclosed hcancelled
  have hm := writerStep_moves hstep
  have htarget := hd.consistent.targetClosed (by omega)
  refine ⟨ok, n, ?_, c', hstep, ⟨hm.consistent hd.consistent, ?_, ?_⟩, ?_⟩
  · cases hw : c.writer <;> simp [Unaided, hw, htarget]
  · rw [hm.once]
    exact hd.begun
  · rw [hm.reader]
    exact hd.reader
  · simp only [teardownRank, hm.once, hm.reader]
    omega

theorem Draining.advances (hd : c.Draining) :
    (c.once = .done ∧ c.registered = false) ∨ ∃ label, c.Advances label := by
  cases hcell : c.once with
  | idle => exact absurd hcell hd.begun
  | done => exact .inl ⟨rfl, hd.consistent.unregistered hcell⟩
  | running g stage =>
    right
    have hg := hd.consistent.inClose g stage hcell
    cases g with
    | reader => exact absurd hg hd.reader
    | writer => exact hg.elim
    | caller i =>
      by_cases hwait : stage = .wait → c.wg = 0
      · exact ⟨_, hd.body hcell hwait⟩
      · obtain ⟨rfl, hwg⟩ := Classical.not_imp.mp hwait
        have hprogress : 6 ≤ bodyProgress c.once := by simp [hcell, bodyProgress, CloseStage.rank]
        by_cases hreader : c.reader.live
        · obtain ⟨data, err, h⟩ := hd.readLoop hprogress hreader
          exact ⟨_, h⟩
        · have hwriter : c.writer.live := by
            by_contra hstopped
            simp [hd.consistent.wg_eq, hreader, hstopped] at hwg
          obtain ⟨ok, n, h⟩ := hd.writeLoop hprogress hwriter
          exact ⟨_, h⟩

theorem Draining.completable (hd : c.Draining) : Completable Unaided c := by
  apply Path.exists_finish teardownRank _ hd
  intro c hd
  rcases hd.advances with hdone | ⟨label, hunaided, c', hstep, hd', hrank⟩
  · exact .inl hdone
  · exact .inr ⟨label, c', hunaided, hstep, hd', hrank⟩

/-! ### When teardown of a relay connection wedges -/

variable {labels : List ConnStep}

theorem step_closing {label : ConnStep} (hc : c.Consistent) (hreader : c.reader = .closing)
    (h : c.step label = some c') : c'.reader = .closing := by
  cases label with
  | start =>
    obtain ⟨hidle, -⟩ := Option.ite_none_right_eq_some.mp h
    rw [hreader] at hidle
    cases hidle
  | reader data err =>
    simp only [step, readerStep, hreader, Option.map_eq_some_iff] at h
    obtain ⟨r, hclose, rfl⟩ := h
    obtain ⟨hstays, hpc⟩ := closeStep_reader hc hreader hclose
    simpa [hstays] using hpc
  | writer ok n => exact (writerStep_moves h).reader.trans hreader
  | call i request =>
    obtain ⟨-, rfl⟩ := of_guard h
    exact hreader
  | caller i ok => exact (callerStep_reader h).trans hreader
  | collect i =>
    obtain ⟨-, rfl⟩ := collect_cases h
    exact hreader

theorem not_completable (hc : c.Consistent) (hreader : c.reader = .closing) :
    ¬Completable anyLabel c := by
  rintro ⟨labels, c', hpath, hdone, -⟩
  have hkeep : ∀ (c : Conn) label c', (c.Consistent ∧ c.reader = .closing) → anyLabel c label →
      c.step label = some c' → c'.Consistent ∧ c'.reader = .closing :=
    fun c label c' h _ hstep => ⟨step_consistent h.1 hstep, step_closing h.1 h.2 hstep⟩
  obtain ⟨hc', hreader'⟩ := hpath.invariant hkeep ⟨hc, hreader⟩
  have hawaited := hc'.awaited (by simp [hdone, bodyProgress])
  simp [hreader', ReaderPc.live] at hawaited

theorem path_consistent {ok : Conn → ConnStep → Prop} (h : Path step ok c labels c')
    (hc : c.Consistent) : c'.Consistent :=
  h.invariant (fun _ _ _ hc _ hstep => step_consistent hc hstep) hc

/-- Once the body has started, it can be completed exactly when nobody it waits for waits for
it, and then even without the target's help. -/
theorem completable_or_wedged {recvWindow sendWindow : ℤ}
    (hpath : Path step anyLabel (new recvWindow sendWindow) labels c) (hbegun : c.once ≠ .idle) :
    (¬c.WaitsForItself → Completable Unaided c) ∧
      (c.WaitsForItself → ¬Completable anyLabel c) := by
  have hc := path_consistent hpath (new_consistent recvWindow sendWindow)
  rw [waitsForItself_iff]
  constructor
  · intro hreader
    exact Draining.completable ⟨hc, hbegun, hreader⟩
  · intro hreader
    exact not_completable hc hreader

theorem step_not_closing {label : ConnStep} (hfits : c.FitsDownstream label)
    (hreader : c.reader ≠ .closing) (h : c.step label = some c') : c'.reader ≠ .closing := by
  cases label with
  | start =>
    obtain ⟨-, rfl⟩ := of_guard h
    simp
  | reader data err =>
    intro hclosing
    obtain ⟨data, err, hpc, hopen, hfree⟩ := (readerStep_moves hreader h).overflows hclosing
    simp only [FitsDownstream, hpc, hopen, Bool.false_eq_true, false_or] at hfits
    omega
  | writer ok n => exact (writerStep_moves h).reader ▸ hreader
  | call i request =>
    obtain ⟨-, rfl⟩ := of_guard h
    exact hreader
  | caller i ok => exact callerStep_reader h ▸ hreader
  | collect i =>
    obtain ⟨-, rfl⟩ := collect_cases h
    exact hreader

/-- When no read from the target overflows the downstream buffer, teardown works
in every state. -/
theorem tearsDown_of_fitsDownstream (recvWindow sendWindow : ℤ) (labels : List ConnStep) (c : Conn)
    (hpath : Path step FitsDownstream (new recvWindow sendWindow) labels c) : c.TearsDown := by
  intro hbegun
  have hkeep : ∀ (c : Conn) label c', c.reader ≠ .closing → c.FitsDownstream label →
      c.step label = some c' → c'.reader ≠ .closing :=
    fun _ _ _ h hfits hstep => step_not_closing hfits h hstep
  have hreader := hpath.invariant hkeep (by simp [new])
  have hfree : Path step anyLabel (new recvWindow sendWindow) labels c :=
    hpath.mono fun _ _ _ => trivial
  have hwaits : ¬c.WaitsForItself := waitsForItself_iff.not.mpr hreader
  exact ⟨hwaits, (completable_or_wedged hfree hbegun).1 hwaits⟩

/-- The target sends one byte, which fits, and the client closes. -/
def oneByteRun : List ConnStep :=
  [.start, .reader [] none, .reader [7] none, .reader [] none, .call 0 .close, .caller 0 true,
    .caller 0 true]

/-- The target sends two bytes at once into a buffer of one. -/
def twoBytesRun : List ConnStep :=
  [.start, .reader [] none, .reader [7, 8] none, .reader [] none, .reader [] none]

theorem oneByteRun_tearsDown :
    ∃ c, Path step FitsDownstream (new 1 1) oneByteRun c ∧ c.once ≠ .idle ∧ c.TearsDown := by
  refine Path.exists_of_run_imp (P := fun c => c.once ≠ .idle)
    (by decide +kernel) fun c hpath honce => ?_
  exact ⟨honce, tearsDown_of_fitsDownstream 1 1 oneByteRun c hpath⟩

theorem twoBytesRun_wedges :
    ∃ c, Path step anyLabel (new 1 1) twoBytesRun c ∧ c.once ≠ .idle ∧ c.WaitsForItself ∧
      ¬Completable anyLabel c := by
  refine Path.exists_of_run_imp (P := fun c => c.once ≠ .idle ∧ c.reader = .closing)
    (by decide +kernel) fun c hpath ⟨honce, hreader⟩ => ?_
  refine ⟨honce, waitsForItself_iff.mpr hreader, ?_⟩
  exact not_completable (path_consistent hpath (new_consistent 1 1)) hreader

/-- Once begun, a teardown can be completed without the target's help exactly when it can be
completed at all, that is unless it waits for itself. -/
theorem completable_unaided_iff {recvWindow sendWindow : ℤ}
    (hpath : Path step anyLabel (new recvWindow sendWindow) labels c) (hbegun : c.once ≠ .idle) :
    (Completable Unaided c ↔ Completable anyLabel c) ∧
      (Completable anyLabel c ↔ ¬c.WaitsForItself) := by
  obtain ⟨hdrains, hwedged⟩ := completable_or_wedged hpath hbegun
  have hfree : Completable Unaided c → Completable anyLabel c := fun ⟨labels, c', hrest, hdone⟩ =>
    ⟨labels, c', hrest.mono fun _ _ _ => trivial, hdone⟩
  have hwaits (h : Completable anyLabel c) : ¬c.WaitsForItself := fun hwait => hwedged hwait h
  exact ⟨⟨hfree, fun h => hdrains (hwaits h)⟩, hwaits, fun h => hfree (hdrains h)⟩

theorem twoBytesRun_iff : ∃ c, Path step anyLabel (new 1 1) twoBytesRun c ∧
    (Completable anyLabel c ↔ ¬c.WaitsForItself) := by
  refine Path.exists_of_run_imp (P := fun c => c.once ≠ .idle)
    (by decide +kernel) fun c hpath honce => ?_
  exact (completable_unaided_iff hpath honce).2

end VlfProto.Relay.Conn
