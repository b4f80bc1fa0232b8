import VlfProto.Relay.Closing

/-! # The invariant of a relay connection -/

namespace VlfProto.Relay.Conn
open Platform Transition Option

variable {c c' : Conn} {r : Conn × Bool} {i : ℕ} {ok : Bool} {data : Bytes}
  {err : Option TargetError} {n : ℕ} {label : ConnStep}

/-- Outside `Close` the flags that its body sets only rise, and what only the body
changes stays. -/
structure Keeps (c c' : Conn) : Prop where
  once : c'.once = c.once
  closed : c'.closed = c.closed
  cancelled : c.cancelled → c'.cancelled
  targetClosed : c.targetClosed → c'.targetClosed
  downstream : c.downstream.closed → c'.downstream.closed
  queueClosed : c'.queueClosed = c.queueClosed
  eos : c.eos → c'.eos
  registered : c'.registered = c.registered

theorem Keeps.consistent (hk : c.Keeps c') (hc : c.Consistent)
    (hstarted : c'.reader = .notStarted ↔ c'.writer = .notStarted)
    (hwg : c'.wg = c'.reader.live.toNat + c'.writer.live.toNat)
    (hinClose : ∀ g stage, c.once = .running g stage → c.InClose g → c'.InClose g)
    (hawaited : c.closed → (c.reader.live = false ∨ c.reader = .check ∨ c.reader = .exiting) →
      c'.reader.live = false ∨ c'.reader = .check ∨ c'.reader = .exiting) : c'.Consistent where
  started := hstarted
  wg_eq := hwg
  inClose g stage hrun :=
    have hrun : c.once = .running g stage := hk.once ▸ hrun
    hinClose g stage hrun (hc.inClose g stage hrun)
  closed h := hk.closed ▸ hc.closed (hk.once ▸ h)
  cancelled h := hk.cancelled (hc.cancelled (hk.once ▸ h))
  targetClosed h := hk.targetClosed (hc.targetClosed (hk.once ▸ h))
  downstream h := hk.downstream (hc.downstream (hk.once ▸ h))
  awaited h := by
    rw [hk.once] at h
    exact hawaited (hc.closed (by omega)) (hc.awaited h)
  unregistered h := hk.registered ▸ hc.unregistered (hk.once ▸ h)

theorem markEOSStep_keeps (c : Conn) (stage : EOSStage) : c.Keeps (c.markEOSStep stage).1 := by
  cases stage <;> constructor <;> simp [markEOSStep, RingBuffer.close]

theorem markEOSStep_frame (c : Conn) (stage : EOSStage) :
    c.SameGoroutines (c.markEOSStep stage).1 := by
  cases stage <;> exact { SameGoroutines.refl c with }

theorem afterRead_live (err : Option TargetError) :
    (afterRead err).live ∧ afterRead err ≠ .notStarted ∧ afterRead err ≠ .closing := by
  rcases err with _ | _ | _ | _ <;> simp [afterRead, ReaderPc.live]

/-- What a step of `readLoop` outside `Close` changes. -/
structure ReaderMoves (c c' : Conn) : Prop extends Keeps c c', SameWindow c c' where
  enqueued : c'.enqueued = c.enqueued
  live : c.reader.live
  running : c'.reader ≠ .notStarted
  wg_eq : c'.wg = c.wg - (c.reader.live.toNat - c'.reader.live.toNat)
  leaves : c.closed → c.reader = .check ∨ c.reader = .exiting →
    c'.reader.live = false ∨ c'.reader = .exiting
  overflows : c'.reader = .closing → ∃ data err, c.reader = .write data err ∧
    c.downstream.closed = false ∧ c.downstream.free < data.length

theorem readerStep_moves (hpc : c.reader ≠ .closing) (h : c.readerStep data err = some c') :
    c.ReaderMoves c' := by
  cases hr : c.reader <;>
    simp only [readerStep, hr, ite_none_right_eq_some, some.injEq, reduceCtorEq] at h
  case closing => exact absurd hr hpc
  case check =>
    cases h
    constructor
    · constructor <;> simp
    · constructor <;> rfl
    all_goals cases hclosed : c.closed <;> simp [hr, ReaderPc.live]
  case read =>
    obtain ⟨-, rfl⟩ := h
    obtain ⟨hlive, hne, hne'⟩ := afterRead_live err
    constructor
    · constructor <;> simp
    · constructor <;> rfl
    all_goals by_cases hempty : data = [] <;> simp_all [ReaderPc.live]
  case write p e =>
    obtain ⟨hlive, hne, hne'⟩ := afterRead_live e
    cases h
    have hover := c.downstream.write_overflow_iff p
    constructor
    · constructor <;> simp [RingBuffer.write_closed]
    · constructor <;> rfl
    all_goals cases hflag : (c.downstream.write p).2.2 <;>
      simp_all [ReaderPc.live]
  case markEOS stage =>
    have hframe := c.markEOSStep_frame stage
    cases h
    constructor
    · exact { c.markEOSStep_keeps stage with }
    · exact { hframe.toSameWindow with }
    all_goals cases hnext : (c.markEOSStep stage).2 <;>
      simp [hr, ReaderPc.live, hframe.wg, hframe.enqueued]
  case exiting =>
    cases h
    constructor
    · constructor <;> simp
    · constructor <;> rfl
    all_goals simp [hr, ReaderPc.live]

/-- What a step of `writeLoop` changes. -/
structure WriterMoves (c c' : Conn) : Prop extends Keeps c c' where
  reader : c'.reader = c.reader
  callers : c'.callers = c.callers
  enqueued : c'.enqueued = c.enqueued
  live : c.writer.live
  running : c'.writer ≠ .notStarted
  wg_eq : c'.wg = c.wg - (c.writer.live.toNat - c'.writer.live.toNat)

theorem writerMoves_of_live {pc : WriterPc} {queue : List Bytes} {bytes : ℤ} {written : Bytes}
    (hlive : c.writer.live) (hpc : pc.live) :
    c.WriterMoves { c with
      upstreamQueue := queue
      upstreamBytes := bytes
      written := written
      writer := pc } := by
  constructor
  · constructor <;> simp
  · rfl
  · rfl
  · rfl
  · exact hlive
  · exact WriterPc.ne_notStarted_of_live hpc
  · simp [hlive, hpc]

theorem writerStep_moves (h : c.writerStep ok n = some c') : c.WriterMoves c' := by
  cases hw : c.writer <;>
    simp only [writerStep, hw, ite_none_left_eq_some, some.injEq, reduceCtorEq] at h
  case select =>
    have hlive : c.writer.live := by rw [hw]; rfl
    split at h
    · split at h
      · obtain ⟨-, rfl⟩ := of_guard h
        exact writerMoves_of_live hlive rfl
      · cases h
        exact writerMoves_of_live hlive rfl
    · obtain ⟨-, rfl⟩ := of_guard h
      exact writerMoves_of_live hlive rfl
  case subtract chunk | checkClosed chunk | checkEOS chunk =>
    cases h
    exact writerMoves_of_live (by rw [hw]; rfl) (by split_ifs <;> rfl)
  case deadline chunk =>
    obtain ⟨-, rfl⟩ := h
    exact writerMoves_of_live (by rw [hw]; rfl) (by split_ifs <;> rfl)
  case write chunk =>
    obtain ⟨-, rfl⟩ := h
    exact writerMoves_of_live (by rw [hw]; rfl) (by cases ok <;> rfl)
  case markEOS stage =>
    have hframe := c.markEOSStep_frame stage
    cases h
    constructor
    · exact { c.markEOSStep_keeps stage with }
    all_goals cases hnext : (c.markEOSStep stage).2 <;>
      simp [hw, WriterPc.live, hframe.reader, hframe.callers, hframe.wg, hframe.enqueued]
  case exiting =>
    cases h
    constructor
    · constructor <;> simp
    all_goals simp [hw, WriterPc.live]

/-- What a call of the manager changes outside `Close`. -/
structure CallerMoves (c c' : Conn) (i : ℕ) : Prop extends Keeps c c' where
  reader : c'.reader = c.reader
  writer : c'.writer = c.writer
  wg : c'.wg = c.wg
  sendWindow : c'.sendWindow = c.sendWindow
  callers : ∀ j, j ≠ i → c'.callers j = c.callers j

theorem setCaller_moves {pc : CallPc} {queue : List Bytes} {bytes : ℤ} {enqueued : Bytes}
    {downstream : RingBuffer} (hclosed : downstream.closed = c.downstream.closed) :
    c.CallerMoves ({ c with
      downstream := downstream
      upstreamQueue := queue
      upstreamBytes := bytes
      enqueued := enqueued }.setCaller i pc) i := by
  constructor
  · constructor <;> simp [setCaller, hclosed]
  all_goals simp +contextual [setCaller, Function.update_of_ne]

theorem callerStep_moves (hpc : ∀ found, c.callers i ≠ .closing found)
    (h : c.callerStep i ok = some c') : c.CallerMoves c' i := by
  cases hcall : c.callers i <;>
    simp only [callerStep, hcall, some.injEq, reduceCtorEq] at h
  case loopSend data offset =>
    subst h
    unfold sendLoopStep
    split_ifs <;> exact setCaller_moves rfl
  case recvRead max =>
    subst h
    exact setCaller_moves (c.downstream.read_closed max)
  case closing found => exact absurd hcall (hpc found)
  all_goals
    subst h
    exact setCaller_moves rfl

theorem ReaderMoves.consistent (hm : c.ReaderMoves c') (hc : c.Consistent)
    (hpc : c.reader ≠ .closing) : c'.Consistent := by
  apply hm.toKeeps.consistent hc
  · have hwriter : c.writer ≠ .notStarted :=
      fun h => ReaderPc.ne_notStarted_of_live hm.live (hc.started.mpr h)
    simp [hm.writer, hm.running, hwriter]
  · have hwg := hm.wg_eq
    rw [hc.wg_eq] at hwg
    have hlive : c'.reader.live.toNat ≤ c.reader.live.toNat := by
      rw [hm.live]
      exact Bool.toNat_le _
    rw [hm.writer]
    omega
  · intro g stage _ hg
    cases g with
    | reader => exact absurd hg hpc
    | writer => exact hg
    | caller i => simpa only [InClose, hm.callers] using hg
  · intro hclosed hreader
    rcases hm.leaves hclosed (hreader.resolve_left (by simp [hm.live])) with h | h
    · exact .inl h
    · exact .inr (.inr h)

theorem WriterMoves.consistent (hm : c.WriterMoves c') (hc : c.Consistent) : c'.Consistent := by
  apply hm.toKeeps.consistent hc
  · have hreader : c.reader ≠ .notStarted :=
      fun h => WriterPc.ne_notStarted_of_live hm.live (hc.started.mp h)
    simp [hm.reader, hm.running, hreader]
  · have hwg := hm.wg_eq
    rw [hc.wg_eq] at hwg
    have hlive : c'.writer.live.toNat ≤ c.writer.live.toNat := by
      rw [hm.live]
      exact Bool.toNat_le _
    rw [hm.reader]
    omega
  · exact fun g _ _ hg => (inClose_congr hm.reader hm.callers).mpr hg
  · rw [hm.reader]
    exact fun _ h => h

theorem CallerMoves.consistent (hm : c.CallerMoves c' i) (hc : c.Consistent)
    (hcell : ∀ stage, c.once ≠ .running (.caller i) stage) : c'.Consistent := by
  apply hm.toKeeps.consistent hc
  · rw [hm.reader, hm.writer]
    exact hc.started
  · rw [hm.reader, hm.writer, hm.wg]
    exact hc.wg_eq
  · intro g stage hrun hg
    cases g with
    | reader => exact hm.reader.trans hg
    | writer => exact hg
    | caller j =>
      obtain ⟨found, hfound⟩ := hg
      have hne : j ≠ i := by
        rintro rfl
        exact hcell stage hrun
      exact ⟨found, (hm.callers j hne).trans hfound⟩
  · rw [hm.reader]
    exact fun _ h => h

theorem start_consistent (hc : c.Consistent) (h : c.start = some c') : c'.Consistent := by
  obtain ⟨hreader, rfl⟩ := of_guard h
  have hwriter := hc.started.mp hreader
  have hkeeps : c.Keeps { c with wg := c.wg + 2, reader := .check, writer := .select } := by
    constructor <;> simp
  apply hkeeps.consistent hc
  · simp
  · simp [hc.wg_eq, hreader, hwriter, ReaderPc.live, WriterPc.live]
  · intro g stage _ hg
    cases g with
    | reader => simp [InClose, hreader] at hg
    | writer | caller i => exact hg
  · simp

/-- `readLoop` never comes back from `Close`: the body waits for `readLoop` itself. -/
theorem closeStep_reader (hc : c.Consistent) (hpc : c.reader = .closing)
    (h : c.closeStep .reader = some r) : r.2 = false ∧ r.1.reader = .closing := by
  have hreader := (closeStep_frame h).reader.trans hpc
  have hg : c.InClose .reader := hpc
  have hr := closeStep_consistent hc hg h
  refine ⟨?_, hreader⟩
  by_contra hret
  have hdone := closeStep_returned h (by simpa using hret)
  have hawaited := hr.awaited (by simp [hdone, bodyProgress])
  simp [hreader, ReaderPc.live] at hawaited

theorem readerStep_cases (h : c.readerStep data err = some c') :
    (c.reader ≠ .closing ∧ c.ReaderMoves c') ∨ ∃ r, c.reader = .closing ∧
      c.closeStep .reader = some r ∧ c' = if r.2 then { r.1 with reader := .exiting } else r.1 := by
  by_cases hpc : c.reader = .closing
  · simp only [readerStep, hpc, map_eq_some_iff] at h
    obtain ⟨r, hclose, rfl⟩ := h
    exact .inr ⟨r, hpc, hclose, rfl⟩
  · exact .inl ⟨hpc, readerStep_moves hpc h⟩

theorem readerStep_consistent (hc : c.Consistent) (h : c.readerStep data err = some c') :
    c'.Consistent := by
  rcases readerStep_cases h with ⟨hpc, hm⟩ | ⟨r, hpc, hclose, rfl⟩
  · exact hm.consistent hc hpc
  · have hg : c.InClose .reader := hpc
    rw [if_neg (by simp [(closeStep_reader hc hpc hclose).1])]
    exact closeStep_consistent hc hg hclose

theorem Consistent.setCaller {pc : CallPc} (hc : c.Consistent)
    (hcell : ∀ stage, c.once ≠ .running (.caller i) stage) : (c.setCaller i pc).Consistent :=
  (setCaller_moves rfl : c.CallerMoves (c.setCaller i pc) i).consistent hc hcell

theorem Consistent.cell_ne (hc : c.Consistent) (hpc : ∀ found, c.callers i ≠ .closing found)
    (stage : CloseStage) : c.once ≠ .running (.caller i) stage := by
  intro hrun
  obtain ⟨found, hfound⟩ := hc.inClose _ _ hrun
  exact hpc found hfound

theorem callerStep_cases (h : c.callerStep i ok = some c') :
    ((∀ found, c.callers i ≠ .closing found) ∧ c.CallerMoves c' i) ∨
      ∃ found r, c.callers i = .closing found ∧ c.closeStep (.caller i) = some r ∧
        c' = if r.2 then r.1.setCaller i (.finished found) else r.1 := by
  by_cases hpc : ∃ found, c.callers i = .closing found
  · obtain ⟨found, hfound⟩ := hpc
    simp only [callerStep, hfound, map_eq_some_iff] at h
    obtain ⟨r, hclose, rfl⟩ := h
    exact .inr ⟨found, r, hfound, hclose, rfl⟩
  · rw [not_exists] at hpc
    exact .inl ⟨hpc, callerStep_moves hpc h⟩

theorem callerStep_consistent (hc : c.Consistent) (h : c.callerStep i ok = some c') :
    c'.Consistent := by
  rcases callerStep_cases h with ⟨hpc, hm⟩ | ⟨found, r, hfound, hclose, rfl⟩
  · exact hm.consistent hc (hc.cell_ne hpc)
  · have hg : c.InClose (.caller i) := ⟨found, hfound⟩
    have hr := closeStep_consistent hc hg hclose
    split_ifs with hret
    · apply hr.setCaller
      simp [closeStep_returned hclose hret]
    · exact hr

theorem collect_cases (h : c.collect i = some c') :
    (∃ result, c.callers i = .finished result) ∧ c' = c.setCaller i .idle := by
  unfold collect at h
  split at h
  · rename_i result hfinished
    exact ⟨⟨result, hfinished⟩, (some.inj h).symm⟩
  · cases h

theorem step_consistent (hc : c.Consistent) (h : c.step label = some c') : c'.Consistent := by
  cases label with
  | start => exact start_consistent hc h
  | reader data err => exact readerStep_consistent hc h
  | writer ok n => exact (writerStep_moves h).consistent hc
  | call i request =>
    obtain ⟨hidle, rfl⟩ := of_guard h
    exact hc.setCaller (hc.cell_ne (by simp [hidle]))
  | caller i ok => exact callerStep_consistent hc h
  | collect i =>
    obtain ⟨⟨result, hfinished⟩, rfl⟩ := collect_cases h
    exact hc.setCaller (hc.cell_ne (by simp [hfinished]))

end VlfProto.Relay.Conn
