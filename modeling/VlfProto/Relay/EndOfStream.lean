import VlfProto.Relay.Download

/-! # The end of a relayed download -/

namespace VlfProto.Relay
open Platform Transition Option List

namespace Conn

variable {c c' : Conn} {i : ℕ} {max : ℤ} {label : ConnStep}

theorem setCaller_recvRead {j : ℕ} {pc : CallPc} (hpc : pc ≠ .recvRead max)
    (h : (c.setCaller j pc).callers i = .recvRead max) : c.callers i = .recvRead max := by
  by_cases hij : i = j
  · simp [setCaller, hij, hpc] at h
  · simpa [setCaller, hij] using h

/-- A call gets to the read of the ring only while the connection is not closed. -/
theorem callerStep_recvRead {j : ℕ} {ok : Bool} (h : c.callerStep j ok = some c')
    (hpc : c'.callers i = .recvRead max) : c.callers i = .recvRead max ∨ c.closed = false := by
  by_cases hij : i = j
  · subst hij
    cases hcall : c.callers i <;>
      simp only [callerStep, hcall, some.injEq, reduceCtorEq] at h
    case recvClosed m =>
      right
      subst h
      simp only [setCaller, Function.update_self] at hpc
      split_ifs at hpc with hclosed
      simpa using hclosed
    case loopSend =>
      subst h
      unfold sendLoopStep at hpc
      split_ifs at hpc <;> simp [setCaller] at hpc
    case closing found =>
      obtain ⟨r, hclose, rfl⟩ := map_eq_some_iff.mp h
      split_ifs at hpc
      · simp [setCaller] at hpc
      · simp [(closeStep_frame hclose).callers, hcall] at hpc
    all_goals
      subst h
      simp only [setCaller, Function.update_self, loopHead] at hpc
      first
        | cases hpc
        | split_ifs at hpc
  · rw [callerStep_other h hij] at hpc
    exact .inl hpc

theorem step_recvOpen (h : c.step label = some c') (hopen : c'.RecvOpen) : c.RecvOpen := by
  rcases hopen with hclosed | ⟨i, max, hpc⟩
  · left
    by_contra hbefore
    simp [step_closed h (by simpa using hbefore)] at hclosed
  cases label with
  | start =>
    obtain ⟨-, rfl⟩ := of_guard h
    exact .inr ⟨i, max, hpc⟩
  | reader data err => exact .inr ⟨i, max, (readerStep_upload h).1 ▸ hpc⟩
  | writer ok n => exact .inr ⟨i, max, (writerStep_moves h).callers ▸ hpc⟩
  | call j request =>
    obtain ⟨-, rfl⟩ := of_guard h
    exact .inr ⟨i, max, setCaller_recvRead (by cases request <;> simp [firstPc]) hpc⟩
  | caller j ok =>
    rcases callerStep_recvRead h hpc with hbefore | hclosed
    · exact .inr ⟨i, max, hbefore⟩
    · exact .inl hclosed
  | collect j =>
    obtain ⟨-, rfl⟩ := collect_cases h
    exact .inr ⟨i, max, setCaller_recvRead (by simp) hpc⟩

end Conn

namespace Download

variable {d d' : Download} {label : ConnStep}

/-- `rest` is what the target has delivered beyond what was returned or is in the ring: while
the ring is open what `readLoop` holds, unless it has overflowed the ring, and nothing once the
ring is closed and `Recv` can still read it. -/
structure Accounted (d : Download) (rest : Bytes) : Prop where
  delivered : d.delivered = d.received ++ d.conn.downstream.contents ++ rest
  held : d.conn.downstream.closed = false → d.conn.reader ≠ .closing → rest = d.conn.reader.held
  drained : d.conn.downstream.closed → d.conn.RecvOpen → rest = []

structure Tracked (d : Download) : Prop where
  consistent : d.conn.Consistent
  ring : d.conn.downstream.WellFormed
  accounted : ∃ rest, d.Accounted rest
  endedEarly : d.endedEarly = false

theorem new_tracked (recvWindow sendWindow : ℤ) : (new recvWindow sendWindow).Tracked where
  consistent := Conn.new_consistent recvWindow sendWindow
  ring := RingBuffer.new_wellFormed _
  accounted := ⟨[], rfl, fun _ _ => rfl, fun _ _ => rfl⟩
  endedEarly := rfl

section

variable {rest : Bytes} {c' : Conn} (hd : d.Accounted rest) (hopen : c'.RecvOpen → d.conn.RecvOpen)
include hd hopen

theorem Accounted.deliver {data : Bytes} (hpc : d.conn.reader.held = [] ∧ d.conn.reader ≠ .closing)
    (hring : c'.downstream = d.conn.downstream) (hreader : c'.reader.held = data)
    (hlate : d.conn.RecvOpen → d.conn.downstream.closed → data = []) :
    Accounted { d with conn := c', delivered := d.delivered ++ data } (rest ++ data) where
  delivered := by
    rw [hd.delivered, hring]
    simp
  held hopened _ := by
    rw [hring] at hopened
    rw [hd.held hopened hpc.2, hpc.1, hreader]
    rfl
  drained hclosed hrecv := by
    rw [hring] at hclosed
    rw [hd.drained hclosed (hopen hrecv), hlate (hopen hrecv) hclosed]
    rfl

theorem Accounted.write (hring : d.conn.downstream.WellFormed) (hpc : d.conn.reader ≠ .closing)
    (hwritten : c'.downstream = (d.conn.downstream.write d.conn.reader.held).1)
    (hheld : c'.reader.held = [])
    (hoverflow : c'.reader ≠ .closing →
      (d.conn.downstream.write d.conn.reader.held).2.2 = false) :
    ∃ rest, Accounted { d with conn := c' } rest := by
  by_cases hclosed : d.conn.downstream.closed
  · rw [RingBuffer.write_of_closed hclosed] at hwritten
    refine ⟨rest, ?_, ?_, fun _ hrecv => hd.drained hclosed (hopen hrecv)⟩
    · rw [hd.delivered, hwritten]
    · simp [hwritten, hclosed]
  · have hopened : d.conn.downstream.closed = false := by simpa using hclosed
    have hcontents := RingBuffer.write_contents hring d.conn.reader.held hopened
    obtain rfl := hd.held hopened hpc
    refine ⟨d.conn.reader.held.drop d.conn.downstream.free, ?_, fun _ hstays => ?_, ?_⟩
    · rw [hd.delivered, hwritten, hcontents]
      simp
    · rw [hheld, drop_eq_nil_iff]
      by_contra hlong
      have hover := (RingBuffer.write_overflow_iff _ _).mpr ⟨hopened, not_le.mp hlong⟩
      simp [hoverflow hstays] at hover
    · simp [hwritten, RingBuffer.write_closed, hopened]

theorem Accounted.recv (hring : d.conn.downstream.WellFormed) (max : ℤ)
    (hread : c'.downstream = (d.conn.downstream.read max).1) (hreader : c'.reader = d.conn.reader) :
    Accounted { d with conn := c', received := d.received ++ (d.conn.downstream.read max).2.1 }
      rest where
  delivered := by
    rw [hd.delivered, RingBuffer.read_contents hring max, hread]
    simp
  held hopened hpc := by
    rw [hread, RingBuffer.read_closed] at hopened
    rw [hreader] at hpc ⊢
    exact hd.held hopened hpc
  drained hclosed hrecv := by
    rw [hread, RingBuffer.read_closed] at hclosed
    exact hd.drained hclosed (hopen hrecv)

theorem Accounted.close
    (hquiet : d.conn.RecvOpen → d.conn.reader.held = [] ∧ d.conn.reader ≠ .closing)
    (hring : c'.downstream = d.conn.downstream.close) :
    Accounted { d with conn := c' } rest where
  delivered := by
    rw [hd.delivered, hring]
    rfl
  held hopened := by
    rw [hring] at hopened
    cases hopened
  drained _ hrecv := by
    cases hclosed : d.conn.downstream.closed with
    | true => exact hd.drained hclosed (hopen hrecv)
    | false =>
      obtain ⟨hheld, hpc⟩ := hquiet (hopen hrecv)
      rw [hd.held hclosed hpc, hheld]

theorem Accounted.other (hring : c'.downstream = d.conn.downstream)
    (hheld : c'.reader.held = d.conn.reader.held)
    (hclosing : d.conn.reader = .closing → c'.reader = .closing) :
    Accounted { d with conn := c' } rest where
  delivered := by rw [hd.delivered, hring]
  held hopened hpc := by
    rw [hring] at hopened
    rw [hheld]
    exact hd.held hopened fun hbefore => hpc (hclosing hbefore)
  drained hclosed hrecv := by
    rw [hring] at hclosed
    exact hd.drained hclosed (hopen hrecv)

end

theorem step_tracked (hguard : d.conn.ClosesDrained label) (hd : d.Tracked)
    (h : d.step label = some d') : d'.Tracked := by
  obtain ⟨c', hstep, rfl⟩ := map_eq_some_iff.mp h
  obtain ⟨rest, hrest⟩ := hd.accounted
  have hc' := Conn.step_consistent hd.consistent hstep
  have hopen := Conn.step_recvOpen hstep
  cases Conn.step_ringMoves hd.consistent hstep with
  | deliver hpc hring hrecv hreader =>
    rw [hrecv]
    refine ⟨hc', hring ▸ hd.ring, ⟨_, hrest.deliver hopen hpc hring hreader ?_⟩, hd.endedEarly⟩
    exact fun hrecv => (hguard hrecv).2
  | write hpc hread hrecv hring hreader hoverflow =>
    rw [hrecv, hread, append_nil]
    refine ⟨hc', ?_, hrest.write hopen hd.ring hpc hring hreader hoverflow, hd.endedEarly⟩
    exact hring ▸ RingBuffer.write_wellFormed hd.ring _
  | recv i max hpc hread hrecv hring hreader =>
    have hafter := hrest.recv hopen hd.ring max hring hreader
    rw [hrecv, hread, append_nil]
    refine ⟨hc', hring ▸ RingBuffer.read_wellFormed hd.ring max, ?_, ?_⟩
    · exact ⟨rest, hafter.delivered, hafter.held, hafter.drained⟩
    · simp only [record, hd.endedEarly, Bool.false_or, Bool.and_eq_false_imp,
        decide_eq_false_iff_not, not_not]
      intro heos
      obtain ⟨hclosed, hempty⟩ := RingBuffer.read_eos _ max heos
      have hdelivered := hafter.delivered
      rw [hring, hempty, hrest.drained hclosed (.inr ⟨i, max, hpc⟩)] at hdelivered
      simpa using hdelivered.symm
  | close hlabel hread hrecv hring =>
    rw [hrecv, hread, append_nil]
    refine ⟨hc', ?_, ⟨rest, hrest.close hopen (fun hrecv => (hguard hrecv).1 hlabel) hring⟩,
      hd.endedEarly⟩
    change c'.downstream.WellFormed
    rw [hring]
    exact ⟨hd.ring.r_lt, hd.ring.size_le, hd.ring.w_eq⟩
  | other hread hrecv hring hheld hclosing =>
    rw [hrecv, hread, append_nil]
    exact ⟨hc', hring ▸ hd.ring, ⟨rest, hrest.other hopen hring hheld hclosing⟩, hd.endedEarly⟩

/-- When the ring is only closed while `readLoop` holds nothing, `Recv` returns what the target
delivered, and reports the end at the end. -/
theorem faithful_of_closesDrained (recvWindow sendWindow : ℤ) (labels : List ConnStep)
    (d : Download) (hpath : Path step (fun d label => d.conn.ClosesDrained label)
      (new recvWindow sendWindow) labels d) : d.Faithful := by
  have hkeep : ∀ (d : Download) label d', d.Tracked → d.conn.ClosesDrained label →
      d.step label = some d' → d'.Tracked :=
    fun _ _ _ hd hguard hstep => step_tracked hguard hd hstep
  have hd := hpath.invariant hkeep (new_tracked recvWindow sendWindow)
  obtain ⟨rest, hrest⟩ := hd.accounted
  refine ⟨?_, hd.endedEarly⟩
  rw [hrest.delivered, append_assoc]
  exact prefix_append _ _

/-- The target sends one byte and ends, and then the client receives. -/
def byteThenEOF : List ConnStep :=
  [.start, .reader [] none, .reader [7] none, .reader [] none, .reader [] none,
    .reader [] (some .eof), .reader [] none, .reader [] none, .call 0 (.recv 0), .caller 0 true,
    .caller 0 true, .caller 0 true]

theorem byteThenEOF_faithful :
    ∃ d, Path step (fun d label => d.conn.ClosesDrained label) (new 1 1) byteThenEOF d ∧
      d.conn.callers 0 = .finished (.received [7] true) ∧ d.Faithful := by
  obtain ⟨d, hrun, hcall⟩ :
      ∃ d, Path step (fun d label =>
          (d.conn.closesRing label → d.conn.reader.held = [] ∧ d.conn.reader ≠ .closing) ∧
            (d.conn.downstream.closed → d.conn.readBy label = [])) (new 1 1) byteThenEOF d ∧
        d.conn.callers 0 = .finished (.received [7] true) := Path.exists_of_run (by decide +kernel)
  have hpath := hrun.mono fun d label hguard (_ : d.conn.RecvOpen) => hguard
  exact ⟨d, hpath, hcall, faithful_of_closesDrained 1 1 byteThenEOF d hpath⟩

/-- A byte of the client cannot be written to the target; between the two steps in
which `writeLoop` then marks the end and closes the ring, `readLoop` gets a byte. -/
def failedWriteRun : List ConnStep :=
  [.start, .call 0 (.send [1])] ++ List.replicate 8 (.caller 0 true) ++
    List.replicate 5 (.writer true 0) ++ [.writer false 0, .writer true 0, .reader [] none,
    .reader [7] none, .writer true 0, .call 1 (.recv 0)] ++ List.replicate 3 (.caller 1 true)

theorem failedWriteRun_endedEarly :
    ∃ d, Path step anyLabel (new 1 1) failedWriteRun d ∧ d.delivered = [7] ∧ d.received = [] ∧
      d.conn.callers 1 = .closeLookup (.received [] true) (.received [] true) ∧ ¬d.Faithful := by
  refine Path.exists_of_run_imp (P := fun d => d.delivered = [7] ∧ d.received = [] ∧
      d.conn.callers 1 = .closeLookup (.received [] true) (.received [] true) ∧ d.endedEarly = true)
    (by decide +kernel) fun d hpath ⟨hdelivered, hreceived, hcall, hearly⟩ => ?_
  refine ⟨hdelivered, hreceived, hcall, fun hfaithful => ?_⟩
  rw [hfaithful.2] at hearly
  cases hearly

end Download
end VlfProto.Relay
