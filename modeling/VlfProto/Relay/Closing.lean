import VlfProto.Relay.Conn

/-! # What teardown relies on -/

namespace VlfProto.Relay
open Platform Transition Option

def ReaderPc.live : ReaderPc → Bool
  | .notStarted => false
  | .stopped => false
  | _ => true

def WriterPc.live : WriterPc → Bool
  | .notStarted => false
  | .stopped => false
  | _ => true

theorem ReaderPc.ne_notStarted_of_live {pc : ReaderPc} (h : pc.live) : pc ≠ .notStarted := by
  rintro rfl
  cases h

theorem WriterPc.ne_notStarted_of_live {pc : WriterPc} (h : pc.live) : pc ≠ .notStarted := by
  rintro rfl
  cases h

def CloseStage.rank : CloseStage → ℕ
  | .storeClosed => 1
  | .storeEOS => 2
  | .cancel => 3
  | .closeTarget => 4
  | .closeDownstream => 5
  | .closeQueue => 6
  | .wait => 7
  | .onClosed => 8

theorem CloseStage.rank_bounds (stage : CloseStage) : 0 < stage.rank ∧ stage.rank < 9 := by
  cases stage <;> simp [CloseStage.rank]

def bodyProgress : Once Goroutine CloseStage → ℕ
  | .idle => 0
  | .running _ stage => stage.rank
  | .done => 9

namespace Conn

variable {c c' : Conn} {g : Goroutine} {r : Conn × Bool} {next : Option CloseStage}
  {stage : CloseStage}

/-- The goroutines that `c.wg.Wait` is still waiting for. -/
def Counted (c : Conn) : Goroutine → Prop
  | .reader => c.reader.live
  | .writer => c.writer.live
  | .caller _ => False

/-- The goroutines inside `Close`, where they run its body or wait for the one
that does. -/
def InClose (c : Conn) : Goroutine → Prop
  | .reader => c.reader = .closing
  | .writer => False
  | .caller i => ∃ found, c.callers i = .closing found

structure Consistent (c : Conn) : Prop where
  started : c.reader = .notStarted ↔ c.writer = .notStarted
  wg_eq : c.wg = c.reader.live.toNat + c.writer.live.toNat
  inClose : ∀ g stage, c.once = .running g stage → c.InClose g
  closed : 2 ≤ bodyProgress c.once → c.closed
  cancelled : 4 ≤ bodyProgress c.once → c.cancelled
  targetClosed : 5 ≤ bodyProgress c.once → c.targetClosed
  downstream : 6 ≤ bodyProgress c.once → c.downstream.closed
  awaited : 8 ≤ bodyProgress c.once →
    c.reader.live = false ∨ c.reader = .check ∨ c.reader = .exiting
  unregistered : c.once = .done → c.registered = false

theorem new_consistent (recvWindow sendWindow : ℤ) : (new recvWindow sendWindow).Consistent where
  started := by simp [new]
  wg_eq := by simp [new, ReaderPc.live, WriterPc.live]
  inClose := by simp [new]
  closed := by simp [new, bodyProgress]
  cancelled := by simp [new, bodyProgress]
  targetClosed := by simp [new, bodyProgress]
  downstream := by simp [new, bodyProgress]
  awaited := by simp [new, bodyProgress]
  unregistered := by simp [new]

/-- Neither the queue, the counter nor a program counter of the upload changes. -/
structure SameWindow (c c' : Conn) : Prop where
  upstreamQueue : c'.upstreamQueue = c.upstreamQueue
  upstreamBytes : c'.upstreamBytes = c.upstreamBytes
  sendWindow : c'.sendWindow = c.sendWindow
  writer : c'.writer = c.writer
  callers : c'.callers = c.callers

/-- The program counters, the count of the loops and the upload are the same. -/
structure SameGoroutines (c c' : Conn) : Prop extends SameWindow c c' where
  reader : c'.reader = c.reader
  wg : c'.wg = c.wg
  enqueued : c'.enqueued = c.enqueued

theorem closeStep_cases (h : c.closeStep g = some r) :
    (c.once = .idle ∧ r = ({ c with once := .running g .storeClosed }, false)) ∨
    (∃ stage c' next, c.once = .running g stage ∧ c.bodyStep stage = some (c', next) ∧
      r = ({ c' with once := next.elim .done (.running g) }, next.isNone)) ∨
    (c.once = .done ∧ r = (c, true)) := by
  obtain ⟨s, hact, rfl⟩ := map_eq_some_iff.mp h
  rcases Once.act_cases hact with ⟨hidle, rfl⟩ | ⟨stage, c', next, hrun, hbody, rfl⟩ | ⟨hdone, rfl⟩
  · exact .inl ⟨hidle, rfl⟩
  · exact .inr (.inl ⟨stage, c', next, hrun, hbody, rfl⟩)
  · refine .inr (.inr ⟨hdone, ?_⟩)
    rw [← hdone]

theorem SameGoroutines.refl (c : Conn) : c.SameGoroutines c :=
  ⟨⟨rfl, rfl, rfl, rfl, rfl⟩, rfl, rfl, rfl⟩

/-- The body raises each flag before it goes on, goes past the wait only when no
loop is left, and removes the connection from the table at its end. -/
structure BodyMoves (c : Conn) (stage : CloseStage) (c' : Conn) (next : Option CloseStage) : Prop
    extends SameGoroutines c c' where
  progress : ∀ g, bodyProgress (next.elim .done (.running g)) = stage.rank + 1
  closed : (2 ≤ stage.rank → c.closed) → c'.closed
  eos : c.eos → c'.eos
  raised : (3 ≤ stage.rank → c.eos) → 3 ≤ stage.rank + 1 → c'.eos
  cancelled : (4 ≤ stage.rank → c.cancelled) → 4 ≤ stage.rank + 1 → c'.cancelled
  targetClosed : (5 ≤ stage.rank → c.targetClosed) → 5 ≤ stage.rank + 1 → c'.targetClosed
  downstream : (6 ≤ stage.rank → c.downstream.closed) → 6 ≤ stage.rank + 1 → c'.downstream.closed
  ring : c'.downstream = c.downstream ∨
    stage = .closeDownstream ∧ c'.downstream = c.downstream.close
  queueClosed : c'.queueClosed → c.queueClosed ∨ stage = .closeQueue
  wait : stage.rank = 7 → c.wg = 0
  registered : c'.registered = if next.isNone then false else c.registered

theorem bodyStep_moves (h : c.bodyStep stage = some (c', next)) : c.BodyMoves stage c' next := by
  cases stage <;> simp only [bodyStep, ite_none_right_eq_some, some.injEq,
    Prod.mk.injEq] at h
  case wait =>
    obtain ⟨hwg, rfl, rfl⟩ := h
    constructor
    · exact .refl c
    all_goals simp [bodyProgress, CloseStage.rank, hwg]
  all_goals
    obtain ⟨rfl, rfl⟩ := h
    constructor
    · exact { SameGoroutines.refl c with }
    all_goals simp [bodyProgress, CloseStage.rank, RingBuffer.close]

theorem inClose_congr (hreader : c'.reader = c.reader) (hcallers : c'.callers = c.callers) :
    c'.InClose g ↔ c.InClose g := by
  cases g <;> simp [InClose, hreader, hcallers]

theorem bodyStep_consistent (hc : c.Consistent) (hrun : c.once = .running g stage)
    (h : c.bodyStep stage = some (c', next)) :
    { c' with once := next.elim .done (.running g) : Conn }.Consistent := by
  have hm := bodyStep_moves h
  have hrank : bodyProgress c.once = stage.rank := by rw [hrun]; rfl
  have hcclosed := hc.closed
  have hccancelled := hc.cancelled
  have hctarget := hc.targetClosed
  have hcdownstream := hc.downstream
  have hcawaited := hc.awaited
  rw [hrank] at hcclosed hccancelled hctarget hcdownstream hcawaited
  constructor
  · rw [hm.reader, hm.writer]
    exact hc.started
  · rw [hm.reader, hm.writer, hm.wg]
    exact hc.wg_eq
  · intro g' stage' hrun'
    cases next with
    | none => cases hrun'
    | some next =>
      cases hrun'
      exact (inClose_congr hm.reader hm.callers).mpr (hc.inClose g stage hrun)
  · exact fun _ => hm.closed hcclosed
  · rw [hm.progress]
    exact hm.cancelled hccancelled
  · rw [hm.progress]
    exact hm.targetClosed hctarget
  · rw [hm.progress]
    exact hm.downstream hcdownstream
  · rw [hm.progress, hm.reader]
    intro hpast
    rcases (by omega : stage.rank = 7 ∨ 8 ≤ stage.rank) with hseven | height
    · have hzero := hm.wait hseven
      rw [hc.wg_eq] at hzero
      have hlive : c.reader.live.toNat = 0 := by omega
      exact .inl (by simpa using hlive)
    · exact hcawaited height
  · intro hdone
    cases next with
    | none => exact hm.registered
    | some next => cases hdone

theorem closeStep_consistent (hc : c.Consistent) (hg : c.InClose g) (h : c.closeStep g = some r) :
    r.1.Consistent := by
  rcases closeStep_cases h with ⟨hidle, rfl⟩ | ⟨stage, c', next, hrun, hbody, rfl⟩ | ⟨-, rfl⟩
  · constructor
    · exact hc.started
    · exact hc.wg_eq
    · rintro g' stage ⟨⟩
      exact (inClose_congr rfl rfl).mpr hg
    all_goals simp [bodyProgress, CloseStage.rank]
  · exact bodyStep_consistent hc hrun hbody
  · exact hc

theorem closeStep_frame (h : c.closeStep g = some r) : c.SameGoroutines r.1 := by
  rcases closeStep_cases h with ⟨-, rfl⟩ | ⟨stage, c', next, -, hbody, rfl⟩ | ⟨-, rfl⟩
  · exact { SameGoroutines.refl c with }
  · exact { (bodyStep_moves hbody).toSameGoroutines with }
  · exact .refl c

theorem closeStep_returned (h : c.closeStep g = some r) (hr : r.2 = true) : r.1.once = .done := by
  obtain ⟨s, hact, rfl⟩ := map_eq_some_iff.mp h
  exact Once.act_returned hact hr

end Conn
end VlfProto.Relay
