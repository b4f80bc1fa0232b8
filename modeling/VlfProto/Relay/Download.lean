import VlfProto.Relay.Wedge

/-!
# Download through the relay

The ghost fields hold what `target.Read` has delivered and what `Recv` has returned. A closed
ring refuses what is written to it without a word.
-/
namespace VlfProto.Relay
open Platform Transition Option

/-- The bytes `readLoop` has read from the target and not yet written to the ring. -/
def ReaderPc.held : ReaderPc → Bytes
  | .write data _ => data
  | _ => []

namespace Conn

def readBy (c : Conn) : ConnStep → Bytes
  | .reader data _ => if c.reader = .read then data else []
  | _ => []

/-- What `relayConn.Recv` returns at a step without error: its last action is the
read of the ring. -/
def recvBy (c : Conn) : ConnStep → Option (Bytes × Bool)
  | .caller i _ =>
    match c.callers i with
    | .recvRead max => some (c.downstream.read max).2
    | _ => none
  | _ => none

/-- The step closes the ring, in `MarkEOS` or in the body of `Close`. -/
def closesRing (c : Conn) : ConnStep → Bool
  | .reader _ _ => c.reader = .markEOS .closeDownstream ∨
      c.reader = .closing ∧ c.once = .running .reader .closeDownstream
  | .writer _ _ => c.writer = .markEOS .closeDownstream
  | .caller i _ => c.once = .running (.caller i) .closeDownstream
  | _ => false

/-- Some `Recv` can still read the ring: the connection is not closed, or a call has
already found it open. -/
def RecvOpen (c : Conn) : Prop := c.closed = false ∨ ∃ i max, c.callers i = .recvRead max

/-- While `Recv` can still read the ring, it is closed only when `readLoop` holds no
bytes and has not overflowed it, and the target delivers nothing once it is closed. -/
def ClosesDrained (c : Conn) (label : ConnStep) : Prop :=
  c.RecvOpen → (c.closesRing label → c.reader.held = [] ∧ c.reader ≠ .closing) ∧
    (c.downstream.closed → c.readBy label = [])

end Conn

/-- A connection with what the target has delivered and what `Recv` has returned. -/
structure Download where
  conn : Conn
  delivered : Bytes
  received : Bytes
  endedEarly : Bool

namespace Download

def new (recvWindow sendWindow : ℤ) : Download := ⟨.new recvWindow sendWindow, [], [], false⟩

/-- A `Recv` that reports the end is early if delivered bytes were not returned. -/
def record (d : Download) : Option (Bytes × Bool) → Download
  | none => d
  | some (data, eos) =>
    { d with
      received := d.received ++ data
      endedEarly := d.endedEarly || (eos && d.received ++ data ≠ d.delivered) }

def step (d : Download) (label : ConnStep) : Option Download :=
  (d.conn.step label).map fun conn =>
    { d with conn, delivered := d.delivered ++ d.conn.readBy label }.record (d.conn.recvBy label)

/-- What `Recv` returned is a prefix of what the target delivered, and all of it when
the end was reported. -/
def Faithful (d : Download) : Prop := d.received <+: d.delivered ∧ d.endedEarly = false

end Download

namespace Conn

variable {c c' : Conn} {g : Goroutine} {r : Conn × Bool} {i : ℕ} {ok : Bool} {data : Bytes}
  {err : Option TargetError} {n : ℕ} {label : ConnStep}

/-- A step reads from the target, writes the ring, reads it, closes it, or does none
of this. -/
inductive RingMoves (c : Conn) (label : ConnStep) (c' : Conn) : Prop
  | deliver (hpc : c.reader.held = [] ∧ c.reader ≠ .closing)
      (hring : c'.downstream = c.downstream) (hrecv : c.recvBy label = none)
      (hreader : c'.reader.held = c.readBy label)
  | write (hpc : c.reader ≠ .closing) (hread : c.readBy label = [])
      (hrecv : c.recvBy label = none)
      (hring : c'.downstream = (c.downstream.write c.reader.held).1)
      (hreader : c'.reader.held = [])
      (hoverflow : c'.reader ≠ .closing → (c.downstream.write c.reader.held).2.2 = false)
  | recv (i : ℕ) (max : ℤ) (hpc : c.callers i = .recvRead max) (hread : c.readBy label = [])
      (hrecv : c.recvBy label = some (c.downstream.read max).2)
      (hring : c'.downstream = (c.downstream.read max).1) (hreader : c'.reader = c.reader)
  | close (hlabel : c.closesRing label) (hread : c.readBy label = [])
      (hrecv : c.recvBy label = none) (hring : c'.downstream = c.downstream.close)
  | other (hread : c.readBy label = []) (hrecv : c.recvBy label = none)
      (hring : c'.downstream = c.downstream) (hheld : c'.reader.held = c.reader.held)
      (hclosing : c.reader = .closing → c'.reader = .closing)

theorem closeStep_ring (h : c.closeStep g = some r) :
    r.1.downstream = c.downstream ∨
      c.once = .running g .closeDownstream ∧ r.1.downstream = c.downstream.close := by
  rcases closeStep_cases h with ⟨-, rfl⟩ | ⟨stage, c', next, hrun, hbody, rfl⟩ | ⟨-, rfl⟩
  · exact .inl rfl
  · exact (bodyStep_moves hbody).ring.imp_right fun ⟨hstage, hring⟩ => ⟨hstage ▸ hrun, hring⟩
  · exact .inl rfl

theorem markEOSStep_ring (c : Conn) (stage : EOSStage) :
    (c.markEOSStep stage).1.downstream = c.downstream ∨
      stage = .closeDownstream ∧ (c.markEOSStep stage).1.downstream = c.downstream.close := by
  cases stage
  case closeDownstream => exact .inr ⟨rfl, rfl⟩
  all_goals exact .inl rfl

theorem afterRead_held (err : Option TargetError) : (afterRead err).held = [] := by
  rcases err with _ | _ | _ | _ <;> rfl

theorem markEOS_held (next : Option EOSStage) :
    ((next.map ReaderPc.markEOS).getD .exiting).held = [] := by
  cases next <;> rfl

theorem readerStep_ringMoves (hc : c.Consistent) (h : c.readerStep data err = some c') :
    c.RingMoves (.reader data err) c' := by
  cases hr : c.reader <;> simp only [readerStep, hr, some.injEq, reduceCtorEq,
    ite_none_right_eq_some] at h
  case check =>
    subst h
    refine .other (by simp [readBy, hr]) rfl rfl ?_ (by simp [hr])
    simp only [hr]
    split_ifs <;> rfl
  case read =>
    obtain ⟨-, rfl⟩ := h
    refine .deliver (by simp [hr, ReaderPc.held]) rfl rfl ?_
    simp only [readBy, hr, if_true]
    split_ifs with hempty
    · rw [afterRead_held, hempty]
    · rfl
  case write p e =>
    subst h
    have hheld : c.reader.held = p := by rw [hr]; rfl
    refine .write (by simp [hr]) (by simp [readBy, hr]) rfl (by rw [hheld]) ?_ ?_
    · simp only
      split_ifs
      · rfl
      · exact afterRead_held e
    · rw [hheld]
      simp only
      split_ifs with hflag <;> simp_all
  case closing =>
    obtain ⟨r, hclose, rfl⟩ := map_eq_some_iff.mp h
    obtain ⟨hstays, hpc⟩ := closeStep_reader hc hr hclose
    rw [if_neg (by simp [hstays])]
    rcases closeStep_ring hclose with hsame | ⟨hrun, hclosed⟩
    · exact .other (by simp [readBy, hr]) rfl hsame (by rw [hpc, hr]) fun _ => hpc
    · exact .close (by simp [closesRing, hr, hrun]) (by simp [readBy, hr]) rfl hclosed
  case markEOS stage =>
    subst h
    rcases c.markEOSStep_ring stage with hsame | ⟨rfl, hclosed⟩
    · have hheld := markEOS_held (c.markEOSStep stage).2
      exact .other (by simp [readBy, hr]) rfl hsame (by rw [hr]; exact hheld) (by simp [hr])
    · exact .close (by simp [closesRing, hr]) (by simp [readBy, hr]) rfl hclosed
  case exiting =>
    subst h
    exact .other (by simp [readBy, hr]) rfl rfl (by rw [hr]; rfl) (by simp [hr])

theorem writerStep_ring (h : c.writerStep ok n = some c') :
    c'.downstream = c.downstream ∨
      c.writer = .markEOS .closeDownstream ∧ c'.downstream = c.downstream.close := by
  cases hw : c.writer <;> simp only [writerStep, hw, some.injEq, reduceCtorEq,
    ite_none_left_eq_some] at h
  case select =>
    split at h
    · split at h
      · obtain ⟨-, h⟩ := ite_none_right_eq_some.mp h
        exact .inl (some.inj h ▸ rfl)
      · exact .inl (some.inj h ▸ rfl)
    · obtain ⟨-, h⟩ := ite_none_right_eq_some.mp h
      exact .inl (some.inj h ▸ rfl)
  case deadline | write => obtain ⟨-, rfl⟩ := h; exact .inl rfl
  case markEOS stage =>
    subst h
    rcases c.markEOSStep_ring stage with hsame | ⟨rfl, hclosed⟩
    · exact .inl hsame
    · exact .inr ⟨rfl, hclosed⟩
  all_goals subst h; exact .inl rfl

theorem callerStep_ringMoves (h : c.callerStep i ok = some c') :
    c.RingMoves (.caller i ok) c' := by
  have hreader := callerStep_reader h
  have hother : c.recvBy (.caller i ok) = none → c'.downstream = c.downstream →
      c.RingMoves (.caller i ok) c' := fun hrecv hring =>
    .other rfl hrecv hring (by rw [hreader]) fun hclosing => hreader.trans hclosing
  cases hcall : c.callers i <;>
    simp only [callerStep, hcall, some.injEq, reduceCtorEq] at h
  case loopSend =>
    subst h
    apply hother (by simp [recvBy, hcall])
    unfold sendLoopStep
    split_ifs <;> rfl
  case recvRead max =>
    subst h
    exact .recv i max hcall rfl (by simp [recvBy, hcall]) rfl rfl
  case closing found =>
    obtain ⟨r, hclose, rfl⟩ := map_eq_some_iff.mp h
    have hring (flag : Bool) :
        (if flag then r.1.setCaller i (.finished found) else r.1).downstream = r.1.downstream := by
      cases flag <;> rfl
    rcases closeStep_ring hclose with hsame | ⟨hrun, hclosed⟩
    · exact hother (by simp [recvBy, hcall]) ((hring r.2).trans hsame)
    · exact .close (by simp [closesRing, hrun]) rfl (by simp [recvBy, hcall])
        ((hring r.2).trans hclosed)
  all_goals
    subst h
    exact hother (by simp [recvBy, hcall]) rfl

theorem step_ringMoves (hc : c.Consistent) (h : c.step label = some c') : c.RingMoves label c' := by
  cases label with
  | start =>
    obtain ⟨hidle, rfl⟩ := of_guard h
    exact .other rfl rfl rfl (by rw [hidle]; rfl) (by simp [hidle])
  | reader data err => exact readerStep_ringMoves hc h
  | writer ok n =>
    have hreader := (writerStep_moves h).reader
    rcases writerStep_ring h with hsame | ⟨hpc, hclosed⟩
    · exact .other rfl rfl hsame (by rw [hreader]) fun hclosing => hreader.trans hclosing
    · exact .close (by simp [closesRing, hpc]) rfl rfl hclosed
  | call i request =>
    obtain ⟨-, rfl⟩ := of_guard h
    exact .other rfl rfl rfl rfl id
  | caller i ok => exact callerStep_ringMoves h
  | collect i =>
    obtain ⟨-, rfl⟩ := collect_cases h
    exact .other rfl rfl rfl rfl id

end Conn
end VlfProto.Relay
