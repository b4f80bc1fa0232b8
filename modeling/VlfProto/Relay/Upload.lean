import VlfProto.Relay.Frame

/-!
# Upload through the relay

A client posts its bytes to the gateway, one request after the other. `Enqueue` takes the
bytes in chunks and may stop after any of them. `Write` looks at the number of bytes accepted
only to see whether it is zero, and otherwise reports the whole argument as written.
-/
namespace VlfProto.Relay
open Platform Transition Option List

inductive WriteError where
  | noResponse
  | status (code : ℕ)
  | acceptedZero

/-- The status of the answer, if the handler gives one. -/
def CallResult.status : CallResult → Option ℕ
  | .sent _ _ => some 200
  | .received data eos => some (if data = [] ∧ ¬eos then 204 else 200)
  | .closed _ => some 200
  | .unknownConn => some 404
  | .connClosed => some 502
  | .limited => some 429
  | .crashed => none

/-- The field `accepted` of the answer, zero when it is absent. -/
def CallResult.accepted : CallResult → ℕ
  | .sent accepted _ => accepted
  | _ => 0

/-- What `Write` returns once the answer is there. -/
def writeResult (p : Bytes) (answer : CallResult) : ℕ × Option WriteError :=
  match answer.status with
  | none => (0, some .noResponse)
  | some code =>
    if code < 200 ∨ 300 ≤ code then (0, some (.status code))
    else if answer.accepted ≤ 0 then (0, some .acceptedZero)
    else (p.length, none)

namespace Conn

/-- Where `Enqueue` has accepted part of a payload, its next check passes: the
connection is open, or the window or the queue has room for the next part. -/
def Room (c : Conn) : CallPc → Prop
  | .loopClosed _ offset => 0 < offset → c.closed = false
  | .loopEOS _ offset => 0 < offset → c.eos = false
  | .loopWindow data offset => 0 < offset →
    c.upstreamBytes + (part data offset).length ≤ c.sendWindow
  | .loopSend _ offset => 0 < offset →
    c.queueClosed = false ∧ c.upstreamQueue.length < queueCap
  | _ => True

instance (c : Conn) (pc : CallPc) : Decidable (c.Room pc) := by
  unfold Room
  split <;> infer_instance

end Conn

/-- A connection with the client that writes to it. Its requests are call 0 of the
manager; `reported` is what `Write` has reported as written. -/
structure Upload where
  conn : Conn
  writing : Option Bytes
  reported : Bytes

inductive UploadStep where
  | write (p : Bytes) (authorized : Bool)
  | gateway (label : ConnStep)
  | answer

namespace Upload

def new (recvWindow sendWindow : ℤ) : Upload where
  conn := .new recvWindow sendWindow
  writing := none
  reported := []

/-- Every step of the gateway that is not a send of this client: the loops, and
calls that receive or close. -/
def gatewayLabel : ConnStep → Bool
  | .call 0 _ => false
  | .call _ (.send _) => false
  | .collect 0 => false
  | _ => true

/-- The client can write once `Open` has started the loops and returned. -/
def step (u : Upload) : UploadStep → Option Upload
  | .write p authorized =>
    if u.writing = none ∧ u.conn.reader ≠ .notStarted then
      if p = [] ∨ ¬authorized then some u
      else (u.conn.step (.call 0 (.send p))).map fun conn => { u with conn, writing := some p }
    else none
  | .gateway label =>
    if gatewayLabel label then (u.conn.step label).map fun conn => { u with conn } else none
  | .answer =>
    match u.writing, u.conn.callers 0 with
    | some p, .finished result => (u.conn.step (.collect 0)).map fun conn =>
      { conn, writing := none, reported := u.reported ++ p.take (writeResult p result).1 }
    | _, _ => none

/-- Between two writes, the reported bytes are the bytes that were put on the
queue. -/
def Acknowledged (u : Upload) : Prop := u.writing = none → u.reported = u.conn.enqueued

/-- `Enqueue` never stops inside a payload of which it has accepted a part. -/
def RoomForRest (u : Upload) : UploadStep → Prop
  | .gateway (.caller 0 _) => u.conn.Room (u.conn.callers 0)
  | _ => True

instance (u : Upload) (label : UploadStep) : Decidable (u.RoomForRest label) := by
  unfold RoomForRest
  split <;> infer_instance

end Upload

def CallPc.sending : CallPc → Bool
  | .sendLookup _ | .sendLimit _ | .enqueueClosed _ | .enqueueEOS _ | .loopClosed _ _
  | .loopEOS _ _ | .loopWindow _ _ | .loopSend _ _ | .loopAdd _ _ | .enqueueQueued _ => true
  | _ => false

namespace Conn

variable {c c' : Conn} {i : ℕ} {ok : Bool} {p taken : Bytes}

/-- `taken` is what has been put on the queue of the payload `p` of a call that has
come this far. -/
def Takes (p taken : Bytes) : CallPc → Prop
  | .sendLookup data => data = p ∧ taken = []
  | .sendLimit data => data = p ∧ taken = []
  | .enqueueClosed data => data = p ∧ taken = []
  | .enqueueEOS data => data = p ∧ taken = []
  | .loopClosed data offset => data = p ∧ offset < p.length ∧ taken = p.take offset
  | .loopEOS data offset => data = p ∧ offset < p.length ∧ taken = p.take offset
  | .loopWindow data offset => data = p ∧ offset < p.length ∧ taken = p.take offset
  | .loopSend data offset => data = p ∧ offset < p.length ∧ taken = p.take offset
  | .loopAdd data offset => data = p ∧ offset + (part p offset).length ≤ p.length ∧
      taken = p.take (offset + (part p offset).length)
  | .enqueueQueued accepted => (accepted = 0 ∨ accepted = p.length) ∧ taken = p.take accepted
  | .finished result => taken = p.take (writeResult p result).1
  | _ => False

theorem take_append_part (p : Bytes) (offset : ℕ) :
    p.take offset ++ part p offset = p.take (offset + (part p offset).length) := by
  rw [take_add]
  congr 1
  simp [part, take_eq_take_iff]

theorem part_length_le (p : Bytes) (offset : ℕ) (h : offset < p.length) :
    offset + (part p offset).length ≤ p.length := by
  simp only [part, length_take, length_drop]
  omega

theorem takes_loopHead {offset : ℕ} (hle : offset ≤ p.length) :
    Takes p (p.take offset) (loopHead p offset) := by
  unfold loopHead
  split_ifs with hlt
  · exact ⟨rfl, hlt, rfl⟩
  · exact ⟨.inr (by omega), rfl⟩

theorem takes_sent {accepted : ℕ} {queued : ℤ} (h : accepted = 0 ∨ accepted = p.length) :
    Takes p (p.take accepted) (.finished (.sent accepted queued)) := by
  change p.take accepted = p.take (writeResult p (.sent accepted queued)).1
  rcases h with rfl | rfl
  · simp [writeResult, CallResult.status, CallResult.accepted]
  · cases p <;> simp [writeResult, CallResult.status, CallResult.accepted]

theorem callerStep_not_sending (hpc : (c.callers i).sending = false)
    (h : c.callerStep i ok = some c') :
    (c'.callers i).sending = false ∧ c'.enqueued = c.enqueued := by
  cases hcall : c.callers i <;> simp only [hcall, CallPc.sending, Bool.true_eq_false] at hpc <;>
    simp only [callerStep, hcall, some.injEq, reduceCtorEq] at h
  case closing found =>
    obtain ⟨r, hclose, rfl⟩ := map_eq_some_iff.mp h
    have hframe := closeStep_frame hclose
    split_ifs
    · simp [setCaller, CallPc.sending, hframe.enqueued]
    · simp [hframe.callers, hcall, CallPc.sending, hframe.enqueued]
  all_goals
    subst h
    simp only [setCaller, Function.update_self, and_true]
    split_ifs <;> rfl

theorem takes_setCaller {pc : CallPc} (ht : Takes p taken pc) :
    ∃ more, (c.setCaller i pc).enqueued = c.enqueued ++ more ∧
      Takes p (taken ++ more) ((c.setCaller i pc).callers i) :=
  ⟨[], by simp [setCaller], by simpa [setCaller] using ht⟩

theorem takes_stop {offset : ℕ} (h : ¬0 < offset) :
    Takes p (p.take offset) (.enqueueQueued offset) :=
  ⟨.inl (by omega), rfl⟩

/-- A step of a sending call that finds room puts on the queue what it goes on to
report. -/
theorem callerStep_takes (hroom : c.Room (c.callers i)) (ht : Takes p taken (c.callers i))
    (h : c.callerStep i ok = some c') :
    ∃ more, c'.enqueued = c.enqueued ++ more ∧ Takes p (taken ++ more) (c'.callers i) := by
  cases hcall : c.callers i <;> rw [hcall] at hroom ht <;>
    simp only [callerStep, hcall, some.injEq, reduceCtorEq] at h
  case recvLookup | recvClosed | recvRead | closeLookup | closing => exact ht.elim
  case sendLookup | enqueueClosed =>
    obtain ⟨rfl, rfl⟩ := ht
    subst h
    apply takes_setCaller
    split_ifs
    all_goals first | exact ⟨rfl, rfl⟩ | rfl
  case sendLimit =>
    obtain ⟨rfl, rfl⟩ := ht
    subst h
    apply takes_setCaller
    split_ifs
    · exact ⟨.inl rfl, rfl⟩
    · exact ⟨rfl, rfl⟩
    · rfl
  case enqueueEOS =>
    obtain ⟨rfl, rfl⟩ := ht
    subst h
    apply takes_setCaller
    split_ifs
    · rfl
    · exact takes_loopHead (Nat.zero_le _)
  case loopClosed | loopEOS =>
    obtain ⟨rfl, hlt, rfl⟩ := ht
    subst h
    apply takes_setCaller
    split_ifs with hflag
    · exact takes_stop fun hpos => by simp [hroom hpos] at hflag
    · exact ⟨rfl, hlt, rfl⟩
  case loopWindow data offset =>
    obtain ⟨rfl, hlt, rfl⟩ := ht
    subst h
    apply takes_setCaller
    split_ifs with hfull
    · exact takes_stop fun hpos => absurd (hroom hpos) (by omega)
    · exact ⟨rfl, hlt, rfl⟩
  case loopSend data offset =>
    obtain ⟨rfl, hlt, rfl⟩ := ht
    subst h
    unfold sendLoopStep
    split_ifs with hclosed hfree
    · have hzero : ¬0 < offset := fun hpos => by simp [(hroom hpos).1] at hclosed
      obtain rfl : offset = 0 := by omega
      exact takes_setCaller rfl
    · refine ⟨part data offset, rfl, ?_⟩
      rw [take_append_part]
      simpa [setCaller] using ⟨rfl, part_length_le data offset hlt, rfl⟩
    · exact takes_setCaller (takes_stop fun hpos => absurd (hroom hpos).2 hfree)
  case loopAdd data offset =>
    obtain ⟨rfl, hle, rfl⟩ := ht
    subst h
    exact takes_setCaller (takes_loopHead hle)
  case enqueueQueued accepted =>
    obtain ⟨haccepted, rfl⟩ := ht
    subst h
    exact takes_setCaller (takes_sent haccepted)

end Conn

end VlfProto.Relay
