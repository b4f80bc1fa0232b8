import VlfProto.Relay.ConnInvariant

/-!
# The send window

`Enqueue` compares the counter of queued bytes with the send window, sends the chunk, and only
then adds it to the counter.
-/
namespace VlfProto.Relay
open Platform Transition Option

/-- The bytes a call has been admitted with and not yet sent. -/
def CallPc.unsent : CallPc → ℕ
  | .loopSend data offset => (Conn.part data offset).length
  | _ => 0

/-- The bytes a call has sent and not yet added to the counter. -/
def CallPc.uncounted : CallPc → ℕ
  | .loopAdd data offset => (Conn.part data offset).length
  | _ => 0

/-- The bytes `writeLoop` has taken off the queue and not yet subtracted. -/
def WriterPc.unsubtracted : WriterPc → ℕ
  | .subtract chunk => chunk.length
  | _ => 0

namespace Conn

variable {c c' : Conn} {g : Goroutine} {r : Conn × Bool} {i : ℕ} {ok : Bool} {label : ConnStep}

def queued (c : Conn) : ℕ := (c.upstreamQueue.map List.length).sum

def WindowBounded (c : Conn) : Prop := (c.queued : ℤ) ≤ c.sendWindow

/-- A call whose check of the window passes also fits together with the chunks of
the other calls that are between their own check and their addition to the counter. -/
def AdmitsWithin (c : Conn) : ConnStep → Prop
  | .caller i _ => ∀ data offset, c.callers i = .loopWindow data offset →
    c.upstreamBytes + (part data offset).length ≤ c.sendWindow → ∀ others : Finset ℕ, i ∉ others →
      c.upstreamBytes + (∑ j ∈ others, ((c.callers j).unsent + (c.callers j).uncounted) : ℕ) +
        (part data offset).length ≤ c.sendWindow
  | _ => True

theorem readerStep_sameWindow {data : Bytes} {err : Option TargetError}
    (h : c.readerStep data err = some c') : c.SameWindow c' := by
  rcases readerStep_cases h with ⟨-, hm⟩ | ⟨r, -, hclose, rfl⟩
  · exact hm.toSameWindow
  · have hframe := closeStep_frame hclose
    split_ifs
    · exact { hframe.toSameWindow with }
    · exact hframe.toSameWindow

/-- `writeLoop` takes a chunk off the queue and subtracts it in two steps. -/
structure Drains (c c' : Conn) : Prop where
  queued : c'.queued ≤ c.queued
  balance : (c'.queued : ℤ) + c'.writer.unsubtracted - c'.upstreamBytes =
    c.queued + c.writer.unsubtracted - c.upstreamBytes
  sendWindow : c'.sendWindow = c.sendWindow
  callers : c'.callers = c.callers

theorem drains_of_pc {pc : WriterPc} {written : Bytes}
    (hpc : pc.unsubtracted = c.writer.unsubtracted) :
    c.Drains { c with written := written, writer := pc } :=
  ⟨le_rfl, by simp [Conn.queued, hpc], rfl, rfl⟩

theorem writerStep_drains {n : ℕ} (h : c.writerStep ok n = some c') : c.Drains c' := by
  cases hw : c.writer <;> simp only [writerStep, hw, some.injEq, reduceCtorEq,
    ite_none_left_eq_some] at h
  case select =>
    have hnone : c.writer.unsubtracted = 0 := by rw [hw]; rfl
    split at h
    · split at h
      · obtain ⟨-, rfl⟩ := of_guard h
        exact drains_of_pc hnone.symm
      · rename_i chunk rest hqueue
        cases h
        constructor
        · simp [Conn.queued, hqueue]
        · simp [Conn.queued, hqueue, WriterPc.unsubtracted, hw]
          ring
        · rfl
        · rfl
    · obtain ⟨-, rfl⟩ := of_guard h
      exact drains_of_pc hnone.symm
  case subtract chunk =>
    have hchunk : c.writer.unsubtracted = chunk.length := by rw [hw]; rfl
    have hnone : (if chunk = [] then WriterPc.select else .checkClosed chunk).unsubtracted = 0 := by
      split_ifs <;> rfl
    subst h
    refine ⟨le_rfl, ?_, rfl, rfl⟩
    rw [hnone, hchunk]
    change (c.queued : ℤ) + (0 : ℕ) - (c.upstreamBytes - chunk.length) = _
    push_cast
    ring
  case markEOS stage =>
    have hnone : c.writer.unsubtracted = 0 := by rw [hw]; rfl
    have hnext :
        (((c.markEOSStep stage).2.map WriterPc.markEOS).getD .exiting).unsubtracted = 0 := by
      cases (c.markEOSStep stage).2 <;> rfl
    obtain ⟨hqueue, hbytes, hwindow, -, hcallers⟩ := (c.markEOSStep_frame stage).toSameWindow
    subst h
    refine ⟨?_, ?_, hwindow, hcallers⟩
    · simp [Conn.queued, hqueue]
    · rw [hnext, hnone]
      simp [Conn.queued, hqueue, hbytes]
  case deadline | write =>
    obtain ⟨-, rfl⟩ := h
    apply drains_of_pc
    rw [hw]
    split_ifs <;> rfl
  case exiting =>
    subst h
    exact ⟨le_rfl, by simp [Conn.queued, hw, WriterPc.unsubtracted], rfl, rfl⟩
  all_goals
    subst h
    apply drains_of_pc
    rw [hw]
    split_ifs <;> rfl

/-- What a step of a call outside `Close` does to the upload: it is admitted, sends
its chunk, counts it, or does none of this. -/
inductive Feeds (c c' : Conn) (i : ℕ) : Prop
  | grant (data : Bytes) (offset : ℕ) (hpc : c.callers i = .loopWindow data offset)
      (hfits : c.upstreamBytes + (part data offset).length ≤ c.sendWindow)
      (hqueued : c'.queued = c.queued) (hbytes : c'.upstreamBytes = c.upstreamBytes)
      (hnext : c'.callers i = .loopSend data offset)
  | send (hqueued : c'.queued = c.queued + (c.callers i).unsent)
      (hbytes : c'.upstreamBytes = c.upstreamBytes)
      (hnext : (c'.callers i).unsent = 0 ∧ (c'.callers i).uncounted = (c.callers i).unsent)
      (hpc : (c.callers i).uncounted = 0)
  | count (hqueued : c'.queued = c.queued)
      (hbytes : c'.upstreamBytes = c.upstreamBytes + (c.callers i).uncounted)
      (hnext : (c'.callers i).unsent = 0)
  | pass (hqueued : c'.queued = c.queued) (hbytes : c'.upstreamBytes = c.upstreamBytes)
      (hnext : (c'.callers i).unsent = 0) (hpc : (c.callers i).uncounted = 0)

theorem loopHead_unsent (data : Bytes) (offset : ℕ) : (loopHead data offset).unsent = 0 := by
  unfold loopHead
  split_ifs <;> rfl

theorem callerStep_feeds (hpc : ∀ found, c.callers i ≠ .closing found)
    (h : c.callerStep i ok = some c') : c.Feeds c' i := by
  cases hcall : c.callers i <;>
    simp only [callerStep, hcall, some.injEq, reduceCtorEq] at h
  case closing found => exact absurd hcall (hpc found)
  case loopWindow data offset =>
    subst h
    by_cases hfull : c.sendWindow < c.upstreamBytes + (part data offset).length
    · rw [if_pos hfull]
      exact .pass rfl rfl (by simp [setCaller, CallPc.unsent]) (by rw [hcall]; rfl)
    · rw [if_neg hfull]
      exact .grant data offset hcall (by omega) rfl rfl (by simp [setCaller])
  case loopSend data offset =>
    have hnone : (c.callers i).uncounted = 0 := by rw [hcall]; rfl
    subst h
    unfold sendLoopStep
    split_ifs
    · exact .pass rfl rfl (by simp [setCaller, CallPc.unsent]) hnone
    · refine .send ?_ rfl ?_ hnone
      · simp [Conn.queued, setCaller, hcall, CallPc.unsent]
      · simp [setCaller, hcall, CallPc.unsent, CallPc.uncounted]
    · exact .pass rfl rfl (by simp [setCaller, CallPc.unsent]) hnone
  case loopAdd data offset =>
    subst h
    refine .count rfl ?_ ?_
    · simp [setCaller, hcall, CallPc.uncounted]
    · simp [setCaller, loopHead_unsent]
  case enqueueEOS data =>
    subst h
    refine .pass rfl rfl ?_ (by rw [hcall]; rfl)
    simp only [setCaller, Function.update_self]
    split_ifs
    · rfl
    · exact loopHead_unsent data 0
  case enqueueQueued =>
    subst h
    exact .pass rfl rfl (by simp [setCaller, CallPc.unsent]) (by rw [hcall]; rfl)
  all_goals
    subst h
    refine .pass rfl rfl ?_ (by rw [hcall]; rfl)
    simp only [setCaller, Function.update_self]
    split_ifs <;> rfl

end Conn
end VlfProto.Relay
