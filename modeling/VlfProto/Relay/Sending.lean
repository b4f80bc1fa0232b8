import VlfProto.Config
import VlfProto.Limits.Rates
import VlfProto.Relay.Lane

/-!
# What a send accepts and what it is charged

`Send` charges the whole payload before `Enqueue` decides how much of it to take.
-/
namespace VlfProto.Relay
open Platform Transition List

namespace Conn

variable {c : Conn} {i : ℕ} {data : Bytes} {window : ℤ}

/-- The first chunk of the payload fits into an empty window. -/
def FirstFits (data : Bytes) (window : ℤ) : Prop := (min data.length chunkSize : ℕ) ≤ window

/-- A call of `Enqueue` for `data` that found nothing queued has come this far. -/
def Enqueues (data : Bytes) (empty fits : Prop) : CallPc → Prop
  | .enqueueClosed d | .enqueueEOS d => d = data ∧ empty
  | .loopClosed d offset | .loopEOS d offset | .loopWindow d offset =>
    d = data ∧ offset < data.length ∧ (offset = 0 ∧ empty ∨ 0 < offset ∧ fits)
  | .loopSend d offset => d = data ∧ offset < data.length ∧ (offset = 0 → empty) ∧ fits
  | .loopAdd d offset => d = data ∧ offset < data.length ∧ fits
  | .enqueueQueued accepted => 0 < accepted ↔ fits
  | .finished result => ∃ accepted queued, result = .sent accepted queued ∧ (0 < accepted ↔ fits)
  | _ => False

def enqueueRank (data : Bytes) : CallPc → ℕ
  | .enqueueClosed _ => 6 * data.length + 9
  | .enqueueEOS _ => 6 * data.length + 8
  | .loopClosed _ offset => 6 * (data.length - offset) + 7
  | .loopEOS _ offset => 6 * (data.length - offset) + 6
  | .loopWindow _ offset => 6 * (data.length - offset) + 5
  | .loopSend _ offset => 6 * (data.length - offset) + 4
  | .loopAdd _ offset => 6 * (data.length - offset) + 3
  | .enqueueQueued _ => 1
  | _ => 0

structure Open (c : Conn) (window : ℤ) : Prop where
  closed : c.closed = false
  eos : c.eos = false
  queueClosed : c.queueClosed = false
  sendWindow : c.sendWindow = window

def Empty (c : Conn) : Prop := c.upstreamQueue = [] ∧ c.upstreamBytes = 0

theorem part_length_pos {offset : ℕ} (h : offset < data.length) :
    0 < (part data offset).length := by
  simp only [part, length_take, length_drop, chunkSize]
  omega

theorem firstFits_iff : FirstFits data window ↔ ((part data 0).length : ℤ) ≤ window := by
  simp [FirstFits, part, min_comm]

/-- Each step of the call brings it closer to its return. -/
theorem enqueue_step (hdata : data ≠ []) (hopen : c.Open window)
    (h : Enqueues data c.Empty (FirstFits data window) (c.callers i)) :
    (∃ accepted queued, c.callers i = .finished (.sent accepted queued) ∧
      (0 < accepted ↔ FirstFits data window)) ∨
    ∃ c', c.callerStep i true = some c' ∧
      (c'.Open window ∧ Enqueues data c'.Empty (FirstFits data window) (c'.callers i)) ∧
      enqueueRank data (c'.callers i) < enqueueRank data (c.callers i) := by
  obtain ⟨hclosed, heos, hqueue, rfl⟩ := hopen
  have hpos : 0 < data.length := length_pos_iff.mpr hdata
  have hgo (pc : CallPc) (hnext : Enqueues data c.Empty (FirstFits data c.sendWindow) pc)
      (hrank : enqueueRank data pc < enqueueRank data (c.callers i))
      (hstep : c.callerStep i true = some (c.setCaller i pc)) :
      ∃ c', c.callerStep i true = some c' ∧ (c'.Open c.sendWindow ∧
        Enqueues data c'.Empty (FirstFits data c.sendWindow) (c'.callers i)) ∧
        enqueueRank data (c'.callers i) < enqueueRank data (c.callers i) := by
    have hpc : (c.setCaller i pc).callers i = pc := Function.update_self ..
    exact ⟨_, hstep, ⟨⟨hclosed, heos, hqueue, rfl⟩, hpc.symm ▸ hnext⟩, hpc.symm ▸ hrank⟩
  cases hpc : c.callers i <;> rw [hpc] at h hgo <;> simp only [Enqueues] at h
  case finished result =>
    obtain ⟨accepted, queued, rfl, hiff⟩ := h
    exact .inl ⟨accepted, queued, rfl, hiff⟩
  all_goals right
  case enqueueClosed d =>
    exact hgo (.enqueueEOS d) h (by simp [enqueueRank]) (by simp [callerStep, hpc, hclosed])
  case enqueueEOS d =>
    obtain ⟨rfl, hempty⟩ := h
    exact hgo (.loopClosed d 0) ⟨rfl, hpos, .inl ⟨rfl, hempty⟩⟩ (by simp [enqueueRank])
      (by simp [callerStep, hpc, heos, loopHead, hpos])
  case loopClosed d offset =>
    exact hgo (.loopEOS d offset) h (by simp [enqueueRank]) (by simp [callerStep, hpc, hclosed])
  case loopEOS d offset =>
    exact hgo (.loopWindow d offset) h (by simp [enqueueRank]) (by simp [callerStep, hpc, heos])
  case loopWindow d offset =>
    obtain ⟨rfl, hlt, hoffset⟩ := h
    by_cases hfull : c.sendWindow < c.upstreamBytes + (part d offset).length
    · refine hgo (.enqueueQueued offset) ?_ (by simp [enqueueRank])
        (by simp [callerStep, hpc, hfull])
      rcases hoffset with ⟨rfl, hempty⟩ | ⟨hstarted, hfits⟩
      · refine iff_of_false (lt_irrefl 0) fun hfits => ?_
        rw [firstFits_iff] at hfits
        have hzero := hempty.2
        omega
      · exact iff_of_true hstarted hfits
    · refine hgo (.loopSend d offset) ⟨rfl, hlt, fun hzero => ?_, ?_⟩ (by simp [enqueueRank])
        (by simp [callerStep, hpc, hfull])
      · exact hoffset.elim And.right fun hstarted => absurd hstarted.1 (by omega)
      · rcases hoffset with ⟨rfl, hempty⟩ | ⟨-, hfits⟩
        · rw [firstFits_iff]
          have hzero := hempty.2
          omega
        · exact hfits
  case loopSend d offset =>
    obtain ⟨rfl, hlt, hempty, hfits⟩ := h
    have hstep : c.callerStep i true = some (c.sendLoopStep i d offset) := by simp [callerStep, hpc]
    rw [sendLoopStep, if_neg (by simp [hqueue])] at hstep
    split_ifs at hstep with hroom
    · refine ⟨_, hstep, ⟨⟨hclosed, heos, hqueue, rfl⟩, ?_⟩, ?_⟩
      · simpa [setCaller] using ⟨rfl, hlt, hfits⟩
      · simp [setCaller, enqueueRank]
    · refine hgo (.enqueueQueued offset) (iff_of_true ?_ hfits) (by simp [enqueueRank]) hstep
      by_contra hzero
      have hnone := (hempty (by omega)).1
      simp [hnone, queueCap] at hroom
  case loopAdd d offset =>
    obtain ⟨rfl, hlt, hfits⟩ := h
    have hpart := part_length_pos hlt
    have hstep : c.callerStep i true = some ({ c with
        upstreamBytes := c.upstreamBytes + (part d offset).length }.setCaller i
        (loopHead d (offset + (part d offset).length))) := by
      simp only [callerStep, hpc]
    refine ⟨_, hstep, ⟨⟨hclosed, heos, hqueue, rfl⟩, ?_⟩, ?_⟩
    all_goals
      simp only [setCaller, Function.update_self, loopHead]
      split_ifs with hmore
    · exact ⟨rfl, hmore, .inr ⟨by omega, hfits⟩⟩
    · exact iff_of_true (by omega) hfits
    · simp only [enqueueRank]
      omega
    · simp [enqueueRank]
  case enqueueQueued accepted =>
    exact hgo (.finished (.sent accepted c.upstreamBytes)) ⟨_, _, rfl, h⟩ (by simp [enqueueRank])
      (by simp [callerStep, hpc])

/-- `Enqueue` on an open connection with nothing queued returns, and has then accepted something
exactly if the first chunk of the payload fits into the window. -/
theorem enqueue_accepts_iff (c : Conn) (i : ℕ) (data : Bytes) (window : ℤ) (hdata : data ≠ [])
    (hopen : c.Open window) (hempty : c.Empty) (hpc : c.callers i = .enqueueClosed data) :
    ∃ labels c' accepted queued, Path step (fun _ label => label = .caller i true) c labels c' ∧
      c'.callers i = .finished (.sent accepted queued) ∧
      (0 < accepted ↔ (min data.length chunkSize : ℕ) ≤ window) := by
  have hstart : Enqueues data c.Empty (FirstFits data window) (c.callers i) := by
    rw [hpc]
    exact ⟨rfl, hempty⟩
  obtain ⟨labels, c', hpath, accepted, queued, hdone, hiff⟩ : ∃ labels c',
      Path step (fun _ label => label = .caller i true) c labels c' ∧ ∃ accepted queued,
        c'.callers i = .finished (.sent accepted queued) ∧ (0 < accepted ↔ FirstFits data window) :=
    Path.exists_finish (fun c => enqueueRank data (c.callers i))
      (fun c (hc : c.Open window ∧ Enqueues data c.Empty (FirstFits data window) (c.callers i)) =>
        (enqueue_step hdata hc.1 hc.2).imp_right fun ⟨c', hstep, hnext⟩ =>
          ⟨.caller i true, c', rfl, hstep, hnext⟩) ⟨hopen, hstart⟩
  exact ⟨labels, c', accepted, queued, hpath, hdone, hiff⟩

/-- A window of one byte is legal and takes nothing of two bytes. -/
theorem twoBytes_refused :
    (∃ cfg : Config, cfg.validate = .ok () ∧ cfg.limits.relaySendWindowBytes = 1) ∧
    ∃ c, Path step anyLabel (new 1 1) (.start :: .call 0 (.send [1, 2]) ::
        List.replicate 8 (.caller 0 true)) c ∧
      c.callers 0 = .finished (.sent 0 0) ∧ c.closed = false ∧ c.eos = false :=
  ⟨⟨{ Config.default with limits.relaySendWindowBytes := 1 }, by decide +kernel, rfl⟩,
    Path.exists_of_run (by decide +kernel)⟩

theorem twoBytes_accepted : ∃ labels c accepted queued,
    Path step (fun _ label => label = .caller 0 true)
      ((new 1 2).setCaller 0 (.enqueueClosed [1, 2])) labels c ∧
    c.callers 0 = .finished (.sent accepted queued) ∧ 0 < accepted := by
  obtain ⟨labels, c, accepted, queued, hpath, hdone, hiff⟩ := enqueue_accepts_iff
    ((new 1 2).setCaller 0 (.enqueueClosed [1, 2])) 0 [1, 2] 2 (by decide) ⟨rfl, rfl, rfl, rfl⟩
    ⟨rfl, rfl⟩ rfl
  exact ⟨labels, c, accepted, queued, hpath, hdone, hiff.mpr (by decide)⟩

end Conn
end VlfProto.Relay
