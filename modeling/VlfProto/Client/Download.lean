import VlfProto.Client.FramedFlow
import VlfProto.Transition.Path

/-! # The download of a registered flow -/

namespace VlfProto.Client
open Platform Transition Option List

inductive FlowFrame where
  | data (payload : Bytes)
  | close
  deriving DecidableEq

def FlowFrame.payload : FlowFrame → Bytes
  | .data payload => payload
  | .close => []

def payloads (frames : List FlowFrame) : Bytes := frames.flatMap FlowFrame.payload

structure Download where
  flow : FramedFlow
  ctxDone : Bool
  frames : List FlowFrame
  entered : Bytes
  returned : Bytes
  endedEarly : Bool
  deriving DecidableEq

inductive DownloadStep where
  | handle
  | read (n : ℕ) (branch : Branch)
  | cancel
  | closeWithError (err : FlowError)

namespace Download

def initial (frames : List FlowFrame) : Download := ⟨.new, false, frames, [], [], false⟩

/-- A read that reports an end is early if bytes that entered were not returned. -/
def record (d : Download) : ReadResult → Download
  | .data bytes => { d with returned := d.returned ++ bytes }
  | .fail _ => { d with endedEarly := d.endedEarly || d.returned ≠ d.entered }

def step (d : Download) : DownloadStep → Option Download
  | .handle =>
    match d.frames with
    | [] => none
    | .data payload :: frames => (d.flow.pushData payload).map fun flow =>
      { d with
        flow, frames
        entered := if d.flow.dataCh.length < FramedFlow.dataCap then d.entered ++ payload
          else d.entered }
    | .close :: frames => some { d with flow := d.flow.pushErr .eof, frames }
  | .read n branch =>
    (d.flow.read d.ctxDone n branch).map fun r => { d with flow := r.1 }.record r.2
  | .cancel => some { d with ctxDone := true }
  | .closeWithError err =>
    if d.ctxDone then some { d with flow := d.flow.pushErr err } else none

variable {d d' : Download} {a : DownloadStep} {as : List DownloadStep} {frames : List FlowFrame}

theorem step_cases (hopen : d.flow.dataClosed = false) (hstep : d.step a = some d') :
    (∃ payload frames, a = .handle ∧ d.frames = .data payload :: frames ∧
      d.flow.dataCh.length < FramedFlow.dataCap ∧
      d' = { d with
        flow := { d.flow with dataCh := d.flow.dataCh ++ [payload] }, frames
        entered := d.entered ++ payload }) ∨
    (∃ payload frames, a = .handle ∧ d.frames = .data payload :: frames ∧
      ¬d.flow.dataCh.length < FramedFlow.dataCap ∧ d' = { d with frames }) ∨
    (∃ frames, a = .handle ∧ d.frames = .close :: frames ∧
      d' = { d with flow := d.flow.pushErr .eof, frames }) ∨
    (∃ n branch flow bytes, a = .read n branch ∧
      d.flow.read d.ctxDone n branch = some (flow, .data bytes) ∧
      d' = { d with flow, returned := d.returned ++ bytes }) ∨
    (∃ n branch flow err, a = .read n branch ∧
      d.flow.read d.ctxDone n branch = some (flow, .fail err) ∧
      d' = { d with flow, endedEarly := d.endedEarly || d.returned ≠ d.entered }) ∨
    (a = .cancel ∧ d' = { d with ctxDone := true }) ∨
    (∃ err, a = .closeWithError err ∧ d' = { d with flow := d.flow.pushErr err }) := by
  cases a with
  | handle =>
    unfold step at hstep
    dsimp only at hstep
    cases hframes : d.frames with
    | nil => simp [hframes] at hstep
    | cons frame frames =>
      rw [hframes] at hstep
      cases frame with
      | data payload =>
        simp only [FramedFlow.pushData, hopen] at hstep
        by_cases hroom : d.flow.dataCh.length < FramedFlow.dataCap
        · refine .inl ⟨payload, frames, rfl, rfl, hroom, ?_⟩
          simpa [hroom, hopen] using hstep.symm
        · refine .inr (.inl ⟨payload, frames, rfl, rfl, hroom, ?_⟩)
          simpa [hroom] using hstep.symm
      | close => exact .inr (.inr (.inl ⟨frames, rfl, rfl, (some.inj hstep).symm⟩))
  | read n branch =>
    obtain ⟨⟨flow, result⟩, hread, rfl⟩ := map_eq_some_iff.mp hstep
    cases result with
    | data bytes => exact .inr (.inr (.inr (.inl ⟨n, branch, flow, bytes, rfl, hread, rfl⟩)))
    | fail err => exact .inr (.inr (.inr (.inr (.inl ⟨n, branch, flow, err, rfl, hread, rfl⟩))))
  | cancel => exact .inr (.inr (.inr (.inr (.inr (.inl ⟨rfl, (some.inj hstep).symm⟩)))))
  | closeWithError err =>
    unfold step at hstep
    dsimp only at hstep
    split_ifs at hstep
    exact .inr (.inr (.inr (.inr (.inr (.inr ⟨err, rfl, (some.inj hstep).symm⟩)))))

/-- What is true in every run: the bytes that entered are those returned and
those still pending. -/
structure Consistent (d : Download) : Prop where
  entered_eq : d.entered = d.returned ++ d.flow.pending
  open_data : d.flow.dataClosed = false

theorem pending_pushErr (f : FramedFlow) (err : FlowError) :
    (f.pushErr err).pending = f.pending := by
  obtain ⟨hbuf, hdata, -⟩ := f.pushErr_data err
  rw [FramedFlow.pending, FramedFlow.pending, hbuf, hdata]

theorem step_consistent (h : d.Consistent) (hstep : d.step a = some d') : d'.Consistent := by
  obtain ⟨payload, frames, -, -, -, rfl⟩ | ⟨payload, frames, -, -, -, rfl⟩ | ⟨frames, -, -, rfl⟩ |
    ⟨n, branch, flow, bytes, -, hread, rfl⟩ | ⟨n, branch, flow, err, -, hread, rfl⟩ | ⟨-, rfl⟩ |
    ⟨err, -, rfl⟩ := step_cases h.open_data hstep
  · exact ⟨by simp [h.entered_eq, FramedFlow.pending], h.open_data⟩
  · exact ⟨h.entered_eq, h.open_data⟩
  · exact ⟨by simpa [pending_pushErr] using h.entered_eq,
      (d.flow.pushErr_data .eof).2.2.trans h.open_data⟩
  · obtain ⟨hpending, hclosed⟩ := FramedFlow.read_data hread
    exact ⟨by simp [h.entered_eq, hpending], hclosed.trans h.open_data⟩
  · obtain ⟨-, -, hpending, hclosed⟩ := FramedFlow.read_fail hread
    exact ⟨by simp [h.entered_eq, hpending], hclosed.trans h.open_data⟩
  · exact ⟨h.entered_eq, h.open_data⟩
  · exact ⟨by simpa [pending_pushErr] using h.entered_eq,
      (d.flow.pushErr_data err).2.2.trans h.open_data⟩

theorem initial_consistent (frames : List FlowFrame) : (initial frames).Consistent := ⟨rfl, rfl⟩

/-- A `Read` that could take an end finds no bytes in the data channel. -/
def EndsDrained (d : Download) : DownloadStep → Prop
  | .read _ _ => d.flow.buf = [] → d.flow.EndReady d.ctxDone → d.flow.dataCh.flatten = []
  | _ => True

instance (d : Download) (a : DownloadStep) : Decidable (d.EndsDrained a) := by
  cases a <;> unfold EndsDrained <;> infer_instance

theorem step_endedEarly (h : d.Consistent) (hdrained : d.EndsDrained a)
    (hstep : d.step a = some d') (hearly : d.endedEarly = false) : d'.endedEarly = false := by
  obtain ⟨payload, frames, -, -, -, rfl⟩ | ⟨payload, frames, -, -, -, rfl⟩ | ⟨frames, -, -, rfl⟩ |
    ⟨n, branch, flow, bytes, -, -, rfl⟩ | ⟨n, branch, flow, err, rfl, hread, rfl⟩ | ⟨-, rfl⟩ |
    ⟨err, -, rfl⟩ := step_cases h.open_data hstep
  case inr.inr.inr.inr.inl =>
    obtain ⟨hbuf, hend, -, -⟩ := FramedFlow.read_fail hread
    have hempty : d.flow.pending = [] := by
      rw [FramedFlow.pending, hbuf, hdrained hbuf hend, append_nil]
    simp [hearly, h.entered_eq, hempty]
  all_goals exact hearly

/-- No run in which every such `Read` finds the data channel drained reports an
end before the data. -/
theorem not_endedEarly_of_endsDrained (frames : List FlowFrame)
    (hpath : Path step EndsDrained (initial frames) as d) : d.endedEarly = false := by
  have hkeep : ∀ (d : Download) a d', (d.Consistent ∧ d.endedEarly = false) → d.EndsDrained a →
      d.step a = some d' → d'.Consistent ∧ d'.endedEarly = false :=
    fun d a d' h hok hstep => ⟨step_consistent h.1 hstep, step_endedEarly h.1 hok hstep h.2⟩
  exact (hpath.invariant hkeep ⟨initial_consistent frames, rfl⟩).2

theorem one_byte_not_endedEarly : ∃ d,
    Path step EndsDrained (initial [.data [7], .close])
      [.handle, .read 1 .data, .handle, .read 1 .err] d ∧ d.endedEarly = false :=
  have hpath := Path.of_run (show run step EndsDrained (initial [.data [7], .close])
    [.handle, .read 1 .data, .handle, .read 1 .err] = some ⟨.new, false, [], [7], [7], false⟩ by
      decide)
  ⟨_, hpath, not_endedEarly_of_endsDrained _ hpath⟩

/-- Both frames are handled before the read, and the select takes the end. -/
theorem one_byte_endedEarly : ∃ d,
    Path step anyLabel (initial [.data [7], .close]) [.handle, .handle, .read 1 .err] d ∧
      d.returned = [] ∧ d.entered = [7] ∧ d.endedEarly = true :=
  ⟨_, Path.of_run rfl, rfl, rfl, rfl⟩

/-- A data frame with a payload finds room in the data channel. -/
def RoomForData (d : Download) : DownloadStep → Prop
  | .handle => payloads (d.frames.take 1) ≠ [] → d.flow.dataCh.length < FramedFlow.dataCap
  | _ => True

instance (d : Download) (a : DownloadStep) : Decidable (d.RoomForData a) := by
  cases a <;> unfold RoomForData <;> infer_instance

/-- Nothing was dropped: what entered and what is still to come is what was sent. -/
theorem step_entered {sent : Bytes} (h : d.Consistent) (hroom : d.RoomForData a)
    (hstep : d.step a = some d') (hsent : d.entered ++ payloads d.frames = sent) :
    d'.entered ++ payloads d'.frames = sent := by
  obtain ⟨payload, frames, -, hframes, -, rfl⟩ | ⟨payload, frames, rfl, hframes, hfull, rfl⟩ |
    ⟨frames, -, hframes, rfl⟩ | ⟨n, branch, flow, bytes, -, -, rfl⟩ |
    ⟨n, branch, flow, err, -, -, rfl⟩ | ⟨-, rfl⟩ | ⟨err, -, rfl⟩ := step_cases h.open_data hstep
  · rw [← hsent, hframes]
    simp [payloads, FlowFrame.payload]
  · have hempty : payload = [] := by
      by_contra hne
      exact hfull (hroom (by simpa [hframes, payloads, FlowFrame.payload] using hne))
    rw [← hsent, hframes, hempty]
    simp [payloads, FlowFrame.payload]
  · rw [← hsent, hframes]
    simp [payloads, FlowFrame.payload]
  all_goals exact hsent

/-- In every run in which data frames find room, the bytes returned are a prefix
of the bytes sent. -/
theorem returned_prefix_of_roomForData (frames : List FlowFrame)
    (hpath : Path step RoomForData (initial frames) as d) : d.returned <+: payloads frames := by
  have hkeep : ∀ (d : Download) a d',
      (d.Consistent ∧ d.entered ++ payloads d.frames = payloads frames) →
      d.RoomForData a → d.step a = some d' →
      d'.Consistent ∧ d'.entered ++ payloads d'.frames = payloads frames :=
    fun d a d' h hok hstep => ⟨step_consistent h.1 hstep, step_entered h.1 hok hstep h.2⟩
  obtain ⟨hconsistent, hsent⟩ := hpath.invariant hkeep ⟨initial_consistent frames, rfl⟩
  rw [← hsent, hconsistent.entered_eq, append_assoc]
  exact prefix_append _ _

theorem one_byte_returned_prefix : ∃ d,
    Path step RoomForData (initial [.data [7], .close]) [.handle, .handle, .read 1 .data] d ∧
      d.returned <+: payloads [.data [7], .close] :=
  have hpath := Path.of_run (show run step RoomForData (initial [.data [7], .close])
    [.handle, .handle, .read 1 .data] =
      some ⟨⟨[], [], false, [.eof]⟩, false, [], [7], [7], false⟩ by decide)
  ⟨_, hpath, returned_prefix_of_roomForData _ hpath⟩

theorem path_handle (d : Download) (hopen : d.flow.dataClosed = false) (ps : List Bytes)
    (rest : List FlowFrame) (hframes : d.frames = ps.map .data ++ rest)
    (hroom : d.flow.dataCh.length + ps.length ≤ FramedFlow.dataCap) :
    Path step anyLabel d (List.replicate ps.length .handle)
      { d with
        flow := { d.flow with dataCh := d.flow.dataCh ++ ps }, frames := rest
        entered := d.entered ++ ps.flatten } := by
  induction ps generalizing d with
  | nil =>
    obtain ⟨⟨buf, dataCh, closed, errCh⟩, ctxDone, frames, entered, returned, early⟩ := d
    obtain rfl : frames = rest := by simpa using hframes
    simpa using Path.nil _
  | cons p ps ih =>
    have hlt : d.flow.dataCh.length < FramedFlow.dataCap := by
      simp at hroom
      omega
    have hstep : d.step .handle = some { d with
        flow := { d.flow with dataCh := d.flow.dataCh ++ [p] }, frames := ps.map .data ++ rest
        entered := d.entered ++ p } := by
      simp [step, hframes, FramedFlow.pushData, hopen, hlt]
    refine .cons trivial hstep ?_
    have := ih { d with
        flow := { d.flow with dataCh := d.flow.dataCh ++ [p] }, frames := ps.map .data ++ rest
        entered := d.entered ++ p } hopen rfl (by simp at hroom ⊢; omega)
    simpa using this

theorem path_read (d : Download) (bytes : Bytes) (hbuf : d.flow.buf = [])
    (hch : d.flow.dataCh = bytes.map fun b => [b]) :
    Path step anyLabel d (List.replicate bytes.length (.read 1 .data))
      { d with flow := { d.flow with dataCh := [] }, returned := d.returned ++ bytes } := by
  induction bytes generalizing d with
  | nil =>
    obtain ⟨⟨buf, dataCh, closed, errCh⟩, ctxDone, frames, entered, returned, early⟩ := d
    obtain rfl : dataCh = [] := by simpa using hch
    simpa using Path.nil _
  | cons b bytes ih =>
    have hstep : d.step (.read 1 .data) = some { d with
        flow := { d.flow with dataCh := bytes.map fun b => [b] },
        returned := d.returned ++ [b] } := by
      simp [step, FramedFlow.read, hbuf, hch, FramedFlow.readBuf, record]
    refine .cons trivial hstep ?_
    have := ih { d with
        flow := { d.flow with dataCh := bytes.map fun b => [b] }
        returned := d.returned ++ [b] } hbuf rfl
    simpa using this

/-- Frames that fill a data channel of `n + 1` places, and two more. -/
def overfull (n : ℕ) : List FlowFrame :=
  List.replicate (n + 1) (.data [0]) ++ [.data [1], .data [2]]

theorem payloads_overfull (n : ℕ) : payloads (overfull n) = List.replicate (n + 1) 0 ++ [1, 2] := by
  simp [payloads, overfull, FlowFrame.payload, flatMap_replicate]

/-- The channel fills up, one frame is lost, a read makes room for the next one
and the rest is read. -/
theorem path_overfull {n : ℕ} (hn : n + 1 = FramedFlow.dataCap) : ∃ as d,
    Path step anyLabel (initial (overfull n)) as d ∧
      d.returned = List.replicate (n + 1) 0 ++ [2] := by
  set sent : Bytes := (List.replicate (n + 1) [0]).flatten
  have hfill : Path step anyLabel (initial (overfull n)) _
      ⟨⟨[], List.replicate (n + 1) [0], false, []⟩, false, [.data [1], .data [2]], sent, [],
        false⟩ :=
    path_handle (initial (overfull n)) rfl (List.replicate (n + 1) [0])
      [.data [1], .data [2]] (by simp [initial, overfull]) (by simp [initial, FramedFlow.new, hn])
  have hlost : step ⟨⟨[], List.replicate (n + 1) [0], false, []⟩, false,
      [.data [1], .data [2]], sent, [], false⟩ .handle =
      some ⟨⟨[], List.replicate (n + 1) [0], false, []⟩, false, [.data [2]], sent, [], false⟩ := by
    simp [step, FramedFlow.pushData, hn]
  have hread : step ⟨⟨[], List.replicate (n + 1) [0], false, []⟩, false, [.data [2]], sent, [],
      false⟩ (.read 1 .data) =
      some ⟨⟨[], List.replicate n [0], false, []⟩, false, [.data [2]], sent, [0], false⟩ := by
    simp [step, FramedFlow.read, FramedFlow.readBuf, record, replicate_succ]
  have hlast : step ⟨⟨[], List.replicate n [0], false, []⟩, false, [.data [2]], sent, [0], false⟩
      .handle = some ⟨⟨[], (List.replicate n 0 ++ [2] : Bytes).map fun b => [b], false, []⟩, false,
        [], sent ++ [2], [0], false⟩ := by
    simp [step, FramedFlow.pushData, ← hn]
  have hdrain := path_read ⟨⟨[], (List.replicate n 0 ++ [2] : Bytes).map fun b => [b], false, []⟩,
    false, [], sent ++ [2], [0], false⟩ (List.replicate n 0 ++ [2]) rfl rfl
  have hrest := hdrain.cons trivial hlast |>.cons trivial hread |>.cons trivial hlost
  exact ⟨_, _, hfill.append hrest, rfl⟩

/-- A frame that finds the channel full is lost, and the one after it is returned. -/
theorem overfull_gap : ∃ as d,
    Path step anyLabel (initial (overfull 1023)) as d ∧
      ¬d.returned <+: payloads (overfull 1023) := by
  obtain ⟨as, d, hpath, hreturned⟩ := path_overfull (n := 1023) rfl
  refine ⟨as, d, hpath, ?_⟩
  rw [hreturned, payloads_overfull, prefix_append_right_inj]
  decide

end Download
end VlfProto.Client
