import VlfProto.Session.FrameStream

/-! # Reading the control stream of a QUIC session -/

namespace VlfProto.Client
open Platform Session List

/-- Why the context of a call is done. -/
inductive ContextError where
  | canceled
  | deadlineExceeded

inductive ControlError where
  | context (cause : ContextError)
  | read (cause : ReadError)

/-- `readControlFrameLocked` under a context that is done with `ctxErr`, or not done. -/
def readControlFrameLocked (ctxErr : Option ContextError) (b : Bufio) :
    Except (Stop ControlError) Frame × Bufio :=
  match readFrameBuffered b with
  | (.ok frame, b) => (.ok frame, b)
  | (.error .panic, b) => (.error .panic, b)
  | (.error (.error .timeout), b) =>
    (.error (.error (.context (ctxErr.getD .deadlineExceeded))), b)
  | (.error (.error e), b) => (.error (.error (.read e)), b)

/-- The frames that successive calls return, one call for each context. -/
def controlFrames : List (Option ContextError) → Bufio → List Frame
  | [], _ => []
  | ctxErr :: calls, b =>
    match readControlFrameLocked ctxErr b with
    | (.ok frame, b) => frame :: controlFrames calls b
    | (.error _, b) => controlFrames calls b

def afterCalls : List (Option ContextError) → Bufio → Bufio
  | [], b => b
  | ctxErr :: calls, b => afterCalls calls (readControlFrameLocked ctxErr b).2

/-- The bytes of a stream, cut where a deadline falls. -/
def stretches : Bytes → List Arrival → List Bytes
  | buf, [] => [buf]
  | buf, .data c rest :: arrivals => stretches (buf ++ c :: rest) arrivals
  | buf, .deadline :: arrivals => buf :: stretches [] arrivals

variable {b b' : Bufio} {ctxErr : Option ContextError} {calls : List (Option ContextError)}
  {frames : List OutFrame}

theorem controlFrames_ok {frame : Frame} (h : readFrameBuffered b = (.ok frame, b')) :
    controlFrames (ctxErr :: calls) b = frame :: controlFrames calls b' ∧
      afterCalls (ctxErr :: calls) b = afterCalls calls b' := by
  simp only [controlFrames, afterCalls, readControlFrameLocked, h, and_self]

theorem controlFrames_error {stop : Stop ReadError}
    (h : readFrameBuffered b = (.error stop, b')) :
    controlFrames (ctxErr :: calls) b = controlFrames calls b' ∧
      afterCalls (ctxErr :: calls) b = afterCalls calls b' := by
  rcases stop with e | _
  · cases e <;> simp only [controlFrames, afterCalls, readControlFrameLocked, h, and_self]
  · simp only [controlFrames, afterCalls, readControlFrameLocked, h, and_self]

theorem stretches_eq (buf : Bytes) (arrivals : List Arrival) :
    stretches buf arrivals = (buf ++ Bufio.ahead arrivals) ::
      if Bufio.behind arrivals = [] then [] else stretches [] (Bufio.behind arrivals).tail := by
  induction arrivals generalizing buf with
  | nil => simp [stretches, Bufio.ahead, Bufio.behind]
  | cons arrival arrivals ih =>
    cases arrival with
    | data c rest => rw [stretches, ih, Bufio.ahead, Bufio.behind, append_assoc]
    | deadline => simp [stretches, Bufio.ahead, Bufio.behind]

/-- The stretches that the reader has still to see. -/
def unreadStretches (b : Bufio) : List Bytes := stretches b.buf b.arrivals

theorem unreadStretches_eq (b : Bufio) : unreadStretches b = b.source.data ::
    if Bufio.behind b.arrivals = [] then [] else stretches [] (Bufio.behind b.arrivals).tail :=
  stretches_eq b.buf b.arrivals

theorem unreadStretches_cons (b : Bufio) :
    unreadStretches b = b.source.data :: (unreadStretches b).tail := by
  rw [unreadStretches_eq, tail_cons]

theorem unreadStretches_forward (h : b.Forward b') :
    unreadStretches b' = b'.source.data :: (unreadStretches b).tail := by
  rw [unreadStretches_eq b', unreadStretches_eq b, h.behind, tail_cons]

/-- A call at the end of a stretch moves on to the next one, if there is one. -/
theorem unreadStretches_exhausted (b : Bufio) :
    unreadStretches b.exhausted =
      if (unreadStretches b).tail = [] then [[]] else (unreadStretches b).tail := by
  rw [unreadStretches_eq b, tail_cons]
  by_cases hbehind : Bufio.behind b.arrivals = []
  · simp [hbehind, unreadStretches, Bufio.exhausted, stretches]
  · rw [if_neg hbehind, if_neg (by rw [stretches_eq]; exact cons_ne_nil _ _)]
    rfl

/-- The bytes that the reader has still to see. -/
def unread (b : Bufio) : Bytes := (unreadStretches b).flatten

theorem flatten_map_streamOf (groups : List (List OutFrame)) :
    (groups.map streamOf).flatten = streamOf groups.flatten := by
  induction groups with
  | nil => rfl
  | cons group groups ih => simp [streamOf, ih]

/-- The calls have returned the first of the frames, and the others are still to be read. -/
@[mk_iff]
structure Aligned (frames : List OutFrame) (calls : List (Option ContextError)) (b : Bufio) :
    Prop where
  returned : controlFrames calls b <+: frames.map OutFrame.frame
  unread : unread (afterCalls calls b) = streamOf (frames.drop (controlFrames calls b).length)

theorem aligned_ok {f : OutFrame} (h : readFrameBuffered b = (.ok f.frame, b')) :
    Aligned (f :: frames) (ctxErr :: calls) b ↔ Aligned frames calls b' := by
  obtain ⟨hframes, hafter⟩ := controlFrames_ok h
  rw [aligned_iff, aligned_iff, hframes, hafter, map_cons, prefix_cons_inj, length_cons,
    drop_succ_cons]

theorem aligned_error {stop : Stop ReadError} (h : readFrameBuffered b = (.error stop, b')) :
    Aligned frames (ctxErr :: calls) b ↔ Aligned frames calls b' := by
  obtain ⟨hframes, hafter⟩ := controlFrames_error h
  rw [aligned_iff, aligned_iff, hframes, hafter]

/-- Over stretches of whole frames the calls stay aligned, and return all frames once there is
a call for every frame and every deadline. -/
theorem controlFrames_groups {groups : List (List OutFrame)}
    (h : unreadStretches b = groups.map streamOf) :
    Aligned groups.flatten calls b ∧ (groups.flatten.length + groups.length ≤ calls.length →
      controlFrames calls b = groups.flatten.map OutFrame.frame) := by
  induction calls generalizing b groups with
  | nil =>
    refine ⟨⟨ nil_prefix, ?_⟩, fun hlength => ?_⟩
    · change unread b = streamOf groups.flatten
      rw [unread, h, flatten_map_streamOf]
    · have hnone : groups.flatten = [] := length_eq_zero_iff.mp (by simp at hlength ⊢; omega)
      rw [hnone]
      rfl
  | cons ctxErr calls ih =>
    obtain _ | ⟨group, groups⟩ := groups
    · rw [unreadStretches_eq] at h
      cases h
    · have hdata : b.source.data = streamOf group := by
        rw [unreadStretches_eq] at h
        exact (List.cons.inj h).1
      have htail : (unreadStretches b).tail = groups.map streamOf := by rw [h]; rfl
      obtain _ | ⟨f, group⟩ := group
      · have hread := readFrameBuffered_of_nil hdata
        obtain _ | ⟨next, groups⟩ := groups
        · have hend : unreadStretches b.exhausted = [[]].map streamOf := by
            rw [unreadStretches_exhausted, htail]
            rfl
          have haligned : Aligned [] (ctxErr :: calls) b := (aligned_error hread).mpr (ih hend).1
          exact ⟨haligned, fun _ => prefix_nil.mp haligned.returned⟩
        · have hnext : unreadStretches b.exhausted = (next :: groups).map streamOf := by
            rw [unreadStretches_exhausted, htail, if_neg (by simp)]
          obtain ⟨haligned, hall⟩ := ih hnext
          refine ⟨(aligned_error hread).mpr haligned, fun hlength => ?_⟩
          refine (controlFrames_error hread).1.trans (hall ?_)
          simp only [flatten_cons, nil_append, length_cons] at hlength ⊢
          omega
      · rw [streamOf_cons] at hdata
        obtain ⟨b', hread, hforward, hrest⟩ := readFrameBuffered_whole hdata
        have hwhole : unreadStretches b' = (group :: groups).map streamOf := by
          rw [unreadStretches_forward hforward, htail, hrest, map_cons]
        obtain ⟨haligned, hall⟩ := ih hwhole
        rw [flatten_cons, cons_append, ← flatten_cons]
        refine ⟨(aligned_ok hread).mpr haligned, fun hlength => ?_⟩
        rw [(controlFrames_ok hread).1, map_cons,
          hall (by simp only [length_cons] at hlength ⊢; omega)]

/-- Calls that stay aligned and return all the frames have met no deadline inside of one. -/
theorem groups_of_aligned (haligned : ∀ calls, Aligned frames calls b)
    (h : controlFrames calls b = frames.map OutFrame.frame) :
    ∃ groups : List (List OutFrame), groups.flatten = frames ∧
      unreadStretches b = groups.map streamOf := by
  induction calls generalizing b frames with
  | nil =>
    obtain rfl : frames = [] := map_eq_nil_iff.mp h.symm
    have hempty : ∀ l ∈ unreadStretches b, l = [] := flatten_eq_nil_iff.mp (haligned []).unread
    refine ⟨(unreadStretches b).map fun _ => [], by simp, ?_⟩
    rw [map_map]
    exact ((map_congr_left fun l hl => (hempty l hl).symm).trans (map_id _)).symm
  | cons ctxErr calls ih =>
    have hcons := unreadStretches_cons b
    have hstream : unread b = streamOf frames := (haligned []).unread
    -- a call that fails leaves all frames to the calls after it
    have hfail {e : Stop ReadError} {b' : Bufio} (he : readFrameBuffered b = (.error e, b')) :
        unread b' = streamOf frames ∧ ∃ groups : List (List OutFrame), groups.flatten = frames ∧
          unreadStretches b' = groups.map streamOf := by
      have hnext (calls : List (Option ContextError)) : Aligned frames calls b' :=
        (aligned_error he).mp (haligned (ctxErr :: calls))
      exact ⟨(hnext []).unread, ih hnext ((controlFrames_error he).1.symm.trans h)⟩
    by_cases hdata : b.source.data = []
    · obtain ⟨-, groups, rfl, hgroups⟩ := hfail (readFrameBuffered_of_nil hdata)
      rw [hdata] at hcons
      rw [unreadStretches_exhausted] at hgroups
      split_ifs at hgroups with hend
      · exact ⟨groups, rfl, by rw [hcons, hend, hgroups]⟩
      · exact ⟨[] :: groups, rfl, by rw [hcons, hgroups]; rfl⟩
    · rw [unread, hcons, flatten_cons] at hstream
      obtain _ | ⟨f, frames⟩ := frames
      · exact absurd (append_eq_nil_iff.mp hstream).1 hdata
      · by_cases hcut : b.source.data <+: f.bytes ∧ b.source.data ≠ f.bytes
        · -- the deadline falls inside of the frame, of which the call has lost some bytes
          obtain ⟨e, b', he, hstop⟩ := readFrameBuffered_cut hcut.1 hcut.2
          obtain ⟨hunread, hgroups⟩ := hfail he
          rcases hstop with rfl | hforward
          · rw [unread, unreadStretches_exhausted, ← hstream] at hunread
            split_ifs at hunread with hend
            · rw [hend] at hunread
              exact absurd (append_eq_nil_iff.mp hunread.symm).1 hdata
            · exact absurd (self_eq_append_left.mp hunread) hdata
          · have hsame := unreadStretches_forward hforward
            rw [unread, hsame, flatten_cons, ← hstream] at hunread
            rwa [hsame, append_cancel_right hunread, ← hcons] at hgroups
        · rw [streamOf_cons] at hstream
          obtain ⟨rest, hf, hrest⟩ : ∃ rest, b.source.data = f.bytes ++ rest ∧
              streamOf frames = rest ++ (unreadStretches b).tail.flatten := by
            rcases append_eq_append_iff.mp hstream with ⟨rest, hf, hrest⟩ | hwhole
            · have hall : b.source.data = f.bytes :=
                by_contra fun hne => hcut ⟨⟨rest, hf.symm⟩, hne⟩
              rw [hall, self_eq_append_right] at hf
              exact ⟨[], by rw [hall, append_nil], by rw [hrest, hf]; rfl⟩
            · exact hwhole
          obtain ⟨b', hread, hforward, rfl⟩ := readFrameBuffered_whole hf
          have hnext (calls : List (Option ContextError)) : Aligned frames calls b' :=
            (aligned_ok hread).mp (haligned (ctxErr :: calls))
          rw [(controlFrames_ok hread).1] at h
          obtain ⟨groups, rfl, hgroups⟩ := ih hnext (cons.inj h).2
          rw [unreadStretches_forward hforward] at hgroups
          obtain ⟨group, groups, rfl, hgroup, htail⟩ := map_eq_cons_iff.mp hgroups.symm
          refine ⟨(f :: group) :: groups, rfl, ?_⟩
          rw [hcons, hf, ← hgroup, ← htail, map_cons, streamOf_cons]

/-- Every deadline falls between two frames: no stretch ends inside one. -/
def DeadlinesBetween (frames : List OutFrame) (arrivals : List Arrival) : Prop :=
  ∃ groups : List (List OutFrame), groups.flatten = frames ∧
    stretches [] arrivals = groups.map streamOf

/-- Successive calls stay aligned, and return all frames given a call for every frame and every
stretch between deadlines, if and only if every deadline falls between two frames. -/
theorem controlFrames_aligned (frames : List OutFrame) (arrivals : List Arrival)
    (fault : ReadError) :
    (∀ calls, Aligned frames calls (.new arrivals fault) ∧
      (frames.length + (stretches [] arrivals).length ≤ calls.length →
        controlFrames calls (.new arrivals fault) = frames.map OutFrame.frame)) ↔
    DeadlinesBetween frames arrivals := by
  constructor
  · intro h
    have hall := (h (replicate (frames.length + (stretches [] arrivals).length) none)).2
      (length_replicate ..).ge
    exact groups_of_aligned (b := .new arrivals fault) (fun calls => (h calls).1) hall
  · rintro ⟨groups, rfl, hstretches⟩ calls
    rw [hstretches, length_map]
    exact controlFrames_groups hstretches

/-- The answer to a probe: a `PONG` with the token of the probe, twelve random bytes. -/
def pongFrame : OutFrame where
  type := 12
  payload := [0x02, 0xa1, 0xb2, 0xc3, 0xd4, 0xe5, 0xf6, 0x07, 0x18, 0x29, 0x3a, 0x4b]
  allocated := by norm_num [maxAlloc]

/-- Two probes, the first timing out before its answer arrives. -/
theorem controlFrames_late_pong :
    DeadlinesBetween [pongFrame] [.deadline, .data 12 (12 :: pongFrame.payload)] ∧
      controlFrames [none, none, none]
        (.new [.deadline, .data 12 (12 :: pongFrame.payload)] .eof) = [pongFrame.frame] := by
  have hbetween : DeadlinesBetween [pongFrame] [.deadline, .data 12 (12 :: pongFrame.payload)] :=
    ⟨[[], [pongFrame]], rfl, by decide⟩
  have haligned := (controlFrames_aligned _ _ .eof).mpr hbetween
  exact ⟨hbetween, (haligned [none, none, none]).2 (by decide)⟩

/-- The deadline of a probe falls after the first byte of the answer. The next call takes
the length of the frame for its type and returns a `PONG` of two bytes that nobody sent. -/
theorem controlFrames_split_pong :
    (stretches [] [.data 12 [], .deadline, .data 12 pongFrame.payload]).flatten =
        streamOf [pongFrame] ∧
      ¬controlFrames [none, none]
          (.new [.data 12 [], .deadline, .data 12 pongFrame.payload] .eof) <+:
        [pongFrame].map OutFrame.frame ∧
      controlFrames [none, none]
          (.new [.data 12 [], .deadline, .data 12 pongFrame.payload] .eof) =
        [⟨framePONG, [0xa1, 0xb2]⟩] := by
  decide

end VlfProto.Client
