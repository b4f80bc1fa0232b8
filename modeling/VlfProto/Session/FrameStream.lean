import VlfProto.Platform.Bufio
import VlfProto.Platform.Encoding
import VlfProto.Session.Frame

/-! # Frames on a stream -/

namespace VlfProto.Session
open Platform List

/-- What a caller hands to `WriteFrame`: a type, and a slice that the runtime allocated. -/
structure OutFrame where
  type : UInt64
  payload : Bytes
  allocated : payload.length ≤ maxAlloc

/-- The bytes of the writes of `WriteFrame`, in order. -/
def writeFrame (frameType : ℕ) (payload : Bytes) : Bytes :=
  putUvarint frameType ++ (putUvarint payload.length ++ payload)

namespace OutFrame

def frame (f : OutFrame) : Frame := ⟨f.type.toNat, f.payload⟩

def bytes (f : OutFrame) : Bytes := writeFrame f.type.toNat f.payload

end OutFrame

/-- The stream that results when frames are written one after the other. -/
def streamOf (frames : List OutFrame) : Bytes := frames.flatMap OutFrame.bytes

/-- The frames whose last byte is among the first `cut` bytes of the stream. -/
def wholeBefore : ℕ → List OutFrame → List OutFrame
  | _, [] => []
  | cut, f :: frames =>
    if f.bytes.length ≤ cut then f :: wholeBefore (cut - f.bytes.length) frames else []

/-- `ReadFrame` on the buffered reader that it is given. -/
def readFrameBuffered : Buffered Frame := do
  let type ← Bufio.readUvarint
  let length ← Bufio.readUvarint
  Bufio.makeSlice length
  let payload ← Bufio.readFull length
  return ⟨type, payload⟩

/-- The results of `n` calls of `ReadFrame` on one buffered reader. -/
def readFrames : ℕ → Bufio → List (Except (Stop ReadError) Frame)
  | 0, _ => []
  | n + 1, b => (readFrameBuffered b).1 :: readFrames n (readFrameBuffered b).2

theorem readFrameBuffered_implements : Bufio.Implements readFrameBuffered readFrame :=
  Bufio.readUvarint_implements.bind fun _ => Bufio.readUvarint_implements.bind fun n =>
    (Bufio.makeSlice_implements n).bind fun _ => (Bufio.readFull_implements n).bind fun _ =>
      Bufio.implements_pure _

theorem readFrame_consumes (f : OutFrame) : readFrame.Consumes f.bytes f.frame := by
  have hpayload := (Reader.writeSlice_consumes f.allocated).bind
    (f := fun payload => pure (⟨f.type.toNat, payload⟩ : Frame)) (Reader.consumes_pure _)
  rw [append_nil] at hpayload
  rw [readFrame_eq]
  exact (Reader.putUvarint_consumes f.type.toNat_lt).bind hpayload

theorem readFrame_refusesCut (f : OutFrame) : readFrame.RefusesCut f.bytes := by
  have hpayload := (Reader.writeSlice_refusesCut f.allocated).bind
    (f := fun payload => pure (⟨f.type.toNat, payload⟩ : Frame))
    (Reader.writeSlice_consumes f.allocated) Reader.refusesCut_nil
  rw [append_nil] at hpayload
  rw [readFrame_eq]
  exact (Reader.putUvarint_refusesCut _).bind (Reader.putUvarint_consumes f.type.toNat_lt) hpayload

variable {b : Bufio}

theorem readFrameBuffered_whole {f : OutFrame} {rest : Bytes}
    (h : b.source.data = f.bytes ++ rest) :
    ∃ b', readFrameBuffered b = (.ok f.frame, b') ∧ b.Forward b' ∧ b'.source.data = rest := by
  have hread : readFrame b.source = .ok (f.frame, ⟨rest, b.source.fault⟩) := by
    rw [show b.source = ⟨f.bytes ++ rest, b.source.fault⟩ by rw [← h]]
    exact readFrame_consumes f rest b.source.fault
  obtain ⟨b', hbuffered, hforward, hsource⟩ := readFrameBuffered_implements.ok hread
  exact ⟨b', hbuffered, hforward, by rw [hsource]⟩

theorem readFrameBuffered_cut {f : OutFrame} (hcut : b.source.data <+: f.bytes)
    (hne : b.source.data ≠ f.bytes) :
    ∃ e b', readFrameBuffered b = (.error (.error e), b') ∧
      (b' = b.exhausted ∨ b.Forward b') := by
  obtain ⟨e, he⟩ := readFrame_refusesCut f _ b.source.fault hcut hne
  exact ⟨e, readFrameBuffered_implements.error he⟩

/-- With nothing before the deadline or the end, the call fails and consumes nothing else. -/
theorem readFrameBuffered_of_nil (h : b.source.data = []) :
    readFrameBuffered b = (.error (.error b.source.fault), b.exhausted) := by
  rw [readFrameBuffered, Bufio.bind_eq, Bufio.readUvarint_of_nil h]

theorem streamOf_cons (f : OutFrame) (frames : List OutFrame) :
    streamOf (f :: frames) = f.bytes ++ streamOf frames := flatMap_cons

theorem wholeBefore_of_length_le {frames : List OutFrame} {cut : ℕ}
    (h : (streamOf frames).length ≤ cut) : wholeBefore cut frames = frames := by
  induction frames generalizing cut with
  | nil => rfl
  | cons f frames ih =>
    rw [streamOf_cons, length_append] at h
    rw [wholeBefore, if_pos (by omega), ih (by omega)]

/-- Whatever reaches the reader before the first deadline is read frame by frame up to
the cut, and then a call fails. -/
theorem readFrames_cut (frames : List OutFrame) (cut : ℕ)
    (h : b.source.data = (streamOf frames).take cut) :
    ∃ e, readFrames ((wholeBefore cut frames).length + 1) b =
        (wholeBefore cut frames).map (fun f => .ok f.frame) ++ [.error (.error e)] ∧
      ((streamOf frames).length ≤ cut → e = b.source.fault) := by
  induction frames generalizing b cut with
  | nil =>
    rw [streamOf, flatMap_nil, take_nil] at h
    refine ⟨b.source.fault, ?_, fun _ => rfl⟩
    simp only [wholeBefore, length_nil, readFrames, readFrameBuffered_of_nil h, map_nil,
      nil_append]
  | cons f frames ih =>
    rw [streamOf_cons, take_append] at h
    rw [wholeBefore, streamOf_cons, length_append]
    split_ifs with hwhole
    · rw [take_of_length_le hwhole] at h
      obtain ⟨b', hread, hforward, hrest⟩ := readFrameBuffered_whole h
      obtain ⟨e, he, hfault⟩ := ih _ hrest
      rw [hforward.source_fault] at hfault
      refine ⟨e, ?_, fun hlength => hfault (by omega)⟩
      rw [length_cons, readFrames, hread, he, map_cons, cons_append]
    · have hcut : cut ≤ f.bytes.length := (not_le.mp hwhole).le
      rw [Nat.sub_eq_zero_of_le hcut, take_zero, append_nil] at h
      have hne : b.source.data ≠ f.bytes := by
        intro heq
        have hlength := congrArg List.length (h.symm.trans heq)
        rw [length_take] at hlength
        omega
      obtain ⟨e, b', he, -⟩ := readFrameBuffered_cut (h ▸ take_prefix _ _) hne
      refine ⟨e, ?_, fun hlength => by omega⟩
      simp only [length_nil, readFrames, he, map_nil, nil_append]

/-- However a stream of frames is cut and then split into pieces, repeated reading gives the
frames that lie wholly before the cut and then an error. -/
theorem readFrames_chunked (frames : List OutFrame) (cut : ℕ) (chunks : List Bytes)
    (fault : ReadError) (hchunks : chunks.flatten = (streamOf frames).take cut) :
    ∃ e, readFrames ((wholeBefore cut frames).length + 1) (Bufio.chunked chunks fault) =
        (wholeBefore cut frames).map (fun f => .ok f.frame) ++ [.error (.error e)] ∧
      ((streamOf frames).length ≤ cut → wholeBefore cut frames = frames ∧ e = fault) := by
  have hsource := Bufio.source_chunked chunks fault
  obtain ⟨e, hframes, hfault⟩ := readFrames_cut (b := .chunked chunks fault) frames cut
    (by rw [hsource, hchunks])
  rw [hsource] at hfault
  exact ⟨e, hframes, fun hlength => ⟨wholeBefore_of_length_le hlength, hfault hlength⟩⟩

/-- A `PING` and the start of a data frame, in pieces that respect neither. -/
theorem readFrames_ping_cut :
    ∃ e, readFrames 2 (Bufio.chunked [[11, 3], [1, 2, 3, 13], [4, 0]] .eof) =
      [.ok ⟨framePING, [1, 2, 3]⟩, .error (.error e)] := by
  obtain ⟨e, he, -⟩ := readFrames_chunked
    [⟨11, [1, 2, 3], by norm_num [maxAlloc]⟩, ⟨13, [0, 0, 0, 1], by norm_num [maxAlloc]⟩] 8
    [[11, 3], [1, 2, 3, 13], [4, 0]] .eof (by decide)
  exact ⟨e, he⟩

end VlfProto.Session
