import VlfProto.Platform.Layout

/-!
# Frames and payloads of the session protocol

A frame is a type, a length and that many payload bytes. The payload decoders
of the control messages read their fields in order and name the field in the
error; the two payloads that precede a flow's own bytes are cut by position.
-/
namespace VlfProto.Session
open Platform

def frameAUTH : ℕ := 1
def frameOPENTCP : ℕ := 4
def frameOPENUDP : ℕ := 7
def frameCLOSEFLOW : ℕ := 10
def framePING : ℕ := 11
def framePONG : ℕ := 12
def frameTCPDATA : ℕ := 13

structure Frame where
  type : ℕ
  payload : Bytes
  deriving DecidableEq

def readFrame : Reader ReadError Frame := do
  let type ← Reader.readUvarint
  let length ← Reader.readUvarint
  Reader.makeSlice length
  let payload ← Reader.readFull length
  return ⟨type, payload⟩

theorem readFrame_eq : readFrame = Reader.readUvarint >>= fun type =>
    (Reader.readUvarint >>= fun n => Reader.makeSlice n >>= fun _ => Reader.readFull n) >>=
      fun payload => pure ⟨type, payload⟩ := by
  simp only [readFrame, bind_assoc]

/-- An error of a payload decoder: the read error of a named field, or a text. -/
inductive DecodeError where
  | field (context : String) (cause : ReadError)
  | text (message : String)
  deriving DecidableEq

def decodePayload {α : Type} (p : Reader DecodeError α) (raw : Bytes) :
    Except (Stop DecodeError) α := (p ⟨raw, .eof⟩).map Prod.fst

/-- Fail with `message` unless every byte was consumed. -/
def expectEnd (message : String) : Reader DecodeError Unit := do
  if (← get).data ≠ [] then Reader.fail (.text message)

structure AuthPayload where
  clientID : Bytes
  tsMS : ℕ
  nonce : Bytes
  sig : Bytes
  caps : ℕ
  deriving DecidableEq

def readAuthPayload : Reader DecodeError AuthPayload := do
  let clientID ← Reader.readBytes.mapError (.field "decode client_id")
  let tsMS ← (Reader.readBigEndian 8).mapError (.field "decode ts_ms")
  let nonce ← Reader.readBytes.mapError (.field "decode nonce")
  let sig ← Reader.readBytes.mapError (.field "decode sig")
  let caps ← (Reader.readBigEndian 8).mapError (.field "decode caps")
  expectEnd "trailing bytes in AUTH payload"
  return ⟨clientID, tsMS, nonce, sig, caps⟩

def decodeAuthPayload (raw : Bytes) : Except (Stop DecodeError) AuthPayload :=
  decodePayload readAuthPayload raw

structure OpenPayload where
  flowID : ℕ
  dstHost : Bytes
  dstIP : Bytes
  dstPort : ℕ
  deriving DecidableEq

def readOpenPayload : Reader DecodeError OpenPayload := do
  let flowID ← (Reader.readBigEndian 8).mapError (.field "decode flow_id")
  let dstHost ← Reader.readBytes.mapError (.field "decode dst_host")
  let dstIP ← Reader.readBytes.mapError (.field "decode dst_ip")
  let dstPort ← (Reader.readBigEndian 2).mapError (.field "decode dst_port")
  expectEnd "trailing bytes in OPEN payload"
  return ⟨flowID, dstHost, dstIP, dstPort⟩

def decodeOpenPayload (raw : Bytes) : Except (Stop DecodeError) OpenPayload :=
  decodePayload readOpenPayload raw

def decodeCloseFlowPayload (raw : Bytes) : Except DecodeError ℕ :=
  if raw.length ≠ 8 then
    .error (.text ("close flow payload must be 8 bytes, got " ++ toString raw.length))
  else .ok (ofBigEndian raw)

def decodeTCPDataPayload (raw : Bytes) : Except DecodeError (ℕ × Bytes) :=
  if raw.length < 8 then
    .error (.text ("tcp data payload too short: " ++ toString raw.length))
  else .ok (ofBigEndian (raw.take 8), raw.drop 8)

/-! ### Decoding bytes of an untrusted peer -/

def frameLayout : List Field := [.uvarint, .bytes]
def authLayout : List Field := [.bytes, .fixed 8, .bytes, .bytes, .fixed 8]
def openLayout : List Field := [.fixed 8, .bytes, .bytes, .fixed 2]

theorem readFrame_follows : readFrame.Follows frameLayout := by
  rw [readFrame_eq]
  exact Reader.readUvarint_reads.bind fun type =>
    Reader.readSlice_reads.bind fun payload => Reader.follows_nil fun s => Reader.not_panics_pure

theorem expectEnd_follows {α : Type} (message : String) (a : α) :
    (expectEnd message >>= fun _ => pure a).Follows [] := by
  refine Reader.follows_nil fun s hpanic => ?_
  obtain hcheck | ⟨_, t, -, hpure⟩ := Reader.panics_bind.mp hpanic
  · obtain hget | ⟨_, t, -, hfail⟩ := Reader.panics_bind.mp hcheck
    · cases hget
    · split_ifs at hfail <;> cases hfail
  · exact Reader.not_panics_pure hpure

theorem readAuthPayload_follows : readAuthPayload.Follows authLayout :=
  (Reader.readBytes_reads.mapError _).bind fun _ =>
  ((Reader.readBigEndian_reads 8).mapError _).bind fun _ =>
  (Reader.readBytes_reads.mapError _).bind fun _ =>
  (Reader.readBytes_reads.mapError _).bind fun _ =>
  ((Reader.readBigEndian_reads 8).mapError _).bind fun _ => expectEnd_follows _ _

theorem readOpenPayload_follows : readOpenPayload.Follows openLayout :=
  ((Reader.readBigEndian_reads 8).mapError _).bind fun _ =>
  (Reader.readBytes_reads.mapError _).bind fun _ =>
  (Reader.readBytes_reads.mapError _).bind fun _ =>
  ((Reader.readBigEndian_reads 2).mapError _).bind fun _ => expectEnd_follows _ _

theorem follows_returns_iff {ε α : Type} {p : Reader ε α} {fields : List Field}
    (hp : p.Follows fields) (s : Source) :
    Returns (p s) ↔ ∀ n ∈ Field.lengths fields s.data, n ≤ maxAlloc := by
  rw [returns_iff_ne_panic, ← not_iff_not, not_not]
  simpa [Reader.Panics] using hp s

theorem decodePayload_returns_iff {α : Type} {p : Reader DecodeError α} {fields : List Field}
    (hp : p.Follows fields) (raw : Bytes) :
    Returns (decodePayload p raw) ↔ ∀ n ∈ Field.lengths fields raw, n ≤ maxAlloc := by
  rw [← follows_returns_iff hp ⟨raw, .eof⟩, decodePayload]
  rcases p ⟨raw, .eof⟩ with (e | _) | r <;> simp [Returns, Except.map]

/-- The three readers return a value or an error exactly when no announced
length that they reach is beyond what can be allocated. -/
theorem decoders_return_iff (raw : Bytes) (fault : ReadError) :
    (Returns (readFrame ⟨raw, fault⟩) ↔ ∀ n ∈ Field.lengths frameLayout raw, n ≤ maxAlloc) ∧
      (Returns (decodeAuthPayload raw) ↔ ∀ n ∈ Field.lengths authLayout raw, n ≤ maxAlloc) ∧
      (Returns (decodeOpenPayload raw) ↔ ∀ n ∈ Field.lengths openLayout raw, n ≤ maxAlloc) :=
  ⟨follows_returns_iff readFrame_follows ⟨raw, fault⟩,
    decodePayload_returns_iff readAuthPayload_follows raw,
    decodePayload_returns_iff readOpenPayload_follows raw⟩

/-- The longest length a prefix can announce, in ten bytes. -/
def hugeLength : Bytes := [0xff, 0xff, 0xff, 0xff, 0xff, 0xff, 0xff, 0xff, 0xff, 0x01]

theorem hugeLength_panics :
    ¬Returns (readFrame ⟨0x01 :: hugeLength, .eof⟩) ∧
      ¬Returns (decodeAuthPayload hugeLength) ∧
      ¬Returns (decodeOpenPayload ([0, 0, 0, 0, 0, 0, 0, 1] ++ hugeLength)) := by
  simp only [returns_iff_ne_panic, not_not]
  exact ⟨by decide, by decide, by decide⟩

end VlfProto.Session
