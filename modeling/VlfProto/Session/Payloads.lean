import VlfProto.Auth.Verifier
import VlfProto.Platform.Encoding
import VlfProto.Session.Frame

/-! # Payloads that read back -/

namespace VlfProto.Session
open Platform List

def encodeAuthPayload (p : AuthPayload) : Bytes :=
  writeBytes p.clientID ++ (bigEndian 8 p.tsMS ++ (writeBytes p.nonce ++ (writeBytes p.sig ++
    bigEndian 8 p.caps)))

/-- The arguments that the gateway hands to `VerifySession`. -/
def sessionAuth (p : AuthPayload) : Auth.SessionAuth :=
  ⟨p.clientID, p.tsMS.toUInt64, p.nonce, p.sig, p.caps.toUInt64⟩

def encodeOpenPayload (p : OpenPayload) : Bytes :=
  bigEndian 8 p.flowID ++ (writeBytes p.dstHost ++ (writeBytes p.dstIP ++ bigEndian 2 p.dstPort))

/-- The fields of an AUTH payload fit their types. -/
structure AuthPayload.Fits (p : AuthPayload) : Prop where
  tsMS : p.tsMS < 2 ^ 64
  caps : p.caps < 2 ^ 64
  clientID : p.clientID.length ≤ maxAlloc
  nonce : p.nonce.length ≤ maxAlloc
  sig : p.sig.length ≤ maxAlloc

/-- The fields of an OPEN payload fit their types. -/
structure OpenPayload.Fits (p : OpenPayload) : Prop where
  flowID : p.flowID < 2 ^ 64
  dstPort : p.dstPort < 2 ^ 16
  dstHost : p.dstHost.length ≤ maxAlloc
  dstIP : p.dstIP.length ≤ maxAlloc

theorem expectEnd_decodes {α : Type} (message : String) (a : α) :
    (expectEnd message >>= fun _ => pure a).Decodes [] a := by
  refine ⟨fun _ => rfl, Reader.refusesCut_nil, fun extra fault hextra => ?_⟩
  cases extra with
  | nil => exact absurd rfl hextra
  | cons c extra => exact ⟨.text message, rfl⟩

theorem readAuthPayload_decodes {p : AuthPayload} (h : p.Fits) :
    readAuthPayload.Decodes (encodeAuthPayload p) p := by
  rw [encodeAuthPayload, ← append_nil (bigEndian 8 p.caps)]
  refine (Reader.writeBytes_inverts h.clientID).mapError.bind ?_
  refine (Reader.bigEndian_inverts h.tsMS).mapError.bind ?_
  refine (Reader.writeBytes_inverts h.nonce).mapError.bind ?_
  refine (Reader.writeBytes_inverts h.sig).mapError.bind ?_
  refine (Reader.bigEndian_inverts h.caps).mapError.bind ?_
  exact expectEnd_decodes _ _

theorem readOpenPayload_decodes {p : OpenPayload} (h : p.Fits) :
    readOpenPayload.Decodes (encodeOpenPayload p) p := by
  rw [encodeOpenPayload, ← append_nil (bigEndian 2 p.dstPort)]
  refine (Reader.bigEndian_inverts h.flowID).mapError.bind ?_
  refine (Reader.writeBytes_inverts h.dstHost).mapError.bind ?_
  refine (Reader.writeBytes_inverts h.dstIP).mapError.bind ?_
  refine (Reader.bigEndian_inverts h.dstPort).mapError.bind ?_
  exact expectEnd_decodes _ _

theorem decodePayload_of_finishes {α : Type} {p : Reader DecodeError α} {enc : Bytes} {a : α}
    (hp : p.Finishes enc a) : decodePayload p enc = .ok a := by
  rw [decodePayload, hp]
  rfl

theorem decodeAuthPayload_encode {p : AuthPayload} (hts : p.tsMS < 2 ^ 64) (hcaps : p.caps < 2 ^ 64)
    (halloc : (encodeAuthPayload p).length ≤ maxAlloc) :
    decodeAuthPayload (encodeAuthPayload p) = .ok p := by
  simp only [encodeAuthPayload, writeBytes, length_append] at halloc
  exact decodePayload_of_finishes
    (readAuthPayload_decodes ⟨hts, hcaps, by omega, by omega, by omega⟩).finishes

theorem decodeOpenPayload_encode {p : OpenPayload} (hflow : p.flowID < 2 ^ 64)
    (hport : p.dstPort < 2 ^ 16) (halloc : (encodeOpenPayload p).length ≤ maxAlloc) :
    decodeOpenPayload (encodeOpenPayload p) = .ok p := by
  simp only [encodeOpenPayload, writeBytes, length_append] at halloc
  exact decodePayload_of_finishes
    (readOpenPayload_decodes ⟨hflow, hport, by omega, by omega⟩).finishes

/-- A decoder returns `a` on `enc`, and an error on everything that `enc` extends or that extends
`enc`. -/
def DecodesExactly {α : Type} (decode : Bytes → Except (Stop DecodeError) α) (enc : Bytes)
    (a : α) : Prop :=
  decode enc = .ok a ∧ ∀ raw, raw ≠ enc → raw <+: enc ∨ enc <+: raw →
    ∃ e, decode raw = .error (.error e)

theorem decodePayload_decodesExactly {α : Type} {p : Reader DecodeError α} {enc : Bytes} {a : α}
    (hp : p.Decodes enc a) : DecodesExactly (decodePayload p) enc a := by
  refine ⟨decodePayload_of_finishes hp.finishes, fun raw hne hcut => ?_⟩
  have hrefused : ∃ e, p ⟨raw, .eof⟩ = .error (.error e) := by
    rcases hcut with hcut | ⟨extra, rfl⟩
    · exact hp.refusesCut raw .eof hcut hne
    · exact hp.refusesMore extra .eof fun hnil => hne (by rw [hnil, append_nil])
  obtain ⟨e, he⟩ := hrefused
  exact ⟨e, by rw [decodePayload, he]; rfl⟩

def encodeCloseFlowPayload (flowID : ℕ) : Bytes := bigEndian 8 flowID

structure OpenOKPayload where
  flowID : ℕ
  mode : UInt8

def encodeOpenOKPayload (p : OpenOKPayload) : Bytes := bigEndian 8 p.flowID ++ [p.mode]

def readOpenOKPayload : Reader ReadError OpenOKPayload := do
  let flowID ← Reader.readBigEndian 8
  let mode ← Reader.readByte
  return ⟨flowID, mode⟩

def decodeOpenOKPayload (raw : Bytes) : Except (Stop ReadError) OpenOKPayload :=
  (readOpenOKPayload ⟨raw, .eof⟩).map Prod.fst

def encodeTCPDataPayload (flowID : ℕ) (data : Bytes) : Bytes := bigEndian 8 flowID ++ data

structure FailPayload where
  flowID : ℕ
  reason : Bytes

def encodeFailPayload (p : FailPayload) : Bytes := bigEndian 8 p.flowID ++ writeBytes p.reason

def encodeAuthFail (reason : Bytes) : Bytes := writeBytes reason

theorem decodeCloseFlowPayload_encode {flowID : ℕ} (h : flowID < 2 ^ 64) :
    decodeCloseFlowPayload (encodeCloseFlowPayload flowID) = .ok flowID := by
  have hlength : (encodeCloseFlowPayload flowID).length = 8 := length_bigEndian ..
  rw [decodeCloseFlowPayload, if_neg (by simp [hlength])]
  exact congrArg _ (ofBigEndian_bigEndian h)

theorem decodeCloseFlowPayload_decodesExactly {flowID : ℕ} (h : flowID < 2 ^ 64) :
    DecodesExactly (fun raw => (decodeCloseFlowPayload raw).mapError Stop.error)
      (encodeCloseFlowPayload flowID) flowID := by
  refine ⟨congrArg (Except.mapError _) (decodeCloseFlowPayload_encode h), fun raw hne hcut => ?_⟩
  have hlength : (encodeCloseFlowPayload flowID).length = 8 := length_bigEndian ..
  have hraw : raw.length ≠ 8 := by
    intro hraw
    rcases hcut with hcut | hcut
    · exact hne (hcut.eq_of_length (hraw.trans hlength.symm))
    · exact hne (hcut.eq_of_length (hlength.trans hraw.symm)).symm
  exact ⟨_, congrArg (Except.mapError _) (if_pos hraw)⟩

theorem decodeOpenOKPayload_encode {p : OpenOKPayload} (h : p.flowID < 2 ^ 64) :
    decodeOpenOKPayload (encodeOpenOKPayload p) = .ok p := by
  rw [decodeOpenOKPayload, readOpenOKPayload, encodeOpenOKPayload, Reader.bind_eq,
    Reader.bigEndian_consumes h]
  rfl

theorem decodeTCPDataPayload_encode {flowID : ℕ} (h : flowID < 2 ^ 64) (data : Bytes) :
    decodeTCPDataPayload (encodeTCPDataPayload flowID data) = .ok (flowID, data) := by
  have hlength : (bigEndian 8 flowID).length = 8 := length_bigEndian ..
  rw [decodeTCPDataPayload, encodeTCPDataPayload, if_neg (by simp), take_left' hlength,
    drop_left' hlength, ofBigEndian_bigEndian h]

end VlfProto.Session
