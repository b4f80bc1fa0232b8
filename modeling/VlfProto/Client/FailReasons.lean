import VlfProto.Session.Datagram
import VlfProto.Session.Payloads

/-! # The client's decoders of failures -/

namespace VlfProto.Client
open Platform Session List

/-- The loop of `binary.Uvarint` at index `i`, with the bits gathered so far: the value and the
number of bytes read, which is not positive if there is no value. -/
def uvarintFrom : Bytes → (i x shift : ℕ) → ℕ × ℤ
  | [], _, _, _ => (0, 0)
  | b :: buf, i, x, shift =>
    if i = 10 then (0, -(i + 1))
    else if b < 0x80 then
      if i = 9 ∧ 1 < b then (0, -(i + 1)) else (x ||| (b.toNat <<< shift) % 2 ^ 64, i + 1)
    else uvarintFrom buf (i + 1) (x ||| ((b &&& 0x7f).toNat <<< shift) % 2 ^ 64) (shift + 7)

def uvarint (buf : Bytes) : ℕ × ℤ := uvarintFrom buf 0 0 0

/-- A slice expression; `none` is a panic. -/
def slice? (b : Bytes) (lo hi : ℤ) : Option Bytes :=
  if 0 ≤ lo ∧ lo ≤ hi ∧ hi ≤ b.length then some ((b.take hi.toNat).drop lo.toNat) else none

/-- The reason of AUTH_FAIL; `none` is a panic, here and below. -/
def decodeAuthFailReason (payload : Bytes) : Option Bytes :=
  if payload.length = 0 then some []
  else
    let ln := (uvarint payload).1
    let n := (uvarint payload).2
    if n ≤ 0 ∨ payload.length < wrapInt64 (toInt64 ln + n) then some payload
    else slice? payload n (wrapInt64 (n + toInt64 ln))

def decodeFailPayload (payload : Bytes) : Option (ℕ × Bytes) :=
  if payload.length < 8 then some (0, payload)
  else
    let flowID := ofBigEndian (payload.take 8)
    if payload.length = 8 then some (flowID, [])
    else
      let ln := (uvarint (payload.drop 8)).1
      let n := (uvarint (payload.drop 8)).2
      if n ≤ 0 then some (flowID, [])
      else
        let start := 8 + n
        let stop := wrapInt64 (start + toInt64 ln)
        if payload.length < start ∨ payload.length < stop then some (flowID, [])
        else (slice? payload start stop).map (flowID, ·)

variable {buf payload rest : Bytes} {offset start ln : ℕ}

theorem uvarintFrom_eq (buf : Bytes) (i x shift : ℕ) (hi : i ≤ 10) :
    match Reader.uvarintLoop .eof buf i x shift with
    | .ok (v, s) => uvarintFrom buf i x shift = (v, (i + buf.length : ℤ) - s.data.length)
    | .error _ => (uvarintFrom buf i x shift).2 ≤ 0 := by
  induction buf generalizing i x shift with
  | nil =>
    rw [Reader.uvarintLoop]
    split_ifs <;> exact le_rfl
  | cons b buf ih =>
    rw [Reader.uvarintLoop, uvarintFrom]
    rcases Nat.lt_or_ge i 10 with hlt | hge
    · rw [if_neg (not_le.mpr hlt), if_neg hlt.ne]
      split_ifs with hlast hbig
      · simp only [Left.neg_nonpos_iff]
        omega
      · simp only [length_cons, Prod.mk.injEq, true_and]
        omega
      · have hrest := ih (i + 1) (x ||| ((b &&& 0x7f).toNat <<< shift) % 2 ^ 64) (shift + 7) hlt
        revert hrest
        cases Reader.uvarintLoop .eof buf (i + 1)
          (x ||| ((b &&& 0x7f).toNat <<< shift) % 2 ^ 64) (shift + 7) with
        | error e => exact id
        | ok r =>
          intro hrest
          dsimp only at hrest ⊢
          rw [hrest, length_cons]
          push_cast
          congr 1
          ring
    · rw [if_pos hge, if_pos (by omega)]
      simp only [Left.neg_nonpos_iff]
      omega

theorem uvarint_of_some (h : uvarint? buf = some (ln, rest)) :
    uvarint buf = (ln, (buf.length : ℤ) - rest.length) := by
  have hread : Reader.uvarintLoop .eof buf 0 0 0 = .ok (ln, ⟨rest, .eof⟩) :=
    Reader.readUvarint_ok_iff (s := ⟨buf, .eof⟩).mpr ⟨h, rfl⟩
  have hloop := uvarintFrom_eq buf 0 0 0 (by norm_num)
  rw [hread] at hloop
  rw [uvarint]
  simpa using hloop

theorem uvarint_of_none (h : uvarint? buf = none) : (uvarint buf).2 ≤ 0 := by
  have hloop := uvarintFrom_eq buf 0 0 0 (by norm_num)
  rcases hread : Reader.uvarintLoop .eof buf 0 0 0 with e | ⟨v, s⟩
  · rw [hread] at hloop
    exact hloop
  · have hsome := (Reader.readUvarint_ok_iff (s := ⟨buf, .eof⟩).mp hread).1
    exact absurd (h.symm.trans hsome) nofun

theorem uvarint?_bounds (h : uvarint? buf = some (ln, rest)) :
    ln < 2 ^ 64 ∧ rest.length < buf.length ∧ buf.length ≤ rest.length + 10 := by
  obtain ⟨hvalue, hfits⟩ := Option.filter_eq_some_iff.mp h
  simp only [decide_eq_true_eq] at hfits
  exact ⟨hfits.2, base128?_length hvalue, hfits.1⟩

theorem stop_of_lt (h : start + ln < 2 ^ 63) :
    wrapInt64 (start + toInt64 ln) = (start + ln : ℕ) := by
  rw [toInt64, if_pos (by omega), wrapInt64, Int.bmod_eq_of_le] <;> omega

theorem stop_of_le (hstart : start ≤ 18) (hln : ln < 2 ^ 64)
    (h : 2 ^ 63 ≤ start + ln) : wrapInt64 (start + toInt64 ln) < start := by
  rw [toInt64, wrapInt64, Int.bmod_def]
  split_ifs <;> omega

theorem slice?_of_le {b : Bytes} (h : start + ln ≤ b.length) :
    slice? b start (start + ln : ℕ) = some ((b.drop start).take ln) := by
  rw [slice?, if_pos (by omega), Int.toNat_natCast, Int.toNat_natCast, drop_take,
    Nat.add_sub_cancel_left]

theorem slice?_of_lt {b : Bytes} {lo hi : ℤ} (h : hi < lo) : slice? b lo hi = none :=
  if_neg fun hle => absurd hle.2.1 (not_le.mpr h)

/-- The length field at `offset` announces a reason that ends past the range of a signed word. -/
def AnnouncesOverflow (offset : ℕ) (payload : Bytes) : Prop :=
  ∃ ln rest, uvarint? (payload.drop offset) = some (ln, rest) ∧
    2 ^ 63 ≤ payload.length - rest.length + ln

theorem announcesOverflow_iff_of_some
    (h : uvarint? (payload.drop offset) = some (ln, rest)) :
    AnnouncesOverflow offset payload ↔ 2 ^ 63 ≤ payload.length - rest.length + ln := by
  constructor
  · rintro ⟨ln', rest', h', hbig⟩
    obtain ⟨rfl, rfl⟩ := Prod.mk.inj (Option.some.inj (h.symm.trans h'))
    exact hbig
  · exact fun hbig => ⟨ln, rest, h, hbig⟩

theorem not_announcesOverflow_of_none (h : uvarint? (payload.drop offset) = none) :
    ¬AnnouncesOverflow offset payload := by
  rintro ⟨ln, rest, h', -⟩
  exact absurd (h.symm.trans h') nofun

theorem decodeAuthFailReason_of_some (h : uvarint? payload = some (ln, rest))
    (hstart : payload.length = start + rest.length) :
    decodeAuthFailReason payload =
      if 2 ^ 63 ≤ start + ln then none
      else some (if rest.length < ln then payload else (payload.drop start).take ln) := by
  obtain ⟨hln, hpos, hten⟩ := uvarint?_bounds h
  have hn : (payload.length : ℤ) - rest.length = start := by omega
  rw [decodeAuthFailReason, if_neg (by omega), uvarint_of_some h, hn]
  dsimp only
  rw [add_comm (toInt64 ln)]
  rcases Nat.lt_or_ge (start + ln) (2 ^ 63) with hsmall | hbig
  · rw [stop_of_lt hsmall, if_neg (not_le.mpr hsmall)]
    by_cases hlong : rest.length < ln
    · rw [if_pos (.inr (by omega)), if_pos hlong]
    · rw [if_neg (by omega), if_neg hlong, slice?_of_le (by omega)]
  · have hstop := stop_of_le (by omega) hln hbig
    rw [if_neg (by omega), if_pos hbig, slice?_of_lt hstop]

theorem decodeAuthFailReason_of_none (h : uvarint? payload = none) :
    (decodeAuthFailReason payload).isSome := by
  rw [decodeAuthFailReason]
  split_ifs with hempty
  · rfl
  · dsimp only
    rw [if_pos (.inl (uvarint_of_none h))]
    rfl

theorem decodeFailPayload_of_some (h : uvarint? (payload.drop 8) = some (ln, rest))
    (hstart : payload.length = start + rest.length) :
    decodeFailPayload payload =
      if 2 ^ 63 ≤ start + ln then none
      else some (ofBigEndian (payload.take 8),
        if rest.length < ln then [] else (payload.drop start).take ln) := by
  obtain ⟨hln, hpos, hten⟩ := uvarint?_bounds h
  rw [length_drop] at hpos hten
  have hn : 8 + (((payload.drop 8).length : ℤ) - rest.length) = start := by
    rw [length_drop]
    omega
  rw [decodeFailPayload, if_neg (by omega), if_neg (by omega), uvarint_of_some h]
  dsimp only
  rw [if_neg (by rw [length_drop]; omega), hn]
  rcases Nat.lt_or_ge (start + ln) (2 ^ 63) with hsmall | hbig
  · rw [stop_of_lt hsmall, if_neg (not_le.mpr hsmall)]
    by_cases hlong : rest.length < ln
    · rw [if_pos (.inr (by omega)), if_pos hlong]
    · rw [if_neg (by omega), if_neg hlong, slice?_of_le (by omega)]
      rfl
  · have hstop := stop_of_le (by omega) hln hbig
    rw [if_neg (by omega), if_pos hbig, slice?_of_lt hstop]
    rfl

theorem decodeFailPayload_of_none (h : uvarint? (payload.drop 8) = none) :
    (decodeFailPayload payload).isSome := by
  rw [decodeFailPayload]
  split_ifs with hshort hempty
  · rfl
  · rfl
  · dsimp only
    rw [if_pos (uvarint_of_none h)]
    rfl

theorem isSome_iff_not_announcesOverflow {α : Type} {r : Option α} (offset : ℕ)
    (hnone : uvarint? (payload.drop offset) = none → r.isSome)
    (hsome : ∀ ln rest start, uvarint? (payload.drop offset) = some (ln, rest) →
      payload.length = start + rest.length →
        ∃ a, r = if 2 ^ 63 ≤ start + ln then none else some a) :
    r.isSome ↔ ¬AnnouncesOverflow offset payload := by
  rcases h : uvarint? (payload.drop offset) with _ | ⟨ln, rest⟩
  · exact iff_of_true (hnone h) (not_announcesOverflow_of_none h)
  · have hlength := (uvarint?_bounds h).2.1
    rw [length_drop] at hlength
    obtain ⟨a, ha⟩ := hsome ln rest (payload.length - rest.length) h (by omega)
    rw [announcesOverflow_iff_of_some h, ha]
    split_ifs with hbig
    · exact iff_of_false nofun (not_not.mpr hbig)
    · exact iff_of_true rfl hbig

/-- Each decoder returns exactly on the payloads that do not announce too much. -/
theorem failDecoders_return_iff (payload : Bytes) :
    ((decodeAuthFailReason payload).isSome ↔ ¬AnnouncesOverflow 0 payload) ∧
      ((decodeFailPayload payload).isSome ↔ ¬AnnouncesOverflow 8 payload) := by
  constructor
  · exact isSome_iff_not_announcesOverflow 0 decodeAuthFailReason_of_none
      fun _ _ _ h hstart => ⟨_, decodeAuthFailReason_of_some h hstart⟩
  · exact isSome_iff_not_announcesOverflow 8 decodeFailPayload_of_none
      fun _ _ _ h hstart => ⟨_, decodeFailPayload_of_some h hstart⟩

/-- The length `2 ^ 64 - 1` reads as minus one, and both decoders slice backwards. -/
theorem hostile_lengths_panic :
    decodeAuthFailReason (putUvarint (2 ^ 64 - 1)) = none ∧
      decodeFailPayload (bigEndian 8 1 ++ putUvarint (2 ^ 64 - 1)) = none := by
  decide +kernel

theorem uvarint?_writeBytes {reason : Bytes} (h : reason.length ≤ maxAlloc) :
    uvarint? (writeBytes reason) = some (reason.length, reason) := by
  have hlength : reason.length < 2 ^ 64 := lt_of_le_of_lt h (by norm_num [maxAlloc])
  exact (Reader.readUvarint_ok_iff.mp (Reader.putUvarint_consumes hlength reason .eof)).1

theorem decodeAuthFailReason_encode {reason : Bytes} (h : reason.length ≤ maxAlloc) :
    decodeAuthFailReason (encodeAuthFail reason) = some reason := by
  have hvalue := uvarint?_writeBytes h
  have hten := (uvarint?_bounds hvalue).2.2
  rw [writeBytes, length_append] at hten
  rw [maxAlloc] at h
  rw [encodeAuthFail, decodeAuthFailReason_of_some hvalue length_append,
    if_neg (by omega), if_neg (lt_irrefl _), writeBytes, drop_left, take_length]

theorem decodeFailPayload_encode {p : FailPayload} (hflow : p.flowID < 2 ^ 64)
    (h : p.reason.length ≤ maxAlloc) :
    decodeFailPayload (encodeFailPayload p) = some (p.flowID, p.reason) := by
  have hlength : (bigEndian 8 p.flowID).length = 8 := length_bigEndian ..
  have hvalue := uvarint?_writeBytes h
  have hten := (uvarint?_bounds hvalue).2.2
  rw [writeBytes, length_append] at hten
  rw [maxAlloc] at h
  have hdrop : (encodeFailPayload p).drop 8 = writeBytes p.reason := drop_left' hlength
  have hassoc : encodeFailPayload p =
      (bigEndian 8 p.flowID ++ putUvarint p.reason.length) ++ p.reason := by
    rw [encodeFailPayload, writeBytes, append_assoc]
  rw [decodeFailPayload_of_some (hdrop ▸ hvalue) (hassoc ▸ length_append),
    if_neg (by rw [length_append]; omega), if_neg (lt_irrefl _)]
  nth_rewrite 2 [hassoc]
  rw [drop_left, take_length, encodeFailPayload, take_left' hlength,
    ofBigEndian_bigEndian hflow]

/-- Every payload reads back, nothing else near an AUTH, OPEN or CLOSE_FLOW payload is read, and
the client reads the reasons that the gateway writes. -/
theorem payload_codecs_exact (auth : AuthPayload) (request : OpenPayload) (ok : OpenOKPayload)
    (fail : FailPayload) (flowID : ℕ) (data reason : Bytes) (packet : DatagramPacket)
    (hauth : auth.Fits) (hrequest : request.Fits) (hok : ok.flowID < 2 ^ 64)
    (hfail : fail.flowID < 2 ^ 64 ∧ fail.reason.length ≤ maxAlloc) (hflowID : flowID < 2 ^ 64)
    (hreason : reason.length ≤ maxAlloc) :
    DecodesExactly decodeAuthPayload (encodeAuthPayload auth) auth ∧
      DecodesExactly decodeOpenPayload (encodeOpenPayload request) request ∧
      DecodesExactly (fun raw => (decodeCloseFlowPayload raw).mapError Stop.error)
        (encodeCloseFlowPayload flowID) flowID ∧
      decodeOpenOKPayload (encodeOpenOKPayload ok) = .ok ok ∧
      decodeTCPDataPayload (encodeTCPDataPayload flowID data) = .ok (flowID, data) ∧
      decodeDatagramPacket (encodeDatagramPacket packet) = .ok packet ∧
      decodeFailPayload (encodeFailPayload fail) = some (fail.flowID, fail.reason) ∧
      decodeAuthFailReason (encodeAuthFail reason) = some reason :=
  ⟨decodePayload_decodesExactly (readAuthPayload_decodes hauth),
    decodePayload_decodesExactly (readOpenPayload_decodes hrequest),
    decodeCloseFlowPayload_decodesExactly hflowID, decodeOpenOKPayload_encode hok,
    decodeTCPDataPayload_encode hflowID data, decode_encodeDatagramPacket packet,
    decodeFailPayload_encode hfail.1 hfail.2, decodeAuthFailReason_encode hreason⟩

theorem payload_codecs_exact_small :
    decodeFailPayload (encodeFailPayload ⟨7, ascii "limit"⟩) = some (7, ascii "limit") ∧
      DecodesExactly decodeOpenPayload (encodeOpenPayload ⟨7, ascii "host", [], 443⟩)
        ⟨7, ascii "host", [], 443⟩ := by
  have hexact := payload_codecs_exact ⟨ascii "client", 1, ascii "nonce", [], 0⟩
    ⟨7, ascii "host", [], 443⟩ ⟨7, 0⟩ ⟨7, ascii "limit"⟩ 7 [] (ascii "replay") ⟨7, 0, 1, []⟩
    ⟨by decide, by decide, by decide +kernel, by decide +kernel, by decide⟩
    ⟨by decide, by decide, by decide +kernel, by decide⟩ (by decide) (by decide +kernel)
    (by decide) (by decide +kernel)
  exact ⟨hexact.2.2.2.2.2.2.1, hexact.2.1⟩

end VlfProto.Client
