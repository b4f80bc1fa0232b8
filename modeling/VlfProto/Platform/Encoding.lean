import VlfProto.Platform.Layout

/-!
# Writers and the readers that invert them

A reader inverts an encoding when it consumes exactly these bytes, whatever follows, and
refuses them when they are cut short. Both properties are established one field at a time.
-/
namespace VlfProto.Platform

/-- The loop of `PutUvarint`, with the rounds that are left after this one. -/
def putUvarintLoop : (rounds x : ℕ) → Bytes
  | 0, x => [x.toUInt8]
  | rounds + 1, x =>
    if x < 0x80 then [x.toUInt8] else (x.toUInt8 ||| 0x80) :: putUvarintLoop rounds (x >>> 7)

/-- A 64-bit word takes at most ten bytes. -/
def putUvarint (x : ℕ) : Bytes := putUvarintLoop 9 x

def writeBytes (data : Bytes) : Bytes := putUvarint data.length ++ data

private theorem toNat_last {x : ℕ} (hx : x < 128) : x.toUInt8.toNat = x := by
  simp only [Nat.toUInt8_eq, UInt8.toNat_ofNat']
  omega

private theorem toNat_more (x : ℕ) : (x.toUInt8 ||| 0x80).toNat = x % 128 + 128 := by
  have hbits : ∀ b : Fin 256, b.val ||| 128 = b.val % 128 + 128 := by decide +kernel
  have hbyte : x % 256 ||| 128 = x % 256 % 128 + 128 :=
    hbits ⟨x % 256, Nat.mod_lt _ (by norm_num)⟩
  simp only [UInt8.toNat_or, Nat.toUInt8_eq, UInt8.toNat_ofNat']
  change x % 256 ||| 128 = _
  rw [hbyte]
  omega

theorem length_putUvarintLoop_le (rounds x : ℕ) :
    (putUvarintLoop rounds x).length ≤ rounds + 1 := by
  induction rounds generalizing x with
  | zero => rfl
  | succ rounds ih =>
    rw [putUvarintLoop]
    split_ifs
    · simp
    · simpa using ih (x >>> 7)

theorem base128?_putUvarintLoop {rounds x : ℕ} (hx : x < 128 ^ (rounds + 1)) (rest : Bytes) :
    base128? (putUvarintLoop rounds x ++ rest) = some (x, rest) := by
  induction rounds generalizing x with
  | zero =>
    have hlast := toNat_last (x := x) (by simpa using hx)
    have hbyte : x.toUInt8 < 0x80 := by
      rw [UInt8.lt_iff_toNat_lt, hlast]
      simpa using hx
    simp only [putUvarintLoop, List.singleton_append, base128?, if_pos hbyte, hlast]
  | succ rounds ih =>
    rw [putUvarintLoop]
    split_ifs with hsmall
    · have hbyte : x.toUInt8 < 0x80 := by
        rw [UInt8.lt_iff_toNat_lt, toNat_last hsmall]
        exact hsmall
      simp only [List.singleton_append, base128?, if_pos hbyte, toNat_last hsmall]
    · have hbyte : ¬(x.toUInt8 ||| 0x80) < 0x80 := by
        rw [UInt8.lt_iff_toNat_lt, toNat_more]
        exact not_lt.mpr (Nat.le_add_left _ _)
      have hshift : x >>> 7 = x / 128 := Nat.shiftRight_eq_div_pow x 7
      have hdiv : x >>> 7 < 128 ^ (rounds + 1) := by
        rw [hshift, Nat.div_lt_iff_lt_mul (by norm_num), ← pow_succ]
        exact hx
      rw [List.cons_append, base128?, if_neg hbyte, ih hdiv, toNat_more, hshift]
      simp only [Option.map_some, Option.some.injEq, Prod.mk.injEq, and_true]
      omega

/-- Bytes that all announce another one hold no integer. -/
theorem base128?_cut {rounds x : ℕ} {data : Bytes} (hcut : data <+: putUvarintLoop rounds x)
    (hne : data ≠ putUvarintLoop rounds x) : base128? data = none := by
  induction rounds generalizing x data with
  | zero =>
    rcases data with _ | ⟨b, data⟩
    · rfl
    · rw [putUvarintLoop, List.cons_prefix_cons, List.prefix_nil] at hcut
      exact absurd (by rw [hcut.1, hcut.2]; rfl) hne
  | succ rounds ih =>
    rw [putUvarintLoop] at hcut hne
    rcases data with _ | ⟨b, data⟩
    · rfl
    · split_ifs at hcut hne with hsmall
      · rw [List.cons_prefix_cons, List.prefix_nil] at hcut
        exact absurd (by rw [hcut.1, hcut.2]) hne
      · obtain ⟨rfl, hcut'⟩ := List.cons_prefix_cons.mp hcut
        have hbyte : ¬(x.toUInt8 ||| 0x80) < 0x80 := by
          rw [UInt8.lt_iff_toNat_lt, toNat_more]
          exact not_lt.mpr (Nat.le_add_left _ _)
        rw [base128?, if_neg hbyte, ih hcut' fun heq => hne (by rw [heq]), Option.map_none]

namespace Reader

variable {ε δ α β : Type} {p : Reader ε α} {f : α → Reader ε β} {a : α} {b : β}
  {enc enc' : Bytes} {n : ℕ} {g : ε → δ} {data : Bytes}

/-- The reader consumes exactly `enc` and returns `a`. -/
def Consumes (p : Reader ε α) (enc : Bytes) (a : α) : Prop :=
  ∀ rest fault, p ⟨enc ++ rest, fault⟩ = .ok (a, ⟨rest, fault⟩)

/-- The reader returns `a` on exactly `enc`, with nothing left. -/
def Finishes (p : Reader ε α) (enc : Bytes) (a : α) : Prop :=
  ∀ fault, p ⟨enc, fault⟩ = .ok (a, ⟨[], fault⟩)

/-- The reader returns an error on a proper prefix of `enc`. -/
def RefusesCut (p : Reader ε α) (enc : Bytes) : Prop :=
  ∀ data fault, data <+: enc → data ≠ enc → ∃ e, p ⟨data, fault⟩ = .error (.error e)

theorem consumes_pure (a : α) : (pure a : Reader ε α).Consumes [] a := fun _ _ => rfl

theorem Consumes.bind (hp : p.Consumes enc a) (hf : (f a).Consumes enc' b) :
    (p >>= f).Consumes (enc ++ enc') b := by
  intro rest fault
  rw [bind_eq, List.append_assoc, hp]
  exact hf rest fault

theorem Consumes.finishes_bind (hp : p.Consumes enc a) (hf : (f a).Finishes enc' b) :
    (p >>= f).Finishes (enc ++ enc') b := by
  intro fault
  rw [bind_eq, hp]
  exact hf fault

theorem Consumes.mapError (hp : p.Consumes enc a) : (p.mapError g).Consumes enc a :=
  fun rest fault => mapError_ok_iff.mpr (hp rest fault)

theorem refusesCut_nil : p.RefusesCut [] :=
  fun _ _ hcut hne => absurd (List.prefix_nil.mp hcut) hne

/-- Bytes cut short within the first part, or after it. -/
theorem RefusesCut.bind (hp : p.RefusesCut enc) (hconsumes : p.Consumes enc a)
    (hf : (f a).RefusesCut enc') : (p >>= f).RefusesCut (enc ++ enc') := by
  intro data fault hcut hne
  rw [bind_eq]
  rcases le_total enc.length data.length with hlong | hshort
  · obtain ⟨later, rfl⟩ := List.prefix_of_prefix_length_le (List.prefix_append enc enc') hcut hlong
    rw [hconsumes later fault]
    exact hf later fault ((List.prefix_append_right_inj enc).mp hcut) fun heq => hne (by rw [heq])
  · have hfirst := List.prefix_of_prefix_length_le hcut (List.prefix_append enc enc') hshort
    by_cases hwhole : data = enc
    · have hlater : enc' ≠ [] := by
        rintro rfl
        exact hne (by rw [hwhole, List.append_nil])
      have hconsumed := hconsumes [] fault
      rw [List.append_nil, ← hwhole] at hconsumed
      rw [hconsumed]
      exact hf [] fault List.nil_prefix hlater.symm
    · obtain ⟨e, he⟩ := hp data fault hfirst hwhole
      exact ⟨e, by rw [he]⟩

theorem RefusesCut.mapError (hp : p.RefusesCut enc) : (p.mapError g).RefusesCut enc := by
  intro data fault hcut hne
  obtain ⟨e, he⟩ := hp data fault hcut hne
  exact ⟨g e, by rw [Reader.mapError, he]⟩

theorem putUvarint_consumes (hn : n < 2 ^ 64) : readUvarint.Consumes (putUvarint n) n := by
  intro rest fault
  have hlength := length_putUvarintLoop_le 9 n
  have hvalue : base128? (putUvarint n ++ rest) = some (n, rest) :=
    base128?_putUvarintLoop (lt_trans hn (by norm_num)) rest
  refine readUvarint_ok_iff.mpr ⟨?_, rfl⟩
  rw [uvarint?, hvalue, Option.filter_some, if_pos]
  simp only [decide_eq_true_eq, List.length_append]
  exact ⟨by rw [putUvarint]; omega, hn⟩

theorem putUvarint_refusesCut (n : ℕ) : readUvarint.RefusesCut (putUvarint n) := by
  intro data fault hcut hne
  rcases hread : readUvarint ⟨data, fault⟩ with (e | _) | ⟨v, t⟩
  · exact ⟨e, rfl⟩
  · exact absurd hread not_panics_readUvarint
  · have hvalue := (readUvarint_ok_iff.mp hread).1
    rw [uvarint?, base128?_cut hcut hne] at hvalue
    cases hvalue

theorem readFull_consumes (data : Bytes) : (readFull data.length).Consumes data data := by
  intro rest fault
  refine readFull_ok_iff.mpr ⟨by simp, ?_, ?_⟩ <;> simp

theorem readFull_refusesCut (enc : Bytes) : (readFull enc.length).RefusesCut enc := by
  intro data fault hcut hne
  have hshort : data.length < enc.length :=
    lt_of_le_of_ne hcut.length_le fun hlength => hne (hcut.eq_of_length hlength)
  rcases hread : readFull enc.length ⟨data, fault⟩ with (e | _) | ⟨raw, t⟩
  · exact ⟨e, rfl⟩
  · exact absurd hread not_panics_readFull
  · exact absurd (readFull_ok_iff.mp hread).1 (not_le.mpr hshort)

theorem bigEndian_consumes {width : ℕ} (hn : n < 256 ^ width) :
    (readBigEndian width).Consumes (bigEndian width n) n := by
  have hraw := readFull_consumes (bigEndian width n)
  rw [length_bigEndian] at hraw
  have hvalue := hraw.bind (f := fun raw => pure (ofBigEndian raw)) (consumes_pure _)
  rw [ofBigEndian_bigEndian hn, List.append_nil] at hvalue
  exact hvalue

/-- A slice that was allocated by the writer can be allocated by the reader. -/
theorem makeSlice_consumes (hn : n ≤ maxAlloc) : (makeSlice n : Reader ε Unit).Consumes [] () :=
  fun _ _ => makeSlice_ok_iff.mpr ⟨hn, rfl⟩

theorem writeSlice_consumes (hdata : data.length ≤ maxAlloc) :
    (readUvarint >>= fun n => makeSlice n >>= fun _ => readFull n).Consumes
      (writeBytes data) data := by
  have hlength : data.length < 2 ^ 64 := lt_of_le_of_lt hdata (by norm_num [maxAlloc])
  exact (putUvarint_consumes hlength).bind
    ((makeSlice_consumes hdata).bind (readFull_consumes data))

theorem writeSlice_refusesCut (hdata : data.length ≤ maxAlloc) :
    (readUvarint >>= fun n => makeSlice n >>= fun _ => readFull n).RefusesCut
      (writeBytes data) := by
  have hlength : data.length < 2 ^ 64 := lt_of_le_of_lt hdata (by norm_num [maxAlloc])
  refine (putUvarint_refusesCut _).bind (putUvarint_consumes hlength) ?_
  exact refusesCut_nil.bind (makeSlice_consumes hdata) (readFull_refusesCut data)

/-- One field: its reader consumes the encoding and refuses it when it is cut short. -/
structure Inverts (p : Reader ε α) (enc : Bytes) (a : α) : Prop where
  consumes : p.Consumes enc a
  refusesCut : p.RefusesCut enc

/-- A whole encoding: it is read back, and refused when it is cut short or when more follows. -/
structure Decodes (p : Reader ε α) (enc : Bytes) (a : α) : Prop where
  finishes : p.Finishes enc a
  refusesCut : p.RefusesCut enc
  refusesMore : ∀ extra fault, extra ≠ [] → ∃ e, p ⟨enc ++ extra, fault⟩ = .error (.error e)

theorem Inverts.mapError (hp : p.Inverts enc a) : (p.mapError g).Inverts enc a :=
  ⟨hp.consumes.mapError, hp.refusesCut.mapError⟩

theorem Inverts.bind (hp : p.Inverts enc a) (hf : (f a).Decodes enc' b) :
    (p >>= f).Decodes (enc ++ enc') b := by
  refine ⟨hp.consumes.finishes_bind hf.finishes, hp.refusesCut.bind hp.consumes hf.refusesCut, ?_⟩
  intro extra fault hextra
  rw [bind_eq, List.append_assoc, hp.consumes]
  exact hf.refusesMore extra fault hextra

theorem bigEndian_inverts {width : ℕ} (hn : n < 256 ^ width) :
    (readBigEndian width).Inverts (bigEndian width n) n := by
  refine ⟨bigEndian_consumes hn, ?_⟩
  have hcut := readFull_refusesCut (bigEndian width n)
  have hconsumes := readFull_consumes (bigEndian width n)
  rw [length_bigEndian] at hcut hconsumes
  have hvalue := hcut.bind hconsumes (f := fun raw => pure (ofBigEndian raw)) refusesCut_nil
  rw [List.append_nil] at hvalue
  exact hvalue

theorem writeBytes_inverts (hdata : data.length ≤ maxAlloc) :
    readBytes.Inverts (writeBytes data) data := by
  rw [readBytes_eq]
  exact ⟨writeSlice_consumes hdata, writeSlice_refusesCut hdata⟩

end Reader
end VlfProto.Platform
