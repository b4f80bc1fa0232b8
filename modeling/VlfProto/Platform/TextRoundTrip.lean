import VlfProto.Platform.Text

/-!
# Text that reads back

Fields joined by a separator can be told apart from the side on which no field contains it.
-/
namespace VlfProto.Platform
open Function Option List

/-- A fact about every byte can be checked byte by byte. -/
theorem forall_byte {P : UInt8 → Prop} (h : ∀ n : Fin 256, P (UInt8.ofFin n)) (c : UInt8) : P c :=
  h c.toFin

theorem hexDecode_hexEncode (data : Bytes) : hexDecode (hexEncode data) = some data := by
  have hbyte : ∀ c : UInt8, fromHexDigit (hexDigit (c / 16)) = some (c / 16) ∧
      fromHexDigit (hexDigit (c % 16)) = some (c % 16) ∧ 16 * (c / 16) + c % 16 = c :=
    forall_byte (by decide +kernel)
  induction data with
  | nil => rfl
  | cons c data ih =>
    obtain ⟨hhigh, hlow, hsum⟩ := hbyte c
    have hcons : hexEncode (c :: data) =
        hexDigit (c / 16) :: hexDigit (c % 16) :: hexEncode data := rfl
    rw [hcons, hexDecode, hhigh, hlow, ih]
    simp [hsum]

theorem decimal_of_lt {n : ℕ} (h : n < 10) : decimal n = [(n.digitChar).toNat.toUInt8] := by
  rw [decimal, Nat.toDigits_of_lt_base h]
  rfl

theorem decimal_of_le {n : ℕ} (h : 10 ≤ n) :
    decimal n = decimal (n / 10) ++ [((n % 10).digitChar).toNat.toUInt8] := by
  rw [decimal, Nat.toDigits_of_base_le (by norm_num) h, map_append]
  rfl

theorem pushDigit_digitChar {n : ℕ} (h : n < 10) (acc : ℕ) :
    pushDigit acc (n.digitChar).toNat.toUInt8 = some (10 * acc + n) := by
  have hdigit : ∀ n : Fin 10, 48 ≤ (n.val.digitChar).toNat.toUInt8 ∧
      (n.val.digitChar).toNat.toUInt8 ≤ 57 ∧
      (n.val.digitChar).toNat.toUInt8.toNat - 48 = n.val := by decide
  obtain ⟨hlo, hhi, hvalue⟩ := hdigit ⟨n, h⟩
  rw [pushDigit, if_pos ⟨hlo, hhi⟩, hvalue]

theorem foldlM_decimal (n : ℕ) : (decimal n).foldlM pushDigit 0 = some n := by
  induction n using Nat.strong_induction_on with
  | _ n ih =>
    rcases lt_or_ge n 10 with hn | hn
    · rw [decimal_of_lt hn, foldlM_cons, pushDigit_digitChar hn]
      simp
    · rw [decimal_of_le hn, foldlM_append, ih _ (by omega)]
      simp only [bind_eq_bind, bind_some, foldlM_cons, foldlM_nil,
        pushDigit_digitChar (Nat.mod_lt n (by norm_num))]
      exact congrArg some (by omega)

theorem decimal_ne_nil (n : ℕ) : decimal n ≠ [] := by
  simp [decimal, Nat.toDigits_ne_nil]

theorem parseDigits_decimal (n : ℕ) : parseDigits (decimal n) = some n := by
  rw [parseDigits, if_neg (decimal_ne_nil n), foldlM_decimal]

/-- A decimal number starts with a digit, not with a sign. -/
theorem parseInt64_decimal (n : ℕ) :
    parseInt64 (decimal n) = if n < 2 ^ 63 then some (n : ℤ) else none := by
  have hvalue := parseDigits_decimal n
  rcases hdigits : decimal n with _ | ⟨c, digits⟩
  · exact absurd hdigits (decimal_ne_nil n)
  · have hfold := foldlM_decimal n
    rw [hdigits, foldlM_cons] at hfold
    have hdigit : 48 ≤ c := by
      by_contra hlow
      rw [pushDigit, if_neg fun hc => hlow hc.1] at hfold
      cases hfold
    rw [hdigits] at hvalue
    unfold parseInt64
    split
    case h_1 _ _ hsign | h_2 _ _ hsign =>
      cases hsign
      exact absurd hdigit (by decide)
    case h_3 => rw [hvalue, bind_some]

theorem parseInt64_decimalInt {z : ℤ} (hlo : -2 ^ 63 ≤ z) (hhi : z < 2 ^ 63) :
    parseInt64 (decimalInt z) = some z := by
  cases z with
  | ofNat n =>
    rw [decimalInt, parseInt64_decimal, if_pos (by simp at hhi; omega)]
    rfl
  | negSucc n =>
    change (parseDigits (decimal (n + 1))).bind _ = _
    rw [parseDigits_decimal, bind_some, if_pos (by omega)]
    rfl

/-- Every byte is a visible ASCII character. -/
def Graphic (b : Bytes) : Prop := ∀ c ∈ b, 0x20 < c ∧ c < 0x7f

instance (b : Bytes) : Decidable (Graphic b) :=
  List.decidableBAll (fun c => 0x20 < c ∧ c < 0x7f) b

theorem Graphic.append {b b' : Bytes} (h : Graphic b) (h' : Graphic b') : Graphic (b ++ b') := by
  intro c hc
  rcases mem_append.mp hc with hc | hc
  · exact h c hc
  · exact h' c hc

theorem graphic_hexEncode (data : Bytes) : Graphic (hexEncode data) := by
  have hbyte : ∀ c : UInt8, Graphic [hexDigit (c / 16), hexDigit (c % 16)] :=
    forall_byte (by decide +kernel)
  intro c hc
  obtain ⟨c', -, hc⟩ := mem_flatMap.mp hc
  exact hbyte c' c hc

/-- The digits of a number in a base of at most sixteen. -/
def digitText (base n : ℕ) : Bytes := (Nat.toDigits base n).map fun c => c.toNat.toUInt8

theorem graphic_digitText {base : ℕ} (hlo : 1 < base) (hhi : base ≤ 16) (n : ℕ) :
    Graphic (digitText base n) := by
  have hdigit : ∀ n : Fin 16, Graphic [(n.val.digitChar).toNat.toUInt8] := by decide +kernel
  induction n using Nat.strong_induction_on with
  | _ n ih =>
    rcases lt_or_ge n base with hn | hn
    · rw [digitText, Nat.toDigits_of_lt_base hn]
      exact hdigit ⟨n, by omega⟩
    · have hmod := Nat.mod_lt n (by omega : base > 0)
      rw [digitText, Nat.toDigits_of_base_le hlo hn, map_append]
      exact (ih _ (Nat.div_lt_self (by omega) hlo)).append (hdigit ⟨n % base, by omega⟩)

theorem graphic_decimalInt (z : ℤ) : Graphic (decimalInt z) := by
  cases z with
  | ofNat n => exact graphic_digitText (by norm_num) (by norm_num) n
  | negSucc n =>
    have hsign : Graphic (ascii "-") := by decide +kernel
    exact hsign.append (graphic_digitText (by norm_num) (by norm_num) (n + 1))

theorem dropRunes_of_forall_not {runes : List Bytes} {b : Bytes} (h : ∀ r ∈ runes, ¬r <+: b)
    (fuel : ℕ) : dropRunes runes fuel b = b := by
  cases fuel with
  | zero => rfl
  | succ fuel =>
    have hnone : runes.find? (fun r => r.isPrefixOf b) = none :=
      List.find?_eq_none.mpr fun r hr hprefix => h r hr ( isPrefixOf_iff_prefix.mp hprefix)
    rw [dropRunes, hnone]

/-- No white space rune starts, or ends, with a visible character. -/
theorem dropRunes_of_graphic {runes : List Bytes} {b : Bytes}
    (hrunes : ∀ r ∈ runes, ∃ c, r.head? = some c ∧ ¬(0x20 < c ∧ c < 0x7f)) (h : Graphic b)
    (fuel : ℕ) : dropRunes runes fuel b = b := by
  refine dropRunes_of_forall_not (fun r hr hprefix => ?_) fuel
  obtain ⟨c, hc, hspace⟩ := hrunes r hr
  obtain ⟨rest, rfl⟩ := hprefix
  obtain ⟨tail, rfl⟩ := List.head?_eq_some_iff.mp hc
  exact hspace (h c (by simp))

theorem trimSpace_of_graphic {b : Bytes} (h : Graphic b) : trimSpace b = b := by
  have hreverse : Graphic b.reverse := fun c hc => h c (mem_reverse.mp hc)
  rw [trimSpace, trimLeft, dropRunes_of_graphic (by decide) h, trimRight,
    dropRunes_of_graphic (by decide) hreverse, reverse_reverse]

theorem dropRunes_spec (runes : List Bytes) (hrunes : ∀ r ∈ runes, r ≠ []) {fuel : ℕ}
    {b : Bytes} (h : b.length ≤ fuel) :
    dropRunes runes fuel b <:+ b ∧ ∀ r ∈ runes, ¬r <+: dropRunes runes fuel b := by
  induction fuel generalizing b with
  | zero =>
    obtain rfl := length_eq_zero_iff.mp (Nat.le_zero.mp h)
    exact ⟨suffix_rfl, fun r hr hprefix => hrunes r hr (prefix_nil.mp hprefix)⟩
  | succ fuel ih =>
    rw [dropRunes]
    split
    case h_1 hnone =>
      refine ⟨suffix_rfl, fun r hr hprefix => ?_⟩
      exact List.find?_eq_none.mp hnone r hr ( isPrefixOf_iff_prefix.mpr hprefix)
    case h_2 r hsome =>
      have hpos := length_pos_iff.mpr (hrunes r (mem_of_find?_eq_some hsome))
      obtain ⟨hsuffix, hnone⟩ := ih (b := b.drop r.length) (by rw [length_drop]; omega)
      exact ⟨hsuffix.trans (drop_suffix _ _), hnone⟩

theorem trimSpace_idem (b : Bytes) : trimSpace (trimSpace b) = trimSpace b := by
  have hleft := dropRunes_spec spaceRunes (by decide) (le_refl b.length)
  have hright := dropRunes_spec (spaceRunes.map List.reverse) (by decide)
    (@length_reverse _ (trimLeft b)).le
  have hprefix : trimSpace b <+: trimLeft b := by
    have hreverse := reverse_prefix.mpr hright.1
    rwa [reverse_reverse] at hreverse
  have hstart : trimLeft (trimSpace b) = trimSpace b :=
    dropRunes_of_forall_not (fun r hr hr' => hleft.2 r hr (hr'.trans hprefix)) _
  have hend : (trimSpace b).reverse = _ := reverse_reverse _
  rw [trimSpace, hstart, trimRight, hend, dropRunes_of_forall_not hright.2]
  rfl

section Joined

variable {d : UInt8} {a a' b b' : Bytes}

theorem split_first (ha : d ∉ a) (ha' : d ∉ a') (h : a ++ d :: b = a' ++ d :: b') :
    a = a' ∧ b = b' := by
  induction a generalizing a' with
  | nil =>
    cases a' with
    | nil => exact ⟨rfl, (List.cons.inj h).2⟩
    | cons c a' => exact absurd (List.cons.inj h).1 fun heq => ha' (heq ▸ mem_cons_self)
  | cons c a ih =>
    cases a' with
    | nil => exact absurd (List.cons.inj h).1 fun heq => ha (heq ▸ mem_cons_self)
    | cons c' a' =>
      obtain ⟨rfl, hrest⟩ := List.cons.inj h
      rw [mem_cons, not_or] at ha ha'
      obtain ⟨rfl, rfl⟩ := ih ha.2 ha'.2 hrest
      exact ⟨rfl, rfl⟩

theorem split_last (hb : d ∉ b) (hb' : d ∉ b') (h : a ++ d :: b = a' ++ d :: b') :
    a = a' ∧ b = b' := by
  have hreverse : b.reverse ++ d :: a.reverse = b'.reverse ++ d :: a'.reverse := by
    simpa using congrArg List.reverse h
  obtain ⟨hb, ha⟩ := split_first (by simpa using hb) (by simpa using hb') hreverse
  exact ⟨reverse_injective ha, reverse_injective hb⟩

end Joined

theorem hexEncode_injective : Injective hexEncode := fun data data' h =>
  some.inj ((hexDecode_hexEncode data).symm.trans (h ▸ hexDecode_hexEncode data'))

theorem decimal_injective : Injective decimal := fun n n' h =>
  some.inj ((parseDigits_decimal n).symm.trans (h ▸ parseDigits_decimal n'))

theorem digit_of_mem_decimal {n : ℕ} {c : UInt8} (hc : c ∈ decimal n) : 48 ≤ c ∧ c ≤ 57 := by
  have hdigit : ∀ n : Fin 10, 48 ≤ (n.val.digitChar).toNat.toUInt8 ∧
      (n.val.digitChar).toNat.toUInt8 ≤ 57 := by decide +kernel
  induction n using Nat.strong_induction_on with
  | _ n ih =>
    rcases lt_or_ge n 10 with hn | hn
    · rw [decimal_of_lt hn, mem_singleton] at hc
      exact hc ▸ hdigit ⟨n, hn⟩
    · rw [decimal_of_le hn, mem_append, mem_singleton] at hc
      rcases hc with hc | rfl
      · exact ih (n / 10) (by omega) hc
      · exact hdigit ⟨n % 10, Nat.mod_lt n (by norm_num)⟩

/-- A sign is no digit, so it tells negative numbers from the others. -/
theorem decimalInt_injective : Injective decimalInt := by
  have hsign : ∀ n k, decimal n ≠ ascii "-" ++ decimal k := by
    intro n k h
    have hmem : 45 ∈ decimal n := h ▸ mem_append_left _ (by decide +kernel)
    exact absurd (digit_of_mem_decimal hmem).1 (by decide)
  intro z z' h
  cases z with
  | ofNat n =>
    cases z' with
    | ofNat n' => exact congrArg Int.ofNat (decimal_injective h)
    | negSucc n' => exact absurd h (hsign n (n' + 1))
  | negSucc n =>
    cases z' with
    | ofNat n' => exact absurd h.symm (hsign n' (n + 1))
    | negSucc n' =>
      have hdigits := decimal_injective (append_cancel_left h)
      exact congrArg Int.negSucc (Nat.succ_injective hdigits)

end VlfProto.Platform
