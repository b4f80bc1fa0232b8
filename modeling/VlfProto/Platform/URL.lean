import VlfProto.Platform.Text

/-!
# The path of a URL

A URL is taken apart as `url.Parse` does: fragment, query, scheme and authority are cut off,
and what remains is the path, with its percent escapes decoded. Which authorities are well
formed is a parameter.
-/
namespace VlfProto.Platform.URL

/-- The part before the first separator, or everything. -/
def before (sep : UInt8) (b : Bytes) : Bytes := b.takeWhile (· ≠ sep)

/-- The part after the first separator, or nothing. -/
def after (sep : UInt8) (b : Bytes) : Bytes := (b.dropWhile (· ≠ sep)).drop 1

def isControl (c : UInt8) : Bool := c < 0x20 ∨ c = 0x7f

def isLetter (c : UInt8) : Bool := 65 ≤ c ∧ c ≤ 90 ∨ 97 ≤ c ∧ c ≤ 122

/-- Letters, digits, plus, minus and point. -/
def isSchemeByte (c : UInt8) : Bool :=
  isLetter c ∨ 48 ≤ c ∧ c ≤ 57 ∨ c = 43 ∨ c = 45 ∨ c = 46

/-- The scheme and the rest after its colon; no scheme and everything; or an error when
the colon comes first. -/
def getScheme (raw : Bytes) : Option (Bytes × Bytes) :=
  if raw.head? = some 58 then none
  else if raw.head?.any isLetter ∧ (raw.dropWhile isSchemeByte).head? = some 58 then
    some (raw.takeWhile isSchemeByte, (raw.dropWhile isSchemeByte).tail)
  else some ([], raw)

/-- Decode percent escapes; a broken one is an error. -/
def unescape : Bytes → Option Bytes
  | [] => some []
  | 37 :: h :: l :: rest => do
    let hi ← fromHexDigit h
    let lo ← fromHexDigit l
    let tail ← unescape rest
    return (16 * hi + lo) :: tail
  | 37 :: _ => none
  | c :: rest => (unescape rest).map (c :: ·)

/-- The path of a URL without a fragment. -/
def parseParts (validAuthority : Bytes → Bool) (raw : Bytes) : Option Bytes :=
  if raw.any isControl then none
  else if raw = [42] then some raw
  else do
    let (scheme, rest) ← getScheme raw
    let rest := before 63 rest
    if rest.head? ≠ some 47 then
      if scheme ≠ [] then some []
      else if 58 ∈ before 47 rest then none
      else unescape rest
    else if [47, 47].isPrefixOf rest ∧ (scheme ≠ [] ∨ ¬[47, 47, 47].isPrefixOf rest) then
      if validAuthority (before 47 (rest.drop 2)) then
        unescape ((rest.drop 2).dropWhile (· ≠ 47))
      else none
    else unescape rest

/-- `url.Parse`, of which the path is kept. -/
def parse (validAuthority : Bytes → Bool) (raw : Bytes) : Option Bytes := do
  let path ← parseParts validAuthority (before 35 raw)
  let _ ← unescape (after 35 raw)
  return path

/-- A scheme and an authority, and nothing after them. -/
structure Base where
  scheme : Bytes
  authority : Bytes
  scheme_letter : ∃ c rest, scheme = c :: rest ∧ isLetter c
  scheme_bytes : ∀ c ∈ scheme, isSchemeByte c
  authority_bytes : ∀ c ∈ authority, c ≠ 47 ∧ c ≠ 63 ∧ c ≠ 35

def Base.text (base : Base) : Bytes := base.scheme ++ (58 :: 47 :: 47 :: base.authority)

variable {sep : UInt8} {b b' : Bytes}

theorem before_append (h : ∀ c ∈ b, c ≠ sep) (b' : Bytes) :
    before sep (b ++ b') = b ++ before sep b' :=
  List.takeWhile_append_of_pos (by simpa using h)

theorem dropWhile_append (h : ∀ c ∈ b, c ≠ sep) :
    (b ++ b').dropWhile (· ≠ sep) = b'.dropWhile (· ≠ sep) :=
  List.dropWhile_append_of_pos (by simpa using h)

theorem unescape_of_plain (h : ∀ c ∈ b, c ≠ 37) : unescape b = some b := by
  induction b with
  | nil => rfl
  | cons c b ih =>
    have hc : c ≠ 37 := h c (by simp)
    have hb : unescape b = some b := ih fun c hc => h c (by simp [hc])
    rw [unescape, hb]
    · rfl
    · exact fun _ _ _ hescape => absurd hescape hc
    · exact hc

theorem isSchemeByte_ne {c : UInt8} (h : isSchemeByte c) : c ≠ 58 ∧ c ≠ 35 := by
  constructor <;> (rintro rfl; revert h; decide)

theorem getScheme_base (base : Base) (rest : Bytes) :
    getScheme (base.text ++ rest) =
      some (base.scheme, 47 :: 47 :: (base.authority ++ rest)) := by
  obtain ⟨c, scheme, hscheme, hletter⟩ := base.scheme_letter
  have htake : (base.text ++ rest).takeWhile isSchemeByte = base.scheme := by
    rw [Base.text, List.append_assoc, List.takeWhile_append_of_pos base.scheme_bytes]
    simp [show isSchemeByte 58 = false by decide]
  have hdrop : (base.text ++ rest).dropWhile isSchemeByte =
      58 :: 47 :: 47 :: (base.authority ++ rest) := by
    rw [Base.text, List.append_assoc, List.dropWhile_append_of_pos base.scheme_bytes]
    simp [show isSchemeByte 58 = false by decide]
  have hhead : (base.text ++ rest).head? = some c := by
    rw [Base.text, hscheme]
    rfl
  have hfirst : c ≠ 58 := (isSchemeByte_ne (base.scheme_bytes c (by simp [hscheme]))).1
  rw [getScheme, htake, hdrop, hhead, if_neg (by simpa using hfirst),
    if_pos ⟨by simpa using hletter, rfl⟩]
  rfl

/-- A path, alone or with a query. -/
theorem parseParts_base (validAuthority : Bytes → Bool) (base : Base) {path tail p : Bytes}
    (hslash : path.head? = some 47) (hpath : ∀ c ∈ path, c ≠ 37 ∧ c ≠ 63)
    (htail : before 63 tail = [])
    (h : parseParts validAuthority (base.text ++ (path ++ tail)) = some p) : p = path := by
  have hplain : unescape path = some path := unescape_of_plain fun c hc => (hpath c hc).1
  have hscheme : base.scheme ≠ [] := by
    obtain ⟨c, rest, hscheme, -⟩ := base.scheme_letter
    simp [hscheme]
  have hrest : before 63 (47 :: 47 :: (base.authority ++ (path ++ tail))) =
      47 :: 47 :: (base.authority ++ path) := by
    have hauthority : ∀ c ∈ 47 :: 47 :: base.authority, c ≠ 63 := by
      simp only [List.mem_cons, forall_eq_or_imp]
      exact ⟨by decide, by decide, fun c hc => (base.authority_bytes c hc).2.1⟩
    have hquery := before_append hauthority (path ++ tail)
    rw [before_append fun c hc => (hpath c hc).2, htail, List.append_nil] at hquery
    exact hquery
  have hdrop : (base.authority ++ path).dropWhile (· ≠ 47) = path := by
    rw [dropWhile_append fun c hc => (base.authority_bytes c hc).1]
    obtain ⟨rest, rfl⟩ := List.head?_eq_some_iff.mp hslash
    simp
  rw [parseParts] at h
  split_ifs at h with hcontrol hstar
  · have hlength := congrArg List.length hstar
    simp [Base.text] at hlength
    omega
  · simp only [getScheme_base, Option.bind_eq_bind, Option.bind_some, hrest, List.head?_cons,
      ne_eq, not_true_eq_false, if_false, hscheme, not_false_eq_true, true_or, and_true,
      List.drop_succ_cons, List.drop_zero, hdrop, hplain] at h
    split_ifs at h with hprefix hvalid
    · exact (Option.some.inj h).symm
    · simp at hprefix

/-- Whatever query and fragment follow, the path is the one that was put behind the base. -/
theorem parse_base (validAuthority : Bytes → Bool) (base : Base) {path tail p : Bytes}
    (hslash : path.head? = some 47) (hpath : ∀ c ∈ path, c ≠ 37 ∧ c ≠ 63 ∧ c ≠ 35)
    (htail : before 63 tail = [])
    (h : parse validAuthority (base.text ++ (path ++ tail)) = some p) : p = path := by
  obtain ⟨p', hparts, hrest⟩ := Option.bind_eq_some_iff.mp h
  obtain ⟨-, -, hp⟩ := Option.bind_eq_some_iff.mp hrest
  obtain rfl : p' = p := Option.some.inj hp
  have htext : ∀ c ∈ base.text, c ≠ 35 := by
    intro c hc
    rw [Base.text, List.mem_append] at hc
    rcases hc with hc | hc
    · exact (isSchemeByte_ne (base.scheme_bytes c hc)).2
    · simp only [List.mem_cons] at hc
      obtain rfl | rfl | rfl | hc := hc
      · decide
      · decide
      · decide
      · exact (base.authority_bytes c hc).2.2
  have hquery : before 63 (before 35 tail) = [] := by
    cases tail with
    | nil => rfl
    | cons c tail =>
      have hc : c = 63 := by
        by_contra hc
        simp [before, hc] at htail
      simp [before, hc]
  rw [before_append htext, before_append fun c hc => (hpath c hc).2.2] at hparts
  exact parseParts_base validAuthority base hslash
    (fun c hc => ⟨(hpath c hc).1, (hpath c hc).2.1⟩) hquery hparts

end VlfProto.Platform.URL
