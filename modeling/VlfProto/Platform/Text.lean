import Mathlib.Tactic

/-!
# Byte strings and the text conversions of the standard library

Strings are byte lists, as on the wire. Trimming removes exactly the Unicode white space
runes in their UTF-8 form, integers are parsed in base ten with an optional sign and a 64-bit
range check, and hexadecimal is written in lower case and read in either case.
-/
namespace VlfProto.Platform

abbrev Bytes := List UInt8

def ascii (s : String) : Bytes := s.toList.map fun c => c.toNat.toUInt8

/-- UTF-8 forms of the runes that count as white space. -/
def spaceRunes : List Bytes :=
  [[0x09], [0x0a], [0x0b], [0x0c], [0x0d], [0x20], [0xc2, 0x85], [0xc2, 0xa0],
    [0xe1, 0x9a, 0x80], [0xe2, 0x80, 0x80], [0xe2, 0x80, 0x81], [0xe2, 0x80, 0x82],
    [0xe2, 0x80, 0x83], [0xe2, 0x80, 0x84], [0xe2, 0x80, 0x85], [0xe2, 0x80, 0x86],
    [0xe2, 0x80, 0x87], [0xe2, 0x80, 0x88], [0xe2, 0x80, 0x89], [0xe2, 0x80, 0x8a],
    [0xe2, 0x80, 0xa8], [0xe2, 0x80, 0xa9], [0xe2, 0x80, 0xaf], [0xe2, 0x81, 0x9f],
    [0xe3, 0x80, 0x80]]

/-- Drop leading members of `runes`, at most `fuel` of them. -/
def dropRunes (runes : List Bytes) : ℕ → Bytes → Bytes
  | 0, b => b
  | fuel + 1, b =>
    match runes.find? (fun r => r.isPrefixOf b) with
    | none => b
    | some r => dropRunes runes fuel (b.drop r.length)

def trimLeft (b : Bytes) : Bytes := dropRunes spaceRunes b.length b

def trimRight (b : Bytes) : Bytes :=
  (dropRunes (spaceRunes.map List.reverse) b.length b.reverse).reverse

def trimSpace (b : Bytes) : Bytes := trimRight (trimLeft b)

/-- Upper-case a text; `mapUpper` is what becomes of one that is not ASCII. -/
def toUpper (mapUpper : Bytes → Bytes) (b : Bytes) : Bytes :=
  if b.all (· < 128) then b.map fun c => if 97 ≤ c ∧ c ≤ 122 then c - 32 else c else mapUpper b

def decimal (n : ℕ) : Bytes := (Nat.toDigits 10 n).map fun c => c.toNat.toUInt8

def decimalInt : ℤ → Bytes
  | .ofNat n => decimal n
  | .negSucc n => ascii "-" ++ decimal (n + 1)

/-- One decimal digit pushed onto an accumulator. -/
def pushDigit (acc : ℕ) (c : UInt8) : Option ℕ :=
  if 48 ≤ c ∧ c ≤ 57 then some (10 * acc + (c.toNat - 48)) else none

def parseDigits (b : Bytes) : Option ℕ := if b = [] then none else b.foldlM pushDigit 0

/-- Base ten, optional sign, refused outside the signed 64-bit range. -/
def parseInt64 (b : Bytes) : Option ℤ :=
  match b with
  | 45 :: ds => (parseDigits ds).bind fun n => if n ≤ 2 ^ 63 then some (-(n : ℤ)) else none
  | 43 :: ds => (parseDigits ds).bind fun n => if n < 2 ^ 63 then some (n : ℤ) else none
  | ds => (parseDigits ds).bind fun n => if n < 2 ^ 63 then some (n : ℤ) else none

def hexDigit (n : UInt8) : UInt8 := if n < 10 then 48 + n else 87 + n

def hexEncode (b : Bytes) : Bytes := b.flatMap fun c => [hexDigit (c / 16), hexDigit (c % 16)]

def fromHexDigit (c : UInt8) : Option UInt8 :=
  if 48 ≤ c ∧ c ≤ 57 then some (c - 48)
  else if 97 ≤ c ∧ c ≤ 102 then some (c - 87)
  else if 65 ≤ c ∧ c ≤ 70 then some (c - 55)
  else none

/-- Pairs of digits in either case; a lone last digit is an error. -/
def hexDecode : Bytes → Option Bytes
  | [] => some []
  | [_] => none
  | h :: l :: rest => do
    let hi ← fromHexDigit h
    let lo ← fromHexDigit l
    let tail ← hexDecode rest
    return (16 * hi + lo) :: tail

/-- The low `width` bytes of `n`, the most significant one first. -/
def bigEndian : (width n : ℕ) → Bytes
  | 0, _ => []
  | width + 1, n => (n / 256 ^ width).toUInt8 :: bigEndian width n

def ofBigEndian (raw : Bytes) : ℕ := raw.foldl (fun n b => 256 * n + b.toNat) 0

@[simp] theorem length_bigEndian (width n : ℕ) : (bigEndian width n).length = width := by
  induction width with
  | zero => rfl
  | succ width ih => rw [bigEndian, List.length_cons, ih]

private theorem foldl_bigEndian (width n acc : ℕ) :
    (bigEndian width n).foldl (fun n b => 256 * n + b.toNat) acc =
      acc * 256 ^ width + n % 256 ^ width := by
  induction width generalizing acc with
  | zero => simp [bigEndian, Nat.mod_one]
  | succ width ih =>
    rw [bigEndian, List.foldl_cons, ih, pow_succ, Nat.mod_mul]
    simp only [Nat.toUInt8_eq, UInt8.toNat_ofNat']
    ring

theorem ofBigEndian_bigEndian {width n : ℕ} (h : n < 256 ^ width) :
    ofBigEndian (bigEndian width n) = n := by
  rw [ofBigEndian, foldl_bigEndian, zero_mul, zero_add, Nat.mod_eq_of_lt h]

end VlfProto.Platform
