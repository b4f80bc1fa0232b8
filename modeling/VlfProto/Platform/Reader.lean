import VlfProto.Platform.Text

/-!
# Reading from a byte stream

A reader consumes the bytes that are there and then meets the error that ends the stream. It
returns a value, returns an error, or panics; allocating a slice is the one operation here
that can panic. A base-128 integer is read byte by byte, as the standard library does; its
meaning is given separately, on the bytes.
-/
namespace VlfProto.Platform

inductive ReadError where
  | eof
  | unexpectedEOF
  | overflow
  | timeout
  | transport (code : ℕ)
  deriving DecidableEq, Repr

/-- The unread bytes, and the error a read meets after the last of them. -/
structure Source where
  data : Bytes
  fault : ReadError
  deriving DecidableEq

/-- How a computation can stop without a value. -/
inductive Stop (ε : Type*) where
  | error (e : ε)
  | panic
  deriving DecidableEq

/-- A value or an error comes back. -/
def Returns {ε α : Type*} (r : Except (Stop ε) α) : Prop :=
  (∃ a, r = .ok a) ∨ ∃ e, r = .error (.error e)

theorem returns_iff_ne_panic {ε α : Type*} {r : Except (Stop ε) α} :
    Returns r ↔ r ≠ .error .panic := by
  rcases r with (e | _) | a <;> simp [Returns]

abbrev Reader (ε α : Type) := StateT Source (Except (Stop ε)) α

/-- The largest slice the runtime agrees to allocate. -/
def maxAlloc : ℕ := 2 ^ 47

namespace Reader

variable {ε δ α : Type}

def fail (e : ε) : Reader ε α := fun _ => .error (.error e)

def panicNow : Reader ε α := fun _ => .error .panic

/-- Turn the errors of a reader into those of its caller. -/
def mapError (f : ε → δ) (p : Reader ε α) : Reader δ α := fun s =>
  match p s with
  | .ok r => .ok r
  | .error (.error e) => .error (.error (f e))
  | .error .panic => .error .panic

def makeSlice (n : ℕ) : Reader ε Unit := if maxAlloc < n then panicNow else pure ()

/-- Fill a buffer of `n` bytes; a stream that ends inside it is cut short. -/
def readFull (n : ℕ) : Reader ReadError Bytes := fun s =>
  if n ≤ s.data.length then .ok (s.data.take n, { s with data := s.data.drop n })
  else if s.data ≠ [] ∧ s.fault = .eof then .error (.error .unexpectedEOF)
  else .error (.error s.fault)

/-- The loop of `ReadUvarint` in its `i`-th round, with the bits gathered so far. -/
def uvarintLoop (fault : ReadError) :
    Bytes → (i x shift : ℕ) → Except (Stop ReadError) (ℕ × Source)
  | [], i, _, _ =>
    if 10 ≤ i then .error (.error .overflow)
    else if 0 < i ∧ fault = .eof then .error (.error .unexpectedEOF)
    else .error (.error fault)
  | b :: data, i, x, shift =>
    if 10 ≤ i then .error (.error .overflow)
    else if b < 0x80 then
      if i = 9 ∧ 1 < b then .error (.error .overflow)
      else .ok (x ||| (b.toNat <<< shift) % 2 ^ 64, ⟨data, fault⟩)
    else
      uvarintLoop fault data (i + 1) (x ||| ((b &&& 0x7f).toNat <<< shift) % 2 ^ 64) (shift + 7)

def readUvarint : Reader ReadError ℕ := fun s => uvarintLoop s.fault s.data 0 0 0

def readBigEndian (width : ℕ) : Reader ReadError ℕ := do
  let raw ← readFull width
  return ofBigEndian raw

def readByte : Reader ReadError UInt8 := fun s =>
  match s.data with
  | [] => .error (.error s.fault)
  | b :: data => .ok (b, { s with data := data })

/-- A length and that many bytes, into a slice of the announced length. -/
def readBytes : Reader ReadError Bytes := do
  let n ← readUvarint
  if n = 0 then return []
  makeSlice n
  readFull n

end Reader

/-- The integer that a base-128 byte string starts with, and the bytes after it. -/
def base128? : Bytes → Option (ℕ × Bytes)
  | [] => none
  | b :: data =>
    if b < 0x80 then some (b.toNat, data)
    else (base128? data).map fun r => (b.toNat - 128 + 128 * r.1, r.2)

/-- The same, for integers of at most ten bytes and 64 bits. -/
def uvarint? (data : Bytes) : Option (ℕ × Bytes) :=
  (base128? data).filter fun r => data.length ≤ r.2.length + 10 ∧ r.1 < 2 ^ 64

theorem base128?_length {data rest : Bytes} {n : ℕ} (h : base128? data = some (n, rest)) :
    rest.length < data.length := by
  induction data generalizing n with
  | nil => cases h
  | cons b data ih =>
    rw [base128?] at h
    split_ifs at h with hlast
    · cases h
      simp
    · obtain ⟨⟨m, rest'⟩, hrest, heq⟩ := Option.map_eq_some_iff.mp h
      cases heq
      exact (ih hrest).trans (Nat.lt_succ_self _)

namespace Reader

/-- Bits above the ones gathered so far add up with them. -/
private theorem or_shiftLeft {x i : ℕ} (hx : x < 2 ^ i) (b : ℕ) (hb : b * 2 ^ i < 2 ^ 64) :
    x ||| (b <<< i) % 2 ^ 64 = x + b * 2 ^ i := by
  have hshift : b <<< i = b * 2 ^ i := Nat.shiftLeft_eq b i
  rw [Nat.mod_eq_of_lt (by rw [hshift]; exact hb), Nat.or_comm,
    ← Nat.shiftLeft_add_eq_or_of_lt hx, hshift, Nat.add_comm]

private theorem pow_round {i : ℕ} (hi : i ≤ 8) : 2 ^ (7 * i) * 128 ≤ 2 ^ 63 := by
  rw [show (128 : ℕ) = 2 ^ 7 by rfl, ← pow_add]
  exact Nat.pow_le_pow_right (by norm_num) (by omega)

/-- The last byte of the loop: the tenth may carry one bit only. -/
private theorem last_byte {i x b : ℕ} (hi : i < 10) (hx : x < 2 ^ (7 * i)) (hb : b < 128) :
    x + b * 2 ^ (7 * i) < 2 ^ 64 ↔ ¬(i = 9 ∧ 1 < b) := by
  obtain rfl | hi : i = 9 ∨ i ≤ 8 := by omega
  · omega
  · have hround := pow_round hi
    have : b * 2 ^ (7 * i) ≤ 127 * 2 ^ (7 * i) := Nat.mul_le_mul_right _ (by omega)
    omega

private theorem low_bits {b : UInt8} (hb : 128 ≤ b.toNat) :
    (b &&& 0x7f).toNat = b.toNat - 128 := by
  have hb' := b.toNat_lt
  rw [UInt8.toNat_and, show (0x7f : UInt8).toNat = 2 ^ 7 - 1 by rfl,
    Nat.and_two_pow_sub_one_eq_mod]
  omega

theorem uvarintLoop_ok_iff {fault : ReadError} {data : Bytes} {i x v : ℕ} {s : Source}
    (hi : i ≤ 10) (hx : x < 2 ^ (7 * i)) :
    uvarintLoop fault data i x (7 * i) = .ok (v, s) ↔
      ∃ n, base128? data = some (n, s.data) ∧ s.fault = fault ∧
        data.length + i ≤ s.data.length + 10 ∧ v = x + n * 2 ^ (7 * i) ∧ v < 2 ^ 64 := by
  induction data generalizing i x with
  | nil =>
    rw [uvarintLoop]
    split_ifs <;> simp [base128?]
  | cons b data ih =>
    rw [uvarintLoop]
    split_ifs with hten hlast hbig
    · refine iff_of_false nofun ?_
      rintro ⟨n, hn, -, hlen, -⟩
      have := base128?_length hn
      omega
    · refine iff_of_false nofun ?_
      have hb : b.toNat < 128 := UInt8.lt_iff_toNat_lt.mp hlast
      rintro ⟨n, hn, -, -, rfl, hv⟩
      rw [base128?, if_pos hlast] at hn
      cases hn
      exact (last_byte (by omega) hx hb).mp hv ⟨hbig.1, UInt8.lt_iff_toNat_lt.mp hbig.2⟩
    · have hb : b.toNat < 128 := UInt8.lt_iff_toNat_lt.mp hlast
      have hfit := (last_byte (by omega) hx hb).mpr
        fun h => hbig ⟨h.1, UInt8.lt_iff_toNat_lt.mpr h.2⟩
      rw [or_shiftLeft hx _ (by omega), base128?, if_pos hlast]
      obtain ⟨data', fault'⟩ := s
      simp only [Except.ok.injEq, Prod.mk.injEq, Source.mk.injEq, Option.some.injEq]
      constructor
      · rintro ⟨rfl, rfl, rfl⟩
        exact ⟨_, ⟨rfl, rfl⟩, rfl, by simp; omega, rfl, hfit⟩
      · rintro ⟨_, ⟨rfl, rfl⟩, rfl, -, rfl, -⟩
        exact ⟨rfl, rfl, rfl⟩
    · have hb : 128 ≤ b.toNat := by simpa [UInt8.lt_iff_toNat_lt] using hlast
      have hb' := b.toNat_lt
      rw [base128?, if_neg hlast, low_bits hb]
      obtain rfl | hi : i = 9 ∨ i ≤ 8 := by omega
      · refine iff_of_false (by cases data <;> simp [uvarintLoop]) ?_
        rintro ⟨n, hn, -, hlen, -⟩
        obtain ⟨⟨m, rest⟩, hrest, heq⟩ := Option.map_eq_some_iff.mp hn
        obtain ⟨-, rfl⟩ := Prod.mk.inj heq
        have := base128?_length hrest
        simp at hlen
        omega
      · have hround := pow_round hi
        have hpart : (b.toNat - 128) * 2 ^ (7 * i) ≤ 127 * 2 ^ (7 * i) :=
          Nat.mul_le_mul_right _ (by omega)
        have hpow : 2 ^ (7 * (i + 1)) = 2 ^ (7 * i) * 128 := by rw [mul_add, pow_add]; rfl
        rw [or_shiftLeft hx _ (by omega), show 7 * i + 7 = 7 * (i + 1) by ring,
          ih (by omega) (by omega)]
        constructor
        · rintro ⟨n, hn, hfault, hlen, hv, hfit⟩
          refine ⟨_, by rw [hn]; rfl, hfault, by simp; omega, ?_, hfit⟩
          rw [hv, hpow]
          ring
        · rintro ⟨n, hn, hfault, hlen, hv, hfit⟩
          obtain ⟨⟨m, rest⟩, hrest, heq⟩ := Option.map_eq_some_iff.mp hn
          cases heq
          refine ⟨m, hrest, hfault, by simp at hlen; omega, ?_, hfit⟩
          rw [hv, hpow]
          ring

theorem readUvarint_ok_iff {s t : Source} {v : ℕ} :
    readUvarint s = .ok (v, t) ↔ uvarint? s.data = some (v, t.data) ∧ t.fault = s.fault := by
  rw [readUvarint, uvarintLoop_ok_iff (by norm_num) (by norm_num), uvarint?,
    Option.filter_eq_some_iff]
  simp only [decide_eq_true_eq]
  constructor
  · rintro ⟨n, hn, hfault, hlen, rfl, hfit⟩
    simp only [mul_zero, pow_zero, mul_one, zero_add, add_zero] at *
    exact ⟨⟨hn, hlen, hfit⟩, hfault⟩
  · rintro ⟨⟨hn, hlen, hfit⟩, hfault⟩
    exact ⟨v, hn, hfault, by simpa using hlen, by simp, hfit⟩

end Reader
end VlfProto.Platform
