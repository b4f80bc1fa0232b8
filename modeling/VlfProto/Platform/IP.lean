import VlfProto.Platform.Text

/-! # IP addresses -/

namespace VlfProto.Platform

abbrev IP := Bytes

def v4InV6Prefix : Bytes := [0, 0, 0, 0, 0, 0, 0, 0, 0, 0, 0xff, 0xff]

/-- `net.IP.Equal`. -/
def IP.equal (ip x : IP) : Bool :=
  if ip.length = x.length then ip = x
  else if ip.length = 4 ∧ x.length = 16 then x.take 12 = v4InV6Prefix ∧ ip = x.drop 12
  else if ip.length = 16 ∧ x.length = 4 then ip.take 12 = v4InV6Prefix ∧ x = ip.drop 12
  else false

/-- The sixteen bytes of an address. -/
def IP.to16 (ip : IP) : IP := if ip.length = 4 then v4InV6Prefix ++ ip else ip

/-- The four bytes of an address that has an IPv4 form. -/
def IP.to4 (ip : IP) : Option IP :=
  if ip.length = 4 then some ip
  else if ip.length = 16 ∧ ip.take 12 = v4InV6Prefix then some (ip.drop 12)
  else none

/-- The text of an address, and what is read from it: `net.IP.String` and `net.ParseIP`, of which
only this much is known. -/
structure IPText where
  string : IP → Bytes
  parse : Bytes → Option IP
  parse_string : ∀ ip, ip.length = 4 ∨ ip.length = 16 → parse (string ip) = some ip.to16

/-- One field of a dotted IPv4 address: decimal, below 256, without leading zeros. -/
def parseOctet (b : Bytes) : Option UInt8 :=
  if 1 < b.length ∧ b.head? = some 48 then none
  else (parseDigits b).bind fun n => if n < 256 then some n.toUInt8 else none

/-- The dotted decimal addresses that `net.ParseIP` reads, in their sixteen byte form. -/
def parseIPv4 (b : Bytes) : Option IP :=
  let fields := b.splitOn 46
  if fields.length = 4 then (fields.mapM parseOctet).map (v4InV6Prefix ++ ·) else none

theorem IP.to4_to16 {ip : IP} (h : ip.length = 4) : ip.to16.to4 = some ip := by
  have hlength : (v4InV6Prefix ++ ip).length = 16 := by
    rw [List.length_append, h]
    rfl
  rw [to16, if_pos h, to4, if_neg (by omega), if_pos ⟨hlength, List.take_left' rfl⟩]
  exact congrArg some (List.drop_left' rfl)

private theorem prefix_append_eq_iff {ip x : Bytes} (hx : x.length = 16) :
    (x.take 12 = v4InV6Prefix ∧ ip = x.drop 12) ↔ v4InV6Prefix ++ ip = x := by
  constructor
  · rintro ⟨htake, rfl⟩
    rw [← htake, List.take_append_drop]
  · rintro rfl
    exact ⟨rfl, rfl⟩

theorem IP.to16_length (ip : IP) : ip.to16.length = if ip.length = 4 then 16 else ip.length := by
  rw [to16]
  split_ifs with h
  · rw [List.length_append, h]
    rfl
  · rfl

/-- Two addresses are equal if their sixteen byte forms are the same. -/
theorem IP.equal_iff (ip x : IP) : ip.equal x = true ↔ ip.to16 = x.to16 := by
  rw [equal]
  split_ifs with hlen h4 h16
  · by_cases hip : ip.length = 4
    · simp [to16, hip, ← hlen]
    · simp [to16, hip, ← hlen]
  · obtain ⟨hip, hx⟩ := h4
    rw [decide_eq_true_iff, prefix_append_eq_iff hx]
    simp [to16, hip, hx]
  · obtain ⟨hip, hx⟩ := h16
    rw [decide_eq_true_iff, prefix_append_eq_iff hip, eq_comm]
    simp [to16, hip, hx]
  · refine iff_of_false (by simp) fun heq => ?_
    have hlength := congrArg List.length heq
    rw [to16_length, to16_length] at hlength
    split_ifs at hlength <;> omega

example : parseIPv4 (ascii "203.0.113.9") = some (v4InV6Prefix ++ [203, 0, 113, 9]) := by
  decide +kernel

end VlfProto.Platform
