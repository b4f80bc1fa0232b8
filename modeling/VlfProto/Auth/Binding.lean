import VlfProto.Auth.ReplayProtection
import VlfProto.Platform.TextRoundTrip

/-! # What a signature binds -/

namespace VlfProto.Auth
open Platform List

/-- The separator of both materials. -/
def bar : UInt8 := 124

theorem bar_split_first {a a' b b' : Bytes} (ha : bar ∉ a) (ha' : bar ∉ a')
    (h : a ++ (ascii "|" ++ b) = a' ++ (ascii "|" ++ b')) : a = a' ∧ b = b' := by
  have hbar : ascii "|" = [bar] := by decide +kernel
  rw [hbar] at h
  exact split_first ha ha' h

theorem bar_split_last {a a' b b' : Bytes} (hb : bar ∉ b) (hb' : bar ∉ b')
    (h : a ++ ascii "|" ++ b = a' ++ ascii "|" ++ b') : a = a' ∧ b = b' := by
  have hbar : ascii "|" = [bar] := by decide +kernel
  rw [hbar, append_assoc, append_assoc] at h
  exact split_last hb hb' h

theorem bar_notMem_hexEncode (data : Bytes) : bar ∉ hexEncode data := by
  have hbyte : ∀ c : UInt8, bar ∉ [hexDigit (c / 16), hexDigit (c % 16)] :=
    forall_byte (by decide +kernel)
  intro hbar
  obtain ⟨c, -, hc⟩ := mem_flatMap.mp hbar
  exact hbyte c hc

theorem bar_notMem_decimal (n : ℕ) : bar ∉ decimal n :=
  fun hbar => absurd (digit_of_mem_decimal hbar).2 (by decide)

theorem bar_notMem_decimalInt (z : ℤ) : bar ∉ decimalInt z := by
  cases z with
  | ofNat n => exact bar_notMem_decimal n
  | negSucc n =>
    rw [decimalInt, mem_append, not_or]
    exact ⟨by decide +kernel, bar_notMem_decimal (n + 1)⟩

/-- Equal materials are made of equal clients, timestamps, nonces and capabilities. -/
theorem sessionAuthMaterial_eq_iff (c₁ c₂ : Bytes) (t₁ t₂ : UInt64) (n₁ n₂ : Bytes)
    (k₁ k₂ : UInt64) :
    sessionAuthMaterial c₁ t₁ n₁ k₁ = sessionAuthMaterial c₂ t₂ n₂ k₂ ↔
      c₁ = c₂ ∧ t₁ = t₂ ∧ n₁ = n₂ ∧ k₁ = k₂ := by
  constructor
  · intro h
    obtain ⟨h, hcaps⟩ := bar_split_last (bar_notMem_decimal _) (bar_notMem_decimal _) h
    obtain ⟨h, hnonce⟩ := bar_split_last (bar_notMem_hexEncode _) (bar_notMem_hexEncode _) h
    obtain ⟨h, hts⟩ := bar_split_last (bar_notMem_decimal _) (bar_notMem_decimal _) h
    exact ⟨append_cancel_left h, UInt64.toNat.inj (decimal_injective hts),
      hexEncode_injective hnonce, UInt64.toNat.inj (decimal_injective hcaps)⟩
  · rintro ⟨rfl, rfl, rfl, rfl⟩
    rfl

namespace HTTPRequest

/-- The request has all four headers, and a timestamp that reads as `tsMS`. -/
def PassesHeaders (r : HTTPRequest) (tsMS : ℤ) : Prop :=
  ¬(r.clientID = [] ∨ trimSpace r.tsHeader = [] ∨ r.nonce = [] ∨ trimSpace r.sigHeader = []) ∧
    r.tsMS = some tsMS

instance (r : HTTPRequest) (tsMS : ℤ) : Decidable (r.PassesHeaders tsMS) :=
  inferInstanceAs (Decidable (_ ∧ _))

end HTTPRequest

/-- The paths that the mux of the relay server hands to `withAuth`, the caller of `VerifyHTTP`. -/
def authRoutes : List Bytes :=
  [ascii "/v1/relay/open", ascii "/v1/relay/send", ascii "/v1/relay/recv", ascii "/v1/relay/ping",
    ascii "/v1/relay/close"]

theorem notMem_toUpper (crypto : Crypto) (text : Bytes) : 118 ∉ toUpper crypto.mapUpper text := by
  have hbyte : ∀ c : UInt8, (if 97 ≤ c ∧ c ≤ 122 then c - 32 else c) ≠ 118 :=
    forall_byte (by decide +kernel)
  intro hmem
  unfold toUpper at hmem
  split_ifs at hmem
  · obtain ⟨c, -, hc⟩ := mem_map.mp hmem
    exact hbyte c hc
  · exact crypto.mapUpper_upper text 118 hmem (by decide)

/-- The first `v` tells where the method ends, whatever bytes it has. -/
theorem method_split {crypto : Crypto} {method method' path path' rest rest' : Bytes}
    (hpath : path ∈ authRoutes) (hpath' : path' ∈ authRoutes)
    (h : toUpper crypto.mapUpper method ++ (ascii "|" ++ (path ++ rest)) =
      toUpper crypto.mapUpper method' ++ (ascii "|" ++ (path' ++ rest'))) :
    toUpper crypto.mapUpper method = toUpper crypto.mapUpper method' ∧
      path ++ rest = path' ++ rest' := by
  have hroute : ∀ path ∈ authRoutes, path = 47 :: 118 :: path.drop 2 := by decide +kernel
  have hbar : ascii "|" = [bar] := by decide +kernel
  have hbegin (text : Bytes) : 118 ∉ toUpper crypto.mapUpper text ++ [bar, 47] := by
    rw [mem_append, not_or]
    exact ⟨notMem_toUpper crypto text, by decide⟩
  rw [hroute path hpath, hroute path' hpath', hbar] at h
  obtain ⟨hmethod, hrest⟩ := split_first (hbegin method) (hbegin method')
    (show _ ++ 118 :: (path.drop 2 ++ rest) = _ ++ 118 :: (path'.drop 2 ++ rest') by simpa using h)
  refine ⟨append_cancel_right hmethod, ?_⟩
  rw [hroute path hpath, hroute path' hpath']
  exact congrArg (47 :: 118 :: ·) hrest

/-- Requests for the relay that pass the header checks have equal materials exactly if their
fields are equal. -/
theorem httpMaterial_eq_iff {r r' : HTTPRequest} {tsMS tsMS' : ℤ} (crypto : Crypto)
    (hr : r.PassesHeaders tsMS) (hr' : r'.PassesHeaders tsMS') (hpath : r.path ∈ authRoutes)
    (hpath' : r'.path ∈ authRoutes) :
    httpMaterial crypto r tsMS = httpMaterial crypto r' tsMS' ↔
      toUpper crypto.mapUpper r.method = toUpper crypto.mapUpper r'.method ∧ r.path = r'.path ∧
        r.tsMS = r'.tsMS ∧ r.nonce = r'.nonce ∧
          hashBody crypto r.body = hashBody crypto r'.body := by
  have hfree : ∀ path ∈ authRoutes, bar ∉ path := by decide +kernel
  rw [hr.2, hr'.2, Option.some.injEq]
  constructor
  · intro h
    obtain ⟨h, hbody⟩ := bar_split_last (bar_notMem_hexEncode _) (bar_notMem_hexEncode _) h
    simp only [append_assoc] at h
    obtain ⟨hm, h⟩ := method_split hpath hpath' h
    obtain ⟨hp, h⟩ := bar_split_first (hfree _ hpath) (hfree _ hpath') h
    obtain ⟨hts, hn⟩ := bar_split_first (bar_notMem_decimalInt _) (bar_notMem_decimalInt _) h
    exact ⟨hm, hp, decimalInt_injective hts, hn, hbody⟩
  · rintro ⟨hm, hp, hts, hn, hbody⟩
    rw [httpMaterial, hm, hp, hts, hn, hbody, httpMaterial]

def relayRequest (method tsHeader nonceHeader : String) : HTTPRequest :=
  ⟨ascii method, ascii "/v1/relay/open", ascii "client", ascii tsHeader, ascii nonceHeader,
    ascii "00", []⟩

theorem relayRequests_bound :
    (relayRequest "GET|/" "17" "1|n").PassesHeaders 17 ∧
    (relayRequest "get|/" " 17" "1|n ").PassesHeaders 17 ∧
    httpMaterial constantCrypto (relayRequest "GET|/" "17" "1|n") 17 =
      httpMaterial constantCrypto (relayRequest "get|/" " 17" "1|n ") 17 := by
  have hr : (relayRequest "GET|/" "17" "1|n").PassesHeaders 17 := by decide +kernel
  have hr' : (relayRequest "get|/" " 17" "1|n ").PassesHeaders 17 := by decide +kernel
  exact ⟨hr, hr', (httpMaterial_eq_iff constantCrypto hr hr' (by decide +kernel)
    (by decide +kernel)).mpr (by decide +kernel)⟩

end VlfProto.Auth
