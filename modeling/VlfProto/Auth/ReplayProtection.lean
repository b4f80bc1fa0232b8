import VlfProto.Auth.Verifier

/-! # When a captured message can be replayed -/

namespace VlfProto.Auth
open Platform List

/-- A clock reading with the message handled at it. -/
abbrev Event := ℤ × Request

/-- The two messages carry the same client id, timestamp and nonce, on one lane. -/
def SameMessage : Request → Request → Prop
  | .http r, .http r' => r.clientID = r'.clientID ∧ r.tsMS = r'.tsMS ∧ r.nonce = r'.nonce
  | .session m, .session m' => m.clientID = m'.clientID ∧ m.tsMS = m'.tsMS ∧ m.nonce = m'.nonce
  | _, _ => False

theorem SameMessage.cacheKey_eq {q q' : Request} (h : SameMessage q q') :
    q.cacheKey = q'.cacheKey := by
  cases q <;> cases q' <;> simp_all [SameMessage, Request.cacheKey]

theorem SameMessage.instant_eq {q q' : Request} (h : SameMessage q q') :
    q.instant = q'.instant := by
  cases q <;> cases q' <;> simp_all [SameMessage, Request.instant]

namespace Verifier

def after (v : Verifier) (events : List Event) : Verifier :=
  events.foldl (fun v e => (v.handle e.1 e.2).2) v

def accepts (v : Verifier) (e : Event) : Prop := (v.handle e.1 e.2).1 = true

instance (v : Verifier) (e : Event) : Decidable (v.accepts e) :=
  inferInstanceAs (Decidable (_ = true))

/-- Both events occur in the sequence, in this order, and both are accepted. -/
def AcceptsBoth (v : Verifier) (events : List Event) (e e' : Event) : Prop :=
  ∃ pre mid post, events = pre ++ e :: (mid ++ e' :: post) ∧
    (v.after pre).accepts e ∧ (v.after (pre ++ e :: mid)).accepts e'

/-- No sequence of messages under a clock that never runs backwards gets the
same message accepted twice. -/
def ReplayProtected (v : Verifier) : Prop :=
  ∀ (events : List Event), (events.map Prod.fst).Pairwise (· ≤ ·) →
    ∀ e e', v.AcceptsBoth events e e' → ¬ SameMessage e.2 e'.2

variable {v : Verifier} {now t : ℤ} {q : Request} {clientID nonceKey : Bytes} {m : SessionAuth}
  {secret : Bytes} {e : Event}

theorem handle_settings (v : Verifier) (now : ℤ) (q : Request) :
    (v.handle now q).2.replay.ttl = v.replay.ttl ∧ (v.handle now q).2.clockSkew = v.clockSkew ∧
      (v.handle now q).2.secretFor = v.secretFor := by
  obtain h | ⟨-, -, -, h⟩ := v.handle_cases now q <;> rw [h]
  · exact ⟨rfl, rfl, rfl⟩
  · exact ⟨ReplayCache.checkAndStore_ttl _ _ _ _, rfl, rfl⟩

theorem after_settings (v : Verifier) (events : List Event) :
    (v.after events).replay.ttl = v.replay.ttl ∧ (v.after events).clockSkew = v.clockSkew ∧
      (v.after events).secretFor = v.secretFor := by
  induction events generalizing v with
  | nil => exact ⟨rfl, rfl, rfl⟩
  | cons e events ih =>
    obtain ⟨httl, hskew, hsecret⟩ := v.handle_settings e.1 e.2
    obtain ⟨httl', hskew', hsecret'⟩ := ih (v.handle e.1 e.2).2
    exact ⟨httl'.trans httl, hskew'.trans hskew, hsecret'.trans hsecret⟩

theorem after_cons (v : Verifier) (e : Event) (events : List Event) :
    v.after (e :: events) = (v.handle e.1 e.2).2.after events := rfl

theorem after_append (v : Verifier) (events events' : List Event) :
    v.after (events ++ events') = (v.after events).after events' := foldl_append

theorem handle_remembers (h : v.replay.Remembers clientID nonceKey t)
    (hfresh : now - v.replay.ttl.toInt < t) (q : Request) :
    (v.handle now q).2.replay.Remembers clientID nonceKey t := by
  obtain hsame | ⟨-, -, -, hstore⟩ := v.handle_cases now q
  · rwa [hsame]
  · rw [hstore]
    exact ReplayCache.checkAndStore_remembers h hfresh _ _

/-- A remembered acceptance survives every sequence that ends inside the window. -/
theorem after_remembers {events : List Event} (h : v.replay.Remembers clientID nonceKey t)
    (hfresh : ∀ e ∈ events, e.1 - v.replay.ttl.toInt < t) :
    (v.after events).replay.Remembers clientID nonceKey t := by
  induction events generalizing v with
  | nil => exact h
  | cons e events ih =>
    refine ih (handle_remembers h (hfresh e (by simp)) e.2) fun e' he' => ?_
    rw [(v.handle_settings e.1 e.2).1]
    exact hfresh e' (by simp [he'])

theorem remembers_of_accepts (h : v.accepts e) :
    (v.handle e.1 e.2).2.replay.Remembers e.2.cacheKey.1 e.2.cacheKey.2 e.1 := by
  unfold accepts at h
  obtain hrej | ⟨-, -, -, hstore⟩ := v.handle_cases e.1 e.2
  · simp [hrej] at h
  · rw [hstore] at h ⊢
    refine ⟨e.1, ReplayCache.stored_of_accepted ?_, le_rfl⟩
    cases hres : (v.replay.checkAndStore e.2.cacheKey.1 e.2.cacheKey.2 e.1).1 with
    | ok u => rfl
    | error err => simp [remember, hres, Except.isOk, Except.toBool] at h

theorem not_accepts_of_remembers (h : v.replay.Remembers e.2.cacheKey.1 e.2.cacheKey.2 t)
    (hfresh : e.1 - v.replay.ttl.toInt < t) : ¬ v.accepts e := by
  unfold accepts
  obtain hrej | ⟨-, -, -, hstore⟩ := v.handle_cases e.1 e.2
  · simp [hrej]
  · rw [hstore, remember, ReplayCache.checkAndStore_of_remembers h hfresh]
    simp [Except.isOk, Except.toBool]

theorem skew_of_accepts (h : v.accepts e) (hskew : v.clockSkew.toInt < 2 ^ 62) :
    ∃ instant, e.2.instant = some instant ∧ e.1 - instant ≤ v.clockSkew.toInt ∧
      -v.clockSkew.toInt ≤ e.1 - instant := by
  unfold accepts at h
  obtain hrej | ⟨⟨instant, hinstant, hnot⟩, -⟩ := v.handle_cases e.1 e.2
  · simp [hrej] at h
  · simp only [skewed, not_or, not_lt] at hnot
    refine ⟨instant, hinstant, sub_le_of_instantSub_le ?_ hnot.1, le_sub_of_le_instantSub ?_ hnot.2⟩
    · unfold maxDuration; omega
    · unfold minDuration; omega

theorem replayProtected_of_lt (h : 2 * v.clockSkew.toInt < v.replay.ttl.toInt) :
    v.ReplayProtected := by
  rintro events hsorted e e' ⟨pre, mid, post, rfl, hacc, hacc'⟩ hsame
  have hbound := (duration_bounds v.replay.ttl).2
  have hskew : v.clockSkew.toInt < 2 ^ 62 := by unfold maxDuration at hbound; omega
  obtain ⟨httl, hck, -⟩ := v.after_settings pre
  obtain ⟨httl', hck', -⟩ := v.after_settings (pre ++ e :: mid)
  obtain ⟨instant, hin, hle, -⟩ := skew_of_accepts hacc' (by rw [hck']; exact hskew)
  obtain ⟨instant', hin', -, hge⟩ := skew_of_accepts hacc (by rw [hck]; exact hskew)
  obtain rfl : instant' = instant := by
    rw [hsame.instant_eq, hin] at hin'
    exact (Option.some.inj hin').symm
  rw [hck'] at hle
  rw [hck] at hge
  have hlast : e'.1 - v.replay.ttl.toInt < e.1 := by omega
  have hmid : ∀ x ∈ mid, x.1 ≤ e'.1 := by
    intro x hx
    simp only [map_append, map_cons, pairwise_append, pairwise_cons] at hsorted
    exact hsorted.2.1.2.2.2 x.1 (mem_map_of_mem hx) e'.1 (by simp)
  refine not_accepts_of_remembers (t := e.1) ?_ (by rw [httl']; exact hlast) hacc'
  rw [← hsame.cacheKey_eq, after_append, after_cons]
  refine after_remembers (remembers_of_accepts hacc) fun x hx => ?_
  rw [((v.after pre).handle_settings e.1 e.2).1, httl]
  have := hmid x hx
  omega

/-- A correctly signed session message in the skew window goes straight to the cache. -/
theorem verifySession_signed (hclient : m.clientID ≠ []) (hlo : 12 ≤ m.nonce.length)
    (hhi : m.nonce.length ≤ 32) (hskew : ¬ v.skewed now (unixMilli (toInt64 m.tsMS.toNat)))
    (hsecret : v.secretFor m.clientID = some secret)
    (hsig : m.sig = v.crypto.hmac secret (sessionAuthMaterial m.clientID m.tsMS m.nonce m.caps)) :
    v.verifySession now m = v.remember m.clientID (hexEncode m.nonce) now := by
  have hlen : m.sig.length = 32 := by rw [hsig, v.crypto.hmac_length]
  have hpresent : ¬ (m.clientID = [] ∨ m.nonce.length = 0 ∨ m.sig.length = 0) := by
    simp only [hclient, false_or]
    omega
  have hsize : ¬ (m.nonce.length < 12 ∨ 32 < m.nonce.length) := by omega
  rw [verifySession, if_neg hpresent, if_neg hsize, if_neg hskew, hsecret]
  exact if_neg (not_not.mpr hsig.symm)

theorem handle_signed (hclient : m.clientID ≠ []) (hlo : 12 ≤ m.nonce.length)
    (hhi : m.nonce.length ≤ 32) (hskew : ¬ v.skewed now (unixMilli (toInt64 m.tsMS.toNat)))
    (hsecret : v.secretFor m.clientID = some secret)
    (hsig : m.sig = v.crypto.hmac secret (sessionAuthMaterial m.clientID m.tsMS m.nonce m.caps)) :
    v.handle now (.session m) = ((v.remember m.clientID (hexEncode m.nonce) now).1.isOk,
      (v.remember m.clientID (hexEncode m.nonce) now).2) := by
  rw [handle, verifySession_signed hclient hlo hhi hskew hsecret hsig]

/-- Captured at one edge of the skew window and sent again at the other, a
signed message is accepted twice when the cache window does not span both. -/
theorem acceptsBoth_of_le {instant : ℤ} (hempty : v.replay.items = ∅) (hclient : m.clientID ≠ [])
    (hlo : 12 ≤ m.nonce.length) (hhi : m.nonce.length ≤ 32)
    (hsecret : v.secretFor m.clientID = some secret)
    (hsig : m.sig = v.crypto.hmac secret (sessionAuthMaterial m.clientID m.tsMS m.nonce m.caps))
    (hinstant : unixMilli (toInt64 m.tsMS.toNat) = instant) (hpos : 0 ≤ v.clockSkew.toInt)
    (hle : v.replay.ttl.toInt ≤ 2 * v.clockSkew.toInt) :
    v.AcceptsBoth
      [(instant - v.clockSkew.toInt, .session m), (instant + v.clockSkew.toInt, .session m)]
      (instant - v.clockSkew.toInt, .session m) (instant + v.clockSkew.toInt, .session m) := by
  obtain ⟨hmin, hmax⟩ := duration_bounds v.clockSkew
  have hearly : ¬ v.skewed (instant - v.clockSkew.toInt) (unixMilli (toInt64 m.tsMS.toNat)) := by
    rw [skewed, hinstant, instantSub_of_mem (by unfold minDuration maxDuration at *; omega)
      (by unfold maxDuration; omega)]
    omega
  have hlate : ¬ v.skewed (instant + v.clockSkew.toInt) (unixMilli (toInt64 m.tsMS.toNat)) := by
    rw [skewed, hinstant, instantSub_of_mem (by unfold minDuration; omega) (by omega)]
    omega
  have hfirst : (v.replay.checkAndStore m.clientID (hexEncode m.nonce)
      (instant - v.clockSkew.toInt)).1 = .ok () :=
    ReplayCache.checkAndStore_of_absent (by rw [hempty, Finmap.lookup_empty])
  have hstored := ReplayCache.stored_of_accepted hfirst
  refine ⟨[], [], [], rfl, ?_, ?_⟩
  · rw [accepts, after, foldl_nil, handle_signed hclient hlo hhi hearly hsecret hsig]
    simp [remember, hfirst, Except.isOk, Except.toBool]
  · have hsecond : ((v.replay.checkAndStore m.clientID (hexEncode m.nonce)
        (instant - v.clockSkew.toInt)).2.checkAndStore m.clientID (hexEncode m.nonce)
          (instant + v.clockSkew.toInt)).1 = .ok () :=
      ReplayCache.checkAndStore_of_stale hstored (by rw [ReplayCache.checkAndStore_ttl]; omega)
    rw [accepts, nil_append, after_cons, handle_signed hclient hlo hhi hearly hsecret hsig,
      after, foldl_nil]
    rw [handle_signed (v := (v.remember m.clientID (hexEncode m.nonce) _).2) hclient hlo hhi hlate
      hsecret hsig]
    simp [remember, hsecond, Except.isOk, Except.toBool]

end Verifier

/-- An AUTH tuple for a registered client, signed with its secret. -/
def signedAuth (crypto : Crypto) (clientID secret : Bytes) (tsMS : UInt64) : SessionAuth where
  clientID := clientID
  tsMS := tsMS
  nonce := List.replicate 12 0
  sig := crypto.hmac secret (sessionAuthMaterial clientID tsMS (List.replicate 12 0) 0)
  caps := 0

/-- Replay protection holds exactly when the replay window is longer than twice the clock skew,
or when no client with a non-empty id is registered and nothing is ever accepted. -/
theorem replayProtected_iff (crypto : Crypto) (secretFor : Bytes → Option Bytes) (cfg : Config)
    (hvalid : cfg.validate = .ok ()) :
    (newVerifier crypto secretFor cfg).ReplayProtected ↔
      2 * cfg.auth.clockSkew.toInt < cfg.auth.replayTTL.toInt ∨
        ∀ clientID, clientID ≠ [] → secretFor clientID = none := by
  obtain ⟨hskew, -⟩ := Config.validate_auth hvalid
  constructor
  · intro hsafe
    by_contra hcond
    push Not at hcond
    obtain ⟨hle, clientID, hclient, hreg⟩ := hcond
    obtain ⟨secret, hsecret⟩ := Option.ne_none_iff_exists'.mp hreg
    have htwice := Verifier.acceptsBoth_of_le (v := newVerifier crypto secretFor cfg)
      (m := signedAuth crypto clientID secret 17592186044416) rfl hclient (by simp [signedAuth])
      (by simp [signedAuth]) hsecret rfl rfl hskew.le hle
    refine hsafe _ ?_ _ _ htwice ⟨rfl, rfl, rfl⟩
    simp only [newVerifier, map_cons, map_nil, pairwise_cons, mem_singleton,
      forall_eq, not_mem_nil, false_imp_iff, implies_true, List.Pairwise.nil, and_true]
    omega
  · rintro (hlt | hnone)
    · exact Verifier.replayProtected_of_lt hlt
    · rintro events - e e' ⟨pre, mid, post, -, hacc, -⟩
      obtain ⟨-, -, hsecret⟩ := (newVerifier crypto secretFor cfg).after_settings pre
      obtain hrej | ⟨-, hreg, hne, -⟩ :=
        ((newVerifier crypto secretFor cfg).after pre).handle_cases e.1 e.2
      · simp [Verifier.accepts, hrej] at hacc
      · rw [hsecret] at hreg
        change (secretFor e.2.cacheKey.1).isSome = true at hreg
        simp [hnone _ hne] at hreg

/-- A digest that ignores its input. -/
def constantCrypto : Crypto where
  hmac _ _ := List.replicate 32 0
  sha256 _ := List.replicate 32 0
  mapUpper _ := []
  hmac_length _ _ := length_replicate
  sha256_length _ := length_replicate
  mapUpper_upper _ _ h := by cases h

/-- The shipped configuration with a replay window one second over twice the skew. -/
def widenedConfig : Config :=
  { Config.default with auth := ⟨60 * Config.second, 121 * Config.second⟩ }

theorem widenedConfig_replayProtected :
    widenedConfig.validate = .ok () ∧
      (newVerifier constantCrypto widenedConfig.clientSecrets.lookup
        widenedConfig).ReplayProtected :=
  ⟨rfl, (replayProtected_iff _ _ widenedConfig rfl).mpr (.inl (by decide))⟩

/-- A relay request of the smoke client, signed for the year 2025. -/
def capturedRequest : HTTPRequest where
  method := ascii "POST"
  path := ascii "/v1/relay/open"
  clientHeader := ascii "smoke-client"
  tsHeader := ascii "1760000000000"
  nonceHeader := ascii "n1"
  sigHeader := hexEncode (List.replicate 32 0)
  body := []

/-- Under the shipped 60s/60s windows both lanes accept a message sent again
two minutes later. -/
theorem defaultConfig_accepts_replay :
    Config.default.validate = .ok () ∧
      (newVerifier constantCrypto Config.default.clientSecrets.lookup
        Config.default).AcceptsBoth
        [(1759999940000000000, .http capturedRequest), (1760000060000000000, .http capturedRequest)]
        (1759999940000000000, .http capturedRequest)
        (1760000060000000000, .http capturedRequest) ∧
      (newVerifier constantCrypto Config.default.clientSecrets.lookup
        Config.default).AcceptsBoth
        [(1759999940000000000, .session (signedAuth constantCrypto (ascii "smoke-client")
          (ascii "smoke-secret") 1760000000000)),
        (1760000060000000000, .session (signedAuth constantCrypto (ascii "smoke-client")
          (ascii "smoke-secret") 1760000000000))]
        (1759999940000000000, .session (signedAuth constantCrypto (ascii "smoke-client")
          (ascii "smoke-secret") 1760000000000))
        (1760000060000000000, .session (signedAuth constantCrypto (ascii "smoke-client")
          (ascii "smoke-secret") 1760000000000)) ∧
      ¬ (newVerifier constantCrypto Config.default.clientSecrets.lookup
        Config.default).ReplayProtected := by
  have hhttp : (newVerifier constantCrypto Config.default.clientSecrets.lookup
      Config.default).AcceptsBoth
      [(1759999940000000000, .http capturedRequest), (1760000060000000000, .http capturedRequest)]
      (1759999940000000000, .http capturedRequest)
      (1760000060000000000, .http capturedRequest) :=
    ⟨[], [], [], rfl, by decide +kernel, by decide +kernel⟩
  refine ⟨rfl, hhttp, ⟨[], [], [], rfl, by decide +kernel, by decide +kernel⟩, fun hsafe => ?_⟩
  exact hsafe _ (by simp) _ _ hhttp ⟨rfl, rfl, rfl⟩

end VlfProto.Auth
