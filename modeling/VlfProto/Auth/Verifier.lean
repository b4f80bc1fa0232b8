import VlfProto.Config

/-! # The nonce cache -/

namespace VlfProto.Auth
open Platform Finmap

/-- The errors of the authentication layer. -/
inductive AuthError where
  | missingHeaders
  | parseTS
  | clockSkew
  | unknownClient
  | decodeSignature
  | badSignature
  | nonceSize (length : ℕ)
  | replay
  deriving DecidableEq, Repr

structure ReplayCache where
  ttl : Duration
  items : Table Bytes (Table Bytes ℤ)

def newReplayCache (ttl : Duration) : ReplayCache := ⟨ttl, ∅⟩

namespace ReplayCache

/-- The nonces of a client that survive the pruning loop at `now`. -/
def pruned (r : ReplayCache) (clientID : Bytes) (now : ℤ) : Table Bytes ℤ :=
  ((r.items.lookup clientID).getD ∅).filterMap fun _ ts =>
    if ts < now - r.ttl.toInt then none else some ts

def checkAndStore (r : ReplayCache) (clientID nonce : Bytes) (now : ℤ) :
    Except AuthError Unit × ReplayCache :=
  let clientNonces := r.pruned clientID now
  if (clientNonces.lookup nonce).any (fun ts => now - r.ttl.toInt < ts) then
    (.error .replay, { r with items := r.items.insert clientID clientNonces })
  else
    (.ok (), { r with items := r.items.insert clientID (clientNonces.insert nonce now) })

def Stored (r : ReplayCache) (clientID nonce : Bytes) (t : ℤ) : Prop :=
  ∃ nonces, r.items.lookup clientID = some nonces ∧ nonces.lookup nonce = some t

/-- The cache holds the nonce with an acceptance no older than `t`. -/
def Remembers (r : ReplayCache) (clientID nonce : Bytes) (t : ℤ) : Prop :=
  ∃ ts, r.Stored clientID nonce ts ∧ t ≤ ts

variable {r : ReplayCache} {clientID nonce : Bytes} {now t : ℤ}

@[simp] theorem checkAndStore_ttl (r : ReplayCache) (clientID nonce : Bytes) (now : ℤ) :
    (r.checkAndStore clientID nonce now).2.ttl = r.ttl := by
  unfold checkAndStore
  dsimp only
  split_ifs <;> rfl

theorem pruned_lookup (r : ReplayCache) (clientID nonce : Bytes) (now : ℤ) :
    (r.pruned clientID now).lookup nonce =
      (((r.items.lookup clientID).getD ∅).lookup nonce).bind
        fun ts => if ts < now - r.ttl.toInt then none else some ts := by
  rw [pruned, Table.lookup_filterMap]

theorem pruned_lookup_of_stored (h : r.Stored clientID nonce t) (now : ℤ) :
    (r.pruned clientID now).lookup nonce = if t < now - r.ttl.toInt then none else some t := by
  obtain ⟨nonces, hclient, hnonce⟩ := h
  rw [pruned_lookup, hclient, Option.getD_some, hnonce, Option.bind_some]

/-- A remembered nonce is refused as long as its acceptance is inside the window. -/
theorem checkAndStore_of_remembers (h : r.Remembers clientID nonce t)
    (hfresh : now - r.ttl.toInt < t) :
    r.checkAndStore clientID nonce now =
      (.error .replay, { r with items := r.items.insert clientID (r.pruned clientID now) }) := by
  obtain ⟨ts, hstored, hle⟩ := h
  have hkeep : ¬ ts < now - r.ttl.toInt := by omega
  have hafter : now - r.ttl.toInt < ts := by omega
  simp [checkAndStore, pruned_lookup_of_stored hstored, hkeep, hafter]

theorem stored_of_accepted (h : (r.checkAndStore clientID nonce now).1 = .ok ()) :
    (r.checkAndStore clientID nonce now).2.Stored clientID nonce now := by
  unfold checkAndStore at h ⊢
  dsimp only at h ⊢
  split_ifs at h ⊢
  exact ⟨_, lookup_insert _, lookup_insert _⟩

theorem checkAndStore_remembers (h : r.Remembers clientID nonce t)
    (hfresh : now - r.ttl.toInt < t) (clientID' nonce' : Bytes) :
    (r.checkAndStore clientID' nonce' now).2.Remembers clientID nonce t := by
  obtain ⟨ts, hstored, hle⟩ := h
  refine ⟨ts, ?_, hle⟩
  by_cases hclient : clientID = clientID'
  · subst hclient
    have hkeep : ¬ ts < now - r.ttl.toInt := by omega
    have hlookup := pruned_lookup_of_stored hstored now
    rw [if_neg hkeep] at hlookup
    by_cases hnonce : nonce = nonce'
    · subst hnonce
      rw [checkAndStore_of_remembers ⟨ts, hstored, hle⟩ hfresh]
      exact ⟨_, lookup_insert _, hlookup⟩
    · unfold checkAndStore
      dsimp only
      split_ifs
      · exact ⟨_, lookup_insert _, hlookup⟩
      · exact ⟨_, lookup_insert _, by rw [lookup_insert_of_ne _ hnonce, hlookup]⟩
  · obtain ⟨nonces, hitems, hlookup⟩ := hstored
    unfold checkAndStore
    dsimp only
    split_ifs <;>
      exact ⟨nonces, by rw [lookup_insert_of_ne _ hclient, hitems], hlookup⟩

theorem checkAndStore_of_absent (h : r.items.lookup clientID = none) :
    (r.checkAndStore clientID nonce now).1 = .ok () := by
  simp [checkAndStore, pruned_lookup, h]

/-- Outside the window, from the cutoff itself on, a stored nonce is accepted again. -/
theorem checkAndStore_of_stale (h : r.Stored clientID nonce t)
    (hstale : t ≤ now - r.ttl.toInt) : (r.checkAndStore clientID nonce now).1 = .ok () := by
  unfold checkAndStore
  dsimp only
  rw [pruned_lookup_of_stored h, if_neg]
  split_ifs
  · simp
  · simpa using hstale

end ReplayCache

/-! ### The request verifier

`VerifyHTTP` and `VerifySession` check a message in a fixed order (presence,
timestamp, skew, secret, signature) and consult the shared nonce cache last,
so only a correctly signed message ever reaches the cache. The HMAC and the
hash are parameters of which only the output length is known. So is the case
mapping of texts that are not ASCII, of which it is known that it leaves no
ASCII lower-case letter.
-/

/-- The library functions of the verifier, with what the rest of the code relies on. -/
structure Crypto where
  hmac : Bytes → Bytes → Bytes
  sha256 : Bytes → Bytes
  mapUpper : Bytes → Bytes
  hmac_length : ∀ secret payload, (hmac secret payload).length = 32
  sha256_length : ∀ body, (sha256 body).length = 32
  mapUpper_upper : ∀ text, ∀ c ∈ mapUpper text, ¬(97 ≤ c ∧ c ≤ 122)

structure Verifier where
  crypto : Crypto
  secretFor : Bytes → Option Bytes
  replay : ReplayCache
  clockSkew : Duration

def newVerifier (crypto : Crypto) (secretFor : Bytes → Option Bytes) (cfg : Config) : Verifier :=
  ⟨crypto, secretFor, newReplayCache cfg.auth.replayTTL, cfg.auth.clockSkew⟩

/-- The parts of an HTTP request the verifier reads; a header that is absent is empty. -/
structure HTTPRequest where
  method : Bytes
  path : Bytes
  clientHeader : Bytes
  tsHeader : Bytes
  nonceHeader : Bytes
  sigHeader : Bytes
  body : Bytes

namespace HTTPRequest

def clientID (r : HTTPRequest) : Bytes := trimSpace r.clientHeader
def nonce (r : HTTPRequest) : Bytes := trimSpace r.nonceHeader
def tsMS (r : HTTPRequest) : Option ℤ := parseInt64 (trimSpace r.tsHeader)

end HTTPRequest

/-- The arguments of `VerifySession`, decoded from an AUTH frame. -/
structure SessionAuth where
  clientID : Bytes
  tsMS : UInt64
  nonce : Bytes
  sig : Bytes
  caps : UInt64

def hashBody (crypto : Crypto) (body : Bytes) : Bytes := hexEncode (crypto.sha256 body)

def httpMaterial (crypto : Crypto) (r : HTTPRequest) (tsMS : ℤ) : Bytes :=
  toUpper crypto.mapUpper r.method ++ ascii "|" ++ r.path ++ ascii "|" ++ decimalInt tsMS ++
    ascii "|" ++ r.nonce ++ ascii "|" ++ hashBody crypto r.body

def sessionAuthMaterial (clientID : Bytes) (tsMS : UInt64) (nonce : Bytes) (caps : UInt64) :
    Bytes :=
  ascii "AUTH|" ++ clientID ++ ascii "|" ++ decimal tsMS.toNat ++ ascii "|" ++ hexEncode nonce ++
    ascii "|" ++ decimal caps.toNat

namespace Verifier

/-- The two-sided skew test on a message instant. -/
def skewed (v : Verifier) (now instant : ℤ) : Prop :=
  v.clockSkew.toInt < instantSub now instant ∨ instantSub now instant < -v.clockSkew.toInt

instance (v : Verifier) (now instant : ℤ) : Decidable (v.skewed now instant) :=
  inferInstanceAs (Decidable (_ ∨ _))

/-- The tail shared by both entry points: a signed message meets the nonce cache. -/
def remember (v : Verifier) (clientID nonceKey : Bytes) (now : ℤ) :
    Except AuthError Unit × Verifier :=
  let stored := v.replay.checkAndStore clientID nonceKey now
  (stored.1, { v with replay := stored.2 })

def verifyHTTP (v : Verifier) (now : ℤ) (r : HTTPRequest) : Except AuthError Bytes × Verifier :=
  let sigHex := trimSpace r.sigHeader
  if r.clientID = [] ∨ trimSpace r.tsHeader = [] ∨ r.nonce = [] ∨ sigHex = [] then
    (.error .missingHeaders, v)
  else match r.tsMS with
    | none => (.error .parseTS, v)
    | some tsMS =>
      if v.skewed now (unixMilli tsMS) then (.error .clockSkew, v)
      else match v.secretFor r.clientID with
        | none => (.error .unknownClient, v)
        | some secret =>
          match hexDecode sigHex with
          | none => (.error .decodeSignature, v)
          | some providedSig =>
            if v.crypto.hmac secret (httpMaterial v.crypto r tsMS) ≠ providedSig then
              (.error .badSignature, v)
            else
              let stored := v.remember r.clientID r.nonce now
              (stored.1.map fun _ => r.clientID, stored.2)

def verifySession (v : Verifier) (now : ℤ) (m : SessionAuth) : Except AuthError Unit × Verifier :=
  if m.clientID = [] ∨ m.nonce.length = 0 ∨ m.sig.length = 0 then (.error .missingHeaders, v)
  else if m.nonce.length < 12 ∨ 32 < m.nonce.length then (.error (.nonceSize m.nonce.length), v)
  else if v.skewed now (unixMilli (toInt64 m.tsMS.toNat)) then (.error .clockSkew, v)
  else match v.secretFor m.clientID with
    | none => (.error .unknownClient, v)
    | some secret =>
      if v.crypto.hmac secret (sessionAuthMaterial m.clientID m.tsMS m.nonce m.caps) ≠ m.sig then
        (.error .badSignature, v)
      else v.remember m.clientID (hexEncode m.nonce) now

end Verifier

/-- A message given to one verifier through either entry point. -/
inductive Request where
  | http (r : HTTPRequest)
  | session (m : SessionAuth)

namespace Request

/-- The cache cell a message is checked against. -/
def cacheKey : Request → Bytes × Bytes
  | .http r => (r.clientID, r.nonce)
  | .session m => (m.clientID, hexEncode m.nonce)

/-- The instant a message claims to have been made at. -/
def instant : Request → Option ℤ
  | .http r => r.tsMS.map unixMilli
  | .session m => some (unixMilli (toInt64 m.tsMS.toNat))

end Request

namespace Verifier

/-- Whether the message is accepted at `now`, and the verifier afterwards. -/
def handle (v : Verifier) (now : ℤ) : Request → Bool × Verifier
  | .http r => ((v.verifyHTTP now r).1.isOk, (v.verifyHTTP now r).2)
  | .session m => ((v.verifySession now m).1.isOk, (v.verifySession now m).2)

theorem skewed_replay (v : Verifier) (r : ReplayCache) (now instant : ℤ) :
    { v with replay := r }.skewed now instant = v.skewed now instant := rfl

/-- What a message can do, whatever is in the cache: nothing, or, inside the skew
window, one cache access. -/
theorem handle_replay_cases (v : Verifier) (now : ℤ) (q : Request) :
    (∀ r, { v with replay := r }.handle now q = (false, { v with replay := r })) ∨
      ((∃ instant, q.instant = some instant ∧ ¬ v.skewed now instant) ∧
        (v.secretFor q.cacheKey.1).isSome ∧ q.cacheKey.1 ≠ [] ∧
        ∀ r, { v with replay := r }.handle now q =
          (({ v with replay := r }.remember q.cacheKey.1 q.cacheKey.2 now).1.isOk,
            ({ v with replay := r }.remember q.cacheKey.1 q.cacheKey.2 now).2)) := by
  cases q with
  | http r =>
    simp only [handle, verifyHTTP, skewed_replay]
    split_ifs with hpresent
    · exact .inl fun _ => rfl
    · cases hts : r.tsMS with
      | none => exact .inl fun _ => rfl
      | some tsMS =>
        dsimp only
        split_ifs with hskew
        · exact .inl fun _ => rfl
        · cases hsecret : v.secretFor r.clientID with
          | none => exact .inl fun _ => rfl
          | some secret =>
            cases hsig : hexDecode (trimSpace r.sigHeader) with
            | none => exact .inl fun _ => rfl
            | some providedSig =>
              dsimp only
              split_ifs with hmac
              · exact .inl fun _ => rfl
              · refine .inr ⟨⟨_, by simp [Request.instant, hts], hskew⟩, ?_, ?_, fun cache => ?_⟩
                · simp [Request.cacheKey, hsecret]
                · exact fun hempty => hpresent (.inl hempty)
                · cases h : ({ v with replay := cache }.remember r.clientID r.nonce now).1 <;>
                    simp [Request.cacheKey, h, Except.map, Except.isOk, Except.toBool]
  | session m =>
    simp only [handle, verifySession, skewed_replay]
    by_cases hpresent : m.clientID = [] ∨ m.nonce.length = 0 ∨ m.sig.length = 0
    · simp only [hpresent, ↓reduceIte]
      exact .inl fun _ => rfl
    by_cases hsize : m.nonce.length < 12 ∨ 32 < m.nonce.length
    · simp only [hpresent, hsize, ↓reduceIte]
      exact .inl fun _ => rfl
    by_cases hskew : v.skewed now (unixMilli (toInt64 m.tsMS.toNat))
    · simp only [hpresent, hsize, hskew, ↓reduceIte]
      exact .inl fun _ => rfl
    simp only [hpresent, hsize, hskew, ↓reduceIte]
    cases hsecret : v.secretFor m.clientID with
    | none => exact .inl fun _ => rfl
    | some secret =>
      dsimp only
      split_ifs with hmac
      · exact .inl fun _ => rfl
      · exact .inr ⟨⟨_, rfl, hskew⟩, by simp [Request.cacheKey, hsecret],
          fun hempty => hpresent (.inl hempty), fun _ => rfl⟩

theorem handle_cases (v : Verifier) (now : ℤ) (q : Request) :
    v.handle now q = (false, v) ∨
      ((∃ instant, q.instant = some instant ∧ ¬ v.skewed now instant) ∧
        (v.secretFor q.cacheKey.1).isSome ∧ q.cacheKey.1 ≠ [] ∧
        v.handle now q = ((v.remember q.cacheKey.1 q.cacheKey.2 now).1.isOk,
          (v.remember q.cacheKey.1 q.cacheKey.2 now).2)) := by
  rcases v.handle_replay_cases now q with hnone | ⟨hinstant, hsecret, hclient, hstore⟩
  · exact .inl (hnone v.replay)
  · exact .inr ⟨hinstant, hsecret, hclient, hstore v.replay⟩

end Verifier
end VlfProto.Auth
