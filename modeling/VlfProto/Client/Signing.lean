import VlfProto.Auth.RejectedCalls
import VlfProto.Platform.URL
import VlfProto.Session.FrameStream
import VlfProto.Session.Payloads

/-! # What clients sign -/

namespace VlfProto.Client
open Platform Session Auth

def signSession (crypto : Crypto) (secret material : Bytes) : Bytes := crypto.hmac secret material

def authPayload (crypto : Crypto) (clientID secret : Bytes) (tsMS : UInt64) (nonce : Bytes)
    (caps : UInt64) : AuthPayload where
  clientID := clientID
  tsMS := tsMS.toNat
  nonce := nonce
  sig := signSession crypto secret (sessionAuthMaterial clientID tsMS nonce caps)
  caps := caps.toNat

/-- The methods that the relay client uses. -/
inductive Method where
  | get
  | post

def Method.text : Method → Bytes
  | .get => ascii "GET"
  | .post => ascii "POST"

inductive Endpoint where
  | open
  | send
  | recv
  | ping
  | close

def Endpoint.path : Endpoint → Bytes
  | .open => ascii "/v1/relay/open"
  | .send => ascii "/v1/relay/send"
  | .recv => ascii "/v1/relay/recv"
  | .ping => ascii "/v1/relay/ping"
  | .close => ascii "/v1/relay/close"

/-- An endpoint, alone or with a query. -/
def fullPath (endpoint : Endpoint) : Option Bytes → Bytes
  | none => endpoint.path
  | some query => endpoint.path ++ 63 :: query

def signHex (crypto : Crypto) (secret payload : Bytes) : Bytes :=
  hexEncode (crypto.hmac secret payload)

/-- Twelve random bytes, or the time when there are none, and a sequence number. -/
def newRelayNonce (random : Option Bytes) (nanos : ℤ) (seq : UInt64) : Bytes :=
  match random with
  | some buf => hexEncode buf ++ (ascii "-" ++ digitText 16 seq.toNat)
  | none => decimalInt nanos ++ (ascii "-" ++ digitText 16 seq.toNat)

structure RelayClient where
  clientID : Bytes
  secret : Bytes
  baseURL : Bytes

/-- The request as the gateway sees it, or nothing when its URL cannot be parsed. -/
def RelayClient.signedRequest (crypto : Crypto) (validAuthority : Bytes → Bool) (c : RelayClient)
    (method : Method) (fullPath body : Bytes) (ts : Int64) (nonce : Bytes) : Option HTTPRequest :=
  let signedPath := URL.before 63 fullPath
  let material := method.text ++ ascii "|" ++ signedPath ++ ascii "|" ++ decimalInt ts.toInt ++
    ascii "|" ++ nonce ++ ascii "|" ++ hashBody crypto body
  (URL.parse validAuthority (c.baseURL ++ fullPath)).map fun path =>
    { method := method.text
      path := path
      clientHeader := c.clientID
      tsHeader := decimalInt ts.toInt
      nonceHeader := nonce
      sigHeader := signHex crypto c.secret material
      body := body }

theorem graphic_newRelayNonce (random : Option Bytes) (nanos : ℤ) (seq : UInt64) :
    Graphic (newRelayNonce random nanos seq) := by
  have hseq : Graphic (ascii "-" ++ digitText 16 seq.toNat) := by
    have hdash : Graphic (ascii "-") := by decide +kernel
    exact hdash.append (graphic_digitText (by norm_num) le_rfl _)
  cases random with
  | none => exact (graphic_decimalInt nanos).append hseq
  | some buf => exact (graphic_hexEncode buf).append hseq

theorem newRelayNonce_ne_nil (random : Option Bytes) (nanos : ℤ) (seq : UInt64) :
    newRelayNonce random nanos seq ≠ [] := by
  cases random <;> simp [newRelayNonce, ascii]

theorem decimalInt_ne_nil (z : ℤ) : decimalInt z ≠ [] := by
  cases z with
  | ofNat n => exact decimal_ne_nil n
  | negSucc n => simp [decimalInt, ascii]

theorem before_fullPath (endpoint : Endpoint) (query : Option Bytes) :
    URL.before 63 (fullPath endpoint query) = endpoint.path := by
  have hplain : ∀ c ∈ endpoint.path, c ≠ 63 := by cases endpoint <;> decide +kernel
  cases query with
  | none => simpa [fullPath, URL.before] using URL.before_append hplain []
  | some query =>
    rw [fullPath, URL.before_append hplain]
    simp [URL.before]

theorem parse_fullPath {validAuthority : Bytes → Bool} {base : URL.Base} {endpoint : Endpoint}
    {query : Option Bytes} {path : Bytes}
    (h : URL.parse validAuthority (base.text ++ fullPath endpoint query) = some path) :
    path = endpoint.path := by
  have hslash : endpoint.path.head? = some 47 := by cases endpoint <;> rfl
  have hplain : ∀ c ∈ endpoint.path, c ≠ 37 ∧ c ≠ 63 ∧ c ≠ 35 := by
    cases endpoint <;> decide +kernel
  cases query with
  | none =>
    rw [fullPath, ← List.append_nil endpoint.path] at h
    exact URL.parse_base validAuthority base hslash hplain rfl h
  | some query => exact URL.parse_base validAuthority base hslash hplain (by simp [URL.before]) h

variable {crypto : Crypto} {v : Verifier} {now : ℤ} {clientID secret nonce : Bytes}

theorem readFrame_writeFrame_auth {p : AuthPayload}
    (halloc : (encodeAuthPayload p).length ≤ maxAlloc) (rest : Bytes) (fault : ReadError) :
    readFrame ⟨writeFrame frameAUTH (encodeAuthPayload p) ++ rest, fault⟩ =
      .ok (⟨frameAUTH, encodeAuthPayload p⟩, ⟨rest, fault⟩) :=
  readFrame_consumes ⟨1, encodeAuthPayload p, halloc⟩ rest fault

theorem sessionAuth_authPayload (crypto : Crypto) (clientID secret : Bytes) (tsMS : UInt64)
    (nonce : Bytes) (caps : UInt64) :
    sessionAuth (authPayload crypto clientID secret tsMS nonce caps) =
      ⟨clientID, tsMS, nonce, crypto.hmac secret (sessionAuthMaterial clientID tsMS nonce caps),
        caps⟩ := by
  simp [sessionAuth, authPayload, signSession]

/-- The signed payload of a registered client is accepted with a fresh nonce. -/
theorem verifySession_authPayload {events : List Event} {tsMS : UInt64}
    (hempty : v.replay.items = ∅) (hclient : clientID ≠ [])
    (hsecret : v.secretFor clientID = some secret) (hlo : 12 ≤ nonce.length)
    (hhi : nonce.length ≤ 32) (hclock : |now - unixMilli (toInt64 tsMS.toNat)| ≤ v.clockSkew.toInt)
    (hfresh : v.FreshAt events (clientID, hexEncode nonce) now) (caps : UInt64) :
    ((v.after events).verifySession now
      (sessionAuth (authPayload v.crypto clientID secret tsMS nonce caps))).1 = .ok () := by
  obtain ⟨-, hskew, hsecrets⟩ := v.after_settings events
  rw [sessionAuth_authPayload, Verifier.verifySession_signed hclient hlo hhi]
  · exact Verifier.remember_of_fresh hempty hfresh
  · exact Verifier.not_skewed (by rw [hskew]; exact hclock)
  · rw [hsecrets, hsecret]
  · rw [v.after_crypto events]

/-- A request that the relay client builds for an endpoint carries what was signed. -/
theorem verifyHTTP_signedRequest {c : RelayClient} {base : URL.Base}
    {validAuthority : Bytes → Bool} {method : Method} {endpoint : Endpoint}
    {query : Option Bytes} {body : Bytes} {ts : Int64} {req : HTTPRequest}
    (hbase : c.baseURL = base.text) (hclient : c.clientID ≠ [])
    (htrim : trimSpace c.clientID = c.clientID) (hsecret : v.secretFor c.clientID = some c.secret)
    (hnonce : nonce ≠ []) (hgraphic : Graphic nonce)
    (hskew : ¬v.skewed now (unixMilli ts.toInt))
    (hreq : c.signedRequest v.crypto validAuthority method (fullPath endpoint query) body ts nonce =
      some req) :
    v.verifyHTTP now req = ((v.remember c.clientID nonce now).1.map fun _ => c.clientID,
      (v.remember c.clientID nonce now).2) := by
  obtain ⟨path, hparse, hfields⟩ := Option.map_eq_some_iff.mp hreq
  rw [hbase] at hparse
  obtain rfl := parse_fullPath hparse
  have hid : req.clientID = c.clientID := by
    rw [← hfields]
    exact htrim
  have hnonce' : req.nonce = nonce := by
    rw [← hfields]
    exact trimSpace_of_graphic hgraphic
  have hts : trimSpace req.tsHeader = decimalInt ts.toInt := by
    rw [← hfields]
    exact trimSpace_of_graphic (graphic_decimalInt _)
  have hparse' : req.tsMS = some ts.toInt := by
    rw [HTTPRequest.tsMS, hts]
    exact parseInt64_decimalInt ts.le_toInt ts.toInt_lt
  have hupper : toUpper v.crypto.mapUpper method.text = method.text := by
    rw [toUpper, if_pos (by cases method <;> decide +kernel)]
    cases method <;> decide +kernel
  have hsig : trimSpace req.sigHeader =
      hexEncode (v.crypto.hmac c.secret (httpMaterial v.crypto req ts.toInt)) := by
    rw [httpMaterial, hnonce', ← hfields, hupper, before_fullPath]
    exact trimSpace_of_graphic (graphic_hexEncode _)
  have hverify := Verifier.verifyHTTP_signed (hid ▸ hclient) (hnonce' ▸ hnonce)
    (hts ▸ decimalInt_ne_nil _) hparse' hskew (hid ▸ hsecret) hsig
  rwa [hid, hnonce'] at hverify

theorem verifyHTTP_fresh_request {events : List Event} {c : RelayClient} {base : URL.Base}
    {validAuthority : Bytes → Bool} {method : Method} {endpoint : Endpoint}
    {query : Option Bytes} {body : Bytes} {ts : Int64} {req : HTTPRequest}
    (hempty : v.replay.items = ∅) (hbase : c.baseURL = base.text) (hclient : c.clientID ≠ [])
    (htrim : trimSpace c.clientID = c.clientID) (hsecret : v.secretFor c.clientID = some c.secret)
    (hnonce : nonce ≠ []) (hgraphic : Graphic nonce)
    (hclock : |now - unixMilli ts.toInt| ≤ v.clockSkew.toInt)
    (hfresh : v.FreshAt events (c.clientID, nonce) now)
    (hreq : c.signedRequest v.crypto validAuthority method (fullPath endpoint query) body ts nonce =
      some req) :
    ((v.after events).verifyHTTP now req).1 = .ok c.clientID := by
  obtain ⟨-, hskew, hsecrets⟩ := v.after_settings events
  rw [← v.after_crypto events] at hreq
  rw [verifyHTTP_signedRequest hbase hclient htrim (by rw [hsecrets, hsecret]) hnonce hgraphic
    (Verifier.not_skewed (by rw [hskew]; exact hclock)) hreq]
  exact congrArg (Except.map fun _ => c.clientID) (Verifier.remember_of_fresh hempty hfresh)

/-- A registered client with a clock inside the skew and a fresh nonce is accepted: its AUTH
frame on the session lane, and every request for an endpoint behind a base URL without a path on
the relay lane. -/
theorem honest_client_accepted (crypto : Crypto) (secretFor : Bytes → Option Bytes) (cfg : Config)
    (events : List Event) (now : ℤ) (clientID secret : Bytes) (hclient : clientID ≠ [])
    (hsecret : secretFor clientID = some secret) :
    (∀ (tsMS caps : UInt64) (nonce rest : Bytes) (fault : ReadError),
      12 ≤ nonce.length → nonce.length ≤ 32 →
      |now - unixMilli (toInt64 tsMS.toNat)| ≤ cfg.auth.clockSkew.toInt →
      (newVerifier crypto secretFor cfg).FreshAt events (clientID, hexEncode nonce) now →
      (encodeAuthPayload (authPayload crypto clientID secret tsMS nonce caps)).length ≤ maxAlloc →
      ∃ payload auth,
        readFrame ⟨writeFrame frameAUTH (encodeAuthPayload
          (authPayload crypto clientID secret tsMS nonce caps)) ++ rest, fault⟩ =
            .ok (⟨frameAUTH, payload⟩, ⟨rest, fault⟩) ∧
        decodeAuthPayload payload = .ok auth ∧
        (((newVerifier crypto secretFor cfg).after events).verifySession now
          (sessionAuth auth)).1 = .ok ()) ∧
    (∀ (validAuthority : Bytes → Bool) (base : URL.Base) (method : Method) (endpoint : Endpoint)
      (query : Option Bytes) (body : Bytes) (ts : Int64) (random : Option Bytes) (nanos : ℤ)
      (seq : UInt64) (req : HTTPRequest),
      trimSpace clientID = clientID →
      |now - unixMilli ts.toInt| ≤ cfg.auth.clockSkew.toInt →
      (newVerifier crypto secretFor cfg).FreshAt events
        (clientID, newRelayNonce random nanos seq) now →
      RelayClient.signedRequest crypto validAuthority ⟨clientID, secret, base.text⟩ method
        (fullPath endpoint query) body ts (newRelayNonce random nanos seq) = some req →
      (((newVerifier crypto secretFor cfg).after events).verifyHTTP now req).1 =
        .ok clientID) := by
  refine ⟨?_, ?_⟩
  · intro tsMS caps nonce rest fault hlo hhi hclock hfresh halloc
    exact ⟨_, _, readFrame_writeFrame_auth halloc rest fault,
      decodeAuthPayload_encode tsMS.toNat_lt caps.toNat_lt halloc,
      verifySession_authPayload rfl hclient hsecret hlo hhi hclock hfresh caps⟩
  · intro validAuthority base method endpoint query body ts random nanos seq req htrim hclock
      hfresh hreq
    exact verifyHTTP_fresh_request (v := newVerifier crypto secretFor cfg)
      (c := ⟨clientID, secret, base.text⟩) rfl rfl hclient htrim hsecret
      (newRelayNonce_ne_nil _ _ _) (graphic_newRelayNonce _ _ _) hclock hfresh hreq

/-- A gateway by name, on the port of the relay. -/
def gatewayBase : URL.Base where
  scheme := ascii "http"
  authority := ascii "gw:8080"
  scheme_letter := ⟨104, ascii "ttp", rfl, by decide +kernel⟩
  scheme_bytes := by decide +kernel
  authority_bytes := by decide +kernel

/-- The smoke client opens a session and asks for data at a fresh gateway. -/
theorem smoke_client_accepted :
    (∃ payload auth,
      readFrame ⟨writeFrame frameAUTH (encodeAuthPayload (authPayload constantCrypto
        (ascii "smoke-client") (ascii "smoke-secret") 1760000000000 (List.replicate 16 7) 3)),
          .eof⟩ = .ok (⟨frameAUTH, payload⟩, ⟨[], .eof⟩) ∧
      decodeAuthPayload payload = .ok auth ∧
      ((newVerifier constantCrypto Config.default.clientSecrets.lookup
        Config.default).verifySession 1760000000000000000 (sessionAuth auth)).1 = .ok ()) ∧
    ∃ req, RelayClient.signedRequest constantCrypto (fun _ => true)
        ⟨ascii "smoke-client", ascii "smoke-secret", gatewayBase.text⟩ .get
        (fullPath .recv (some (ascii "conn_id=a1&max=32768"))) [] 1760000000000
        (newRelayNonce (some (List.replicate 12 1)) 0 1) = some req ∧
      ((newVerifier constantCrypto Config.default.clientSecrets.lookup
        Config.default).verifyHTTP 1760000000000000000 req).1 = .ok (ascii "smoke-client") := by
  have hfresh : ∀ key, (newVerifier constantCrypto Config.default.clientSecrets.lookup
      Config.default).FreshAt [] key 1760000000000000000 := by
    rintro key t ⟨pre, e, post, hevents, -⟩
    simp at hevents
  obtain ⟨hsession, hrelay⟩ := honest_client_accepted constantCrypto
    Config.default.clientSecrets.lookup Config.default [] 1760000000000000000
    (ascii "smoke-client") (ascii "smoke-secret") (by decide) (by decide)
  refine ⟨?_, ?_⟩
  · exact hsession 1760000000000 3 (List.replicate 16 7) [] .eof (by decide) (by decide)
      (by decide) (hfresh _) (by decide +kernel)
  · obtain ⟨req, hreq⟩ : ∃ req, RelayClient.signedRequest constantCrypto (fun _ => true)
        ⟨ascii "smoke-client", ascii "smoke-secret", gatewayBase.text⟩ .get
        (fullPath .recv (some (ascii "conn_id=a1&max=32768"))) [] 1760000000000
        (newRelayNonce (some (List.replicate 12 1)) 0 1) = some req :=
      Option.isSome_iff_exists.mp (by decide +kernel)
    exact ⟨req, hreq, hrelay (fun _ => true) gatewayBase .get .recv _ [] 1760000000000 _ 0 1 req
      (by decide) (by decide) (hfresh _) hreq⟩

end VlfProto.Client
