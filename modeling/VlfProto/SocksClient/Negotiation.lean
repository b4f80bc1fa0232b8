import VlfProto.SocksClient.Address

/-!
# SOCKS5 negotiation

A client greets with the methods that it supports, gives its name and password if the proxy
asks for them, and sends its request. The replies of the proxy are taken to be written.
-/
namespace VlfProto.SocksClient
open Platform Session List

def socksVer5 : UInt8 := 5
def socksUserAuthVer : UInt8 := 1

def socksMethodNoAuth : UInt8 := 0
def socksMethodUserPass : UInt8 := 2
def socksMethodNoAcceptable : UInt8 := 0xff

def socksCmdConnect : UInt8 := 1
def socksCmdBind : UInt8 := 2
def socksCmdUDP : UInt8 := 3

inductive AuthMode where
  | none
  | userPass
  deriving DecidableEq

structure AuthConfig where
  mode : AuthMode
  username : Bytes
  password : Bytes

structure SocksRequest where
  cmd : UInt8
  target : Target

def pickMethod (methods : Bytes) : AuthMode → UInt8
  | .none => if socksMethodNoAuth ∈ methods then socksMethodNoAuth else socksMethodNoAcceptable
  | .userPass =>
    if socksMethodUserPass ∈ methods then socksMethodUserPass else socksMethodNoAcceptable

/-- A length byte and that many bytes, of which there is at least one. -/
def readCredential (lengthContext empty context : String) : Reader DecodeError Bytes := do
  let lnRaw ← (Reader.readFull 1).mapError (.field lengthContext)
  Reader.failIf ((lnRaw.getD 0 0).toNat ≤ 0) (.text empty)
  (Reader.readFull (lnRaw.getD 0 0).toNat).mapError (.field context)

def verifyUserPassAuth (cfg : AuthConfig) : Reader DecodeError Unit := do
  let ver ← (Reader.readFull 1).mapError (.field "read user/pass version")
  Reader.failIf (ver.getD 0 0 ≠ socksUserAuthVer)
    (.text ("invalid user/pass version: " ++ toString (ver.getD 0 0)))
  let userRaw ← readCredential "read username length" "empty username" "read username"
  let passRaw ← readCredential "read password length" "empty password" "read password"
  Reader.failIf (userRaw ≠ cfg.username ∨ passRaw ≠ cfg.password)
    (.text "invalid username/password")

/-- The greeting of the client, and the method that is selected. -/
def readGreeting (cfg : AuthConfig) : Reader DecodeError UInt8 := do
  let greetHdr ← (Reader.readFull 2).mapError (.field "read greeting header")
  Reader.failIf (greetHdr.getD 0 0 ≠ socksVer5)
    (.text ("unsupported SOCKS version: " ++ toString (greetHdr.getD 0 0)))
  Reader.failIf ((greetHdr.getD 1 0).toNat ≤ 0) (.text "no auth methods provided")
  let methods ← (Reader.readFull (greetHdr.getD 1 0).toNat).mapError (.field "read methods")
  Reader.failIf (pickMethod methods cfg.mode = socksMethodNoAcceptable)
    (.text "client does not support configured auth method")
  return pickMethod methods cfg.mode

def readRequest (ipText : IPText) : Reader DecodeError SocksRequest := do
  let reqHdr ← (Reader.readFull 4).mapError (.field "read request header")
  Reader.failIf (reqHdr.getD 0 0 ≠ socksVer5)
    (.text ("invalid request version: " ++ toString (reqHdr.getD 0 0)))
  let cmd := reqHdr.getD 1 0
  Reader.failIf (cmd ≠ socksCmdConnect ∧ cmd ≠ socksCmdBind ∧ cmd ≠ socksCmdUDP)
    (.text ("unsupported cmd: " ++ toString cmd))
  let target ← readTarget ipText (reqHdr.getD 3 0)
  return ⟨cmd, target⟩

def negotiateSOCKS5 (ipText : IPText) (cfg : AuthConfig) : Reader DecodeError SocksRequest := do
  let selectedMethod ← readGreeting cfg
  (if selectedMethod = socksMethodUserPass then verifyUserPassAuth cfg else pure ())
  readRequest ipText

def AuthMode.method : AuthMode → UInt8
  | .none => socksMethodNoAuth
  | .userPass => socksMethodUserPass

/-- `05 n m1 … mn` with the required method among them. -/
inductive Greeting (mode : AuthMode) : Bytes → Prop
  | mk (n : UInt8) (methods : Bytes) (hne : n ≠ 0) (hlength : methods.length = n.toNat)
      (hmethod : mode.method ∈ methods) : Greeting mode (socksVer5 :: n :: methods)

/-- Nothing, or `01 ulen user plen pass` with the configured name and password. -/
inductive Credentials (cfg : AuthConfig) : Bytes → Prop
  | none (hmode : cfg.mode = .none) : Credentials cfg []
  | userPass (ulen plen : UInt8) (hmode : cfg.mode = .userPass)
      (huser : cfg.username.length = ulen.toNat) (hpass : cfg.password.length = plen.toNat)
      (hune : cfg.username ≠ []) (hpne : cfg.password ≠ []) :
      Credentials cfg (socksUserAuthVer :: ulen :: cfg.username ++ plen :: cfg.password)

/-- `05 cmd rsv atyp address port`. -/
inductive RequestBytes (ipText : IPText) : Bytes → SocksRequest → Prop
  | mk (rsv atyp : UInt8) (enc : Bytes) (req : SocksRequest)
      (hcmd : req.cmd ∈ [socksCmdConnect, socksCmdBind, socksCmdUDP])
      (htarget : TargetBytes ipText atyp enc req.target) :
      RequestBytes ipText (socksVer5 :: req.cmd :: rsv :: atyp :: enc) req

/-- The byte strings that a client may negotiate with. -/
def Negotiation (ipText : IPText) (cfg : AuthConfig) (enc : Bytes) (req : SocksRequest) : Prop :=
  ∃ greeting credentials request, enc = greeting ++ credentials ++ request ∧
    Greeting cfg.mode greeting ∧ Credentials cfg credentials ∧ RequestBytes ipText request req

variable {ipText : IPText} {cfg : AuthConfig} {method : UInt8}

theorem pickMethod_eq (methods : Bytes) (mode : AuthMode) :
    pickMethod methods mode =
      if mode.method ∈ methods then mode.method else socksMethodNoAcceptable := by
  cases mode <;> rfl

theorem pickMethod_acceptable_iff {methods : Bytes} {mode : AuthMode} :
    pickMethod methods mode ≠ socksMethodNoAcceptable ↔ mode.method ∈ methods := by
  rw [pickMethod_eq]
  split_ifs with hmem
  · exact iff_of_true (by cases mode <;> decide) hmem
  · exact iff_of_false (fun h => h rfl) hmem

theorem toNat_le_zero_iff {b : UInt8} : b.toNat ≤ 0 ↔ b = 0 := by
  rw [Nat.le_zero, ← UInt8.toNat_inj]
  rfl

theorem readGreeting_accepts : (readGreeting cfg).Accepts fun enc method =>
    Greeting cfg.mode enc ∧ method = cfg.mode.method := by
  refine Reader.Accepts.congr (Reader.Accepts.readFull_bind fun hdr =>
    Reader.Accepts.failIf_bind (Reader.Accepts.failIf_bind
      (Reader.Accepts.readFull_bind fun methods =>
        Reader.Accepts.failIf_bind (Reader.accepts_pure _)))) fun enc method => ?_
  constructor
  · rintro ⟨hdr, _, rfl, hhdr, hver, hpos, methods, _, rfl, hlength, hpick, rfl, rfl⟩
    obtain ⟨ver, n, rfl⟩ := length_eq_two.mp hhdr
    have hmem := pickMethod_acceptable_iff.mp hpick
    rw [not_not] at hver
    subst hver
    rw [append_nil, pickMethod_eq, if_pos hmem]
    exact ⟨.mk n methods (fun hzero => hpos (toNat_le_zero_iff.mpr hzero)) hlength hmem, rfl⟩
  · rintro ⟨⟨n, methods, hne, hlength, hmem⟩, rfl⟩
    refine ⟨[socksVer5, n], methods, rfl, rfl, not_not.mpr rfl,
      fun hzero => hne (toNat_le_zero_iff.mp hzero), methods, [], by simp, hlength,
      pickMethod_acceptable_iff.mpr hmem, rfl, ?_⟩
    rw [pickMethod_eq, if_pos hmem]

theorem readCredential_accepts (lengthContext empty context : String) :
    (readCredential lengthContext empty context).Accepts fun enc raw =>
      ∃ ln : UInt8, enc = ln :: raw ∧ raw.length = ln.toNat ∧ raw ≠ [] := by
  refine Reader.Accepts.congr (Reader.Accepts.readFull_bind fun lnRaw =>
    Reader.Accepts.failIf_bind ((Reader.accepts_readFull _).mapError _)) fun enc raw => ?_
  constructor
  · rintro ⟨lnRaw, _, rfl, hln, hpos, rfl, hraw⟩
    obtain ⟨ln, rfl⟩ := length_eq_one_iff.mp hln
    refine ⟨ln, rfl, hraw, fun hnil => hpos ?_⟩
    rw [hnil] at hraw
    exact hraw.symm.le
  · rintro ⟨ln, rfl, hraw, hnil⟩
    refine ⟨[ln], raw, rfl, rfl, fun hzero => hnil ?_, rfl, hraw⟩
    exact length_eq_zero_iff.mp (hraw.trans (Nat.le_zero.mp hzero))

theorem verifyUserPassAuth_accepts (hmode : cfg.mode = .userPass) :
    (verifyUserPassAuth cfg).Accepts fun enc _ => Credentials cfg enc := by
  refine Reader.Accepts.congr (Reader.Accepts.readFull_bind fun ver =>
    Reader.Accepts.failIf_bind ((readCredential_accepts _ _ _).bind fun user =>
      (readCredential_accepts _ _ _).bind fun pass => Reader.accepts_failIf)) fun enc _ => ?_
  constructor
  · rintro ⟨verRaw, _, rfl, hlength, hver, user, _, _, rfl, ⟨ulen, rfl, huser, hune⟩, pass, _, _,
      rfl, ⟨plen, rfl, hpass, hpne⟩, hequal, rfl⟩
    obtain ⟨ver, rfl⟩ := length_eq_one_iff.mp hlength
    rw [not_not] at hver
    rw [not_or, not_not, not_not] at hequal
    obtain ⟨rfl, rfl⟩ := hequal
    subst hver
    rw [append_nil]
    exact .userPass ulen plen hmode huser hpass hune hpne
  · intro henc
    cases henc with
    | none hnone => exact absurd (hmode.symm.trans hnone) (by decide)
    | userPass ulen plen _ huser hpass hune hpne =>
      exact ⟨[socksUserAuthVer], _, rfl, rfl, not_not.mpr rfl, cfg.username, ulen :: cfg.username,
        plen :: cfg.password, rfl, ⟨ulen, rfl, huser, hune⟩, cfg.password, plen :: cfg.password, [],
        by simp, ⟨plen, rfl, hpass, hpne⟩, by simp, rfl⟩

theorem readRequest_accepts : (readRequest ipText).Accepts (RequestBytes ipText) := by
  refine Reader.Accepts.congr (Reader.Accepts.readFull_bind fun hdr =>
    Reader.Accepts.failIf_bind (Reader.Accepts.failIf_bind (readTarget_accepts.bind fun target =>
      Reader.accepts_pure _))) fun enc req => ?_
  constructor
  · rintro ⟨hdr, _, rfl, hhdr, hver, hcmd, target, addr, _, rfl, haddr, rfl, rfl⟩
    obtain ⟨ver, cmd, rsv, atyp, rfl⟩ := length_eq_four.mp hhdr
    rw [not_not] at hver
    subst hver
    rw [append_nil]
    refine .mk rsv atyp addr ⟨cmd, target⟩ ?_ haddr
    simpa [or_iff_not_imp_left] using hcmd
  · rintro ⟨rsv, atyp, addr, req, hcmd, haddr⟩
    refine ⟨[socksVer5, req.cmd, rsv, atyp], addr, rfl, rfl, not_not.mpr rfl, ?_, req.target, addr,
      [], by simp, haddr, rfl, rfl⟩
    simpa [or_iff_not_imp_left] using hcmd

/-- The second stage, once the method that the mode requires has been selected. -/
theorem authenticate_accepts (hmethod : method = cfg.mode.method) :
    (if method = socksMethodUserPass then verifyUserPassAuth cfg else pure ()).Accepts
      fun enc _ => Credentials cfg enc := by
  subst hmethod
  cases hmode : cfg.mode with
  | none =>
    refine (Reader.accepts_pure ()).congr fun enc _ => ⟨?_, fun henc => ?_⟩
    · rintro ⟨rfl, -⟩
      exact .none hmode
    · cases henc with
      | none => exact ⟨rfl, rfl⟩
      | userPass _ _ huserPass => exact absurd (hmode.symm.trans huserPass) (by decide)
  | userPass => exact verifyUserPassAuth_accepts hmode

/-- The proxy accepts exactly the negotiations, returns what they ask for and consumes nothing
beyond them. -/
theorem negotiateSOCKS5_accepts (ipText : IPText) (cfg : AuthConfig) :
    (negotiateSOCKS5 ipText cfg).Accepts (Negotiation ipText cfg) := by
  intro s req t
  rw [negotiateSOCKS5, Reader.bind_ok_iff]
  constructor
  · rintro ⟨method, u, hgreeting, hlater⟩
    obtain ⟨greeting, rfl, hg, hmethod⟩ := (readGreeting_accepts _ _ _).mp hgreeting
    obtain ⟨_, v, hauth, hrequest⟩ := Reader.bind_ok_iff.mp hlater
    obtain ⟨credentials, rfl, hc⟩ := (authenticate_accepts hmethod _ _ _).mp hauth
    obtain ⟨request, rfl, hr⟩ := (readRequest_accepts _ _ _).mp hrequest
    exact ⟨_, by simp only [append_assoc], greeting, credentials, request, rfl, hg, hc, hr⟩
  · rintro ⟨_, rfl, greeting, credentials, request, rfl, hg, hc, hr⟩
    simp only [append_assoc]
    refine ⟨cfg.mode.method, ⟨credentials ++ (request ++ t.data), t.fault⟩, ?_, ?_⟩
    · exact (readGreeting_accepts _ _ _).mpr ⟨greeting, rfl, hg, rfl⟩
    · refine Reader.bind_ok_iff.mpr ⟨(), ⟨request ++ t.data, t.fault⟩, ?_, ?_⟩
      · exact (authenticate_accepts rfl _ _ _).mpr ⟨credentials, rfl, hc⟩
      · exact (readRequest_accepts _ _ _).mpr ⟨request, rfl, hr⟩

end VlfProto.SocksClient
