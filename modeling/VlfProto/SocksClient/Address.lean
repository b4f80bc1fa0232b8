import VlfProto.Platform.TextRoundTrip
import VlfProto.Session.Frame
import VlfProto.SocksClient.ClientEndpoint

/-!
# Target addresses of SOCKS5

A target is an address type, an address of that type and a port. The bytes are read from the
control connection, field by field, and from a datagram, by offsets. Both readers accept the
same grammar.
-/
namespace VlfProto.SocksClient
open Platform Session List Nat

def socksAtypIPv4 : UInt8 := 1
def socksAtypDomain : UInt8 := 3
def socksAtypIPv6 : UInt8 := 4

/-- A target with the address type under which it was sent. -/
structure Target extends SocksTarget where
  atyp : UInt8
  deriving DecidableEq

def readHost (ipText : IPText) (atyp : UInt8) : Reader DecodeError Bytes :=
  if atyp = socksAtypIPv4 then do
    let ipRaw ← (Reader.readFull 4).mapError (.field "read ipv4")
    return ipText.string ipRaw
  else if atyp = socksAtypIPv6 then do
    let ipRaw ← (Reader.readFull 16).mapError (.field "read ipv6")
    return ipText.string ipRaw
  else if atyp = socksAtypDomain then do
    let lnRaw ← (Reader.readFull 1).mapError (.field "read domain length")
    Reader.failIf ((lnRaw.getD 0 0).toNat ≤ 0) (.text "empty domain")
    let hostRaw ← (Reader.readFull (lnRaw.getD 0 0).toNat).mapError (.field "read domain")
    return hostRaw
  else Reader.fail (.text ("unsupported atyp: " ++ toString atyp))

def readTarget (ipText : IPText) (atyp : UInt8) : Reader DecodeError Target := do
  let host ← readHost ipText atyp
  let portRaw ← (Reader.readFull 2).mapError (.field "read target port")
  Reader.failIf (65535 < ofBigEndian portRaw)
    (.text ("invalid target port: " ++ toString (ofBigEndian portRaw)))
  return ⟨⟨host, ofBigEndian portRaw⟩, atyp⟩

/-- The byte at an index; past the end it is a panic. -/
def index (raw : Bytes) (i : ℕ) : Except (Stop DecodeError) UInt8 :=
  match raw[i]? with
  | some b => .ok b
  | none => .error .panic

/-- The bytes between two indices; outside of the buffer it is a panic. -/
def slice (raw : Bytes) (lo hi : ℕ) : Except (Stop DecodeError) Bytes :=
  if lo ≤ hi ∧ hi ≤ raw.length then .ok ((raw.take hi).drop lo) else .error .panic

def refuse {α : Type} (message : String) : Except (Stop DecodeError) α :=
  .error (.error (.text message))

/-- The address of a datagram, and the offset after it. -/
def parseUDPHost (ipText : IPText) (raw : Bytes) (atyp : UInt8) :
    Except (Stop DecodeError) (Bytes × ℕ) :=
  if atyp = socksAtypIPv4 then
    if raw.length < 4 + 4 + 2 then refuse "short udp ipv4 header"
    else do return (ipText.string (← slice raw 4 (4 + 4)), 4 + 4)
  else if atyp = socksAtypIPv6 then
    if raw.length < 4 + 16 + 2 then refuse "short udp ipv6 header"
    else do return (ipText.string (← slice raw 4 (4 + 16)), 4 + 16)
  else if atyp = socksAtypDomain then
    if raw.length < 4 + 1 then refuse "short udp domain length"
    else do
      let ln := (← index raw 4).toNat
      if ln ≤ 0 ∨ raw.length < 5 + ln + 2 then refuse "invalid udp domain length"
      else return (← slice raw 5 (5 + ln), 5 + ln)
  else refuse ("unsupported udp atyp: " ++ toString atyp)

/-- The fragment number, the target and the payload. -/
def parseSocksUDPDatagram (ipText : IPText) (raw : Bytes) :
    Except (Stop DecodeError) (UInt8 × Target × Bytes) :=
  if raw.length < 4 then refuse "udp datagram too short"
  else do
    if (← index raw 0) ≠ 0 ∨ (← index raw 1) ≠ 0 then refuse "invalid udp rsv"
    else
      let frag ← index raw 2
      let atyp ← index raw 3
      let (host, offset) ← parseUDPHost ipText raw atyp
      let port := ofBigEndian (← slice raw offset (offset + 2))
      if 65535 < port then refuse ("invalid udp target port: " ++ toString port)
      else return (frag, ⟨⟨host, port⟩, atyp⟩, ← slice raw (offset + 2) raw.length)

/-- The bytes of an address of some type, and the host that they stand for. -/
inductive HostBytes (ipText : IPText) : UInt8 → Bytes → Bytes → Prop
  | ipv4 (ip : IP) (h : ip.length = 4) : HostBytes ipText socksAtypIPv4 ip (ipText.string ip)
  | ipv6 (ip : IP) (h : ip.length = 16) : HostBytes ipText socksAtypIPv6 ip (ipText.string ip)
  | domain (ln : UInt8) (host : Bytes) (h : host.length = ln.toNat) (hne : ln ≠ 0) :
      HostBytes ipText socksAtypDomain (ln :: host) host

def TargetBytes (ipText : IPText) (atyp : UInt8) (enc : Bytes) (target : Target) : Prop :=
  ∃ addr port, enc = addr ++ port ∧ HostBytes ipText atyp addr target.host ∧ port.length = 2 ∧
    target.port = ofBigEndian port ∧ target.atyp = atyp

variable {ipText : IPText} {atyp : UInt8} {target : Target} {port b : Bytes}

theorem readHost_accepts : (readHost ipText atyp).Accepts (HostBytes ipText atyp) := by
  rw [readHost]
  split_ifs with h4 h6 hdomain
  · subst h4
    refine (Reader.Accepts.readFull_bind fun raw => Reader.accepts_pure _).congr fun enc host => ?_
    constructor
    · rintro ⟨ip, _, rfl, hip, rfl, rfl⟩
      rw [append_nil]
      exact .ipv4 ip hip
    · intro henc
      cases henc with
      | ipv4 _ hip => exact ⟨enc, [], (append_nil enc).symm, hip, rfl, rfl⟩
  · subst h6
    refine (Reader.Accepts.readFull_bind fun raw => Reader.accepts_pure _).congr fun enc host => ?_
    constructor
    · rintro ⟨ip, _, rfl, hip, rfl, rfl⟩
      rw [append_nil]
      exact .ipv6 ip hip
    · intro henc
      cases henc with
      | ipv6 _ hip => exact ⟨enc, [], (append_nil enc).symm, hip, rfl, rfl⟩
  · subst hdomain
    refine Reader.Accepts.congr (Reader.Accepts.readFull_bind fun lnRaw =>
      Reader.Accepts.failIf_bind ((Reader.accepts_readFull _).mapError _)) fun enc host => ?_
    constructor
    · rintro ⟨lnRaw, raw, rfl, hln, hpos, rfl, hraw⟩
      obtain ⟨ln, rfl⟩ := length_eq_one_iff.mp hln
      refine .domain ln host hraw fun hzero => hpos ?_
      simp [hzero]
    · intro henc
      cases henc with
      | domain ln host hhost hne =>
        refine ⟨[ln], host, rfl, rfl, fun hzero => hne ?_, rfl, hhost⟩
        exact UInt8.toNat_inj.mp (le_zero.mp hzero)
  · refine (Reader.accepts_fail _).congr fun enc host => iff_of_false id fun henc => ?_
    cases henc <;> contradiction

theorem ofBigEndian_pair (a b : UInt8) : ofBigEndian [a, b] = 256 * a.toNat + b.toNat := by
  simp [ofBigEndian]

theorem ofBigEndian_port_le (h : port.length = 2) : ofBigEndian port ≤ 65535 := by
  obtain ⟨a, b, rfl⟩ := length_eq_two.mp h
  have ha := a.toNat_lt
  have hb := b.toNat_lt
  rw [ofBigEndian_pair]
  omega

theorem readTarget_accepts : (readTarget ipText atyp).Accepts (TargetBytes ipText atyp) := by
  refine Reader.Accepts.congr (readHost_accepts.bind fun host =>
    Reader.Accepts.readFull_bind fun port =>
      Reader.Accepts.failIf_bind (Reader.accepts_pure _)) fun enc target => ?_
  constructor
  · rintro ⟨host, addr, _, rfl, haddr, port, _, rfl, hport, -, rfl, rfl⟩
    exact ⟨addr, port, by simp, haddr, hport, rfl, rfl⟩
  · rintro ⟨addr, port, rfl, haddr, hport, hvalue, rfl⟩
    refine ⟨target.host, addr, port, rfl, haddr, port, [], by simp, hport,
      not_lt.mpr (ofBigEndian_port_le hport), rfl, ?_⟩
    rw [← hvalue]

theorem slice_append (a b c : Bytes) :
    slice (a ++ b ++ c) a.length (a.length + b.length) = .ok b := by
  rw [slice, if_pos (by simp), take_left' length_append, drop_left]

def datagramHead (frag atyp : UInt8) : Bytes := [0, 0, frag, atyp]

theorem parseUDPHost_of_hostBytes {addr host : Bytes} (frag : UInt8) (payload : Bytes)
    (haddr : HostBytes ipText atyp addr host) (hport : port.length = 2) :
    parseUDPHost ipText (datagramHead frag atyp ++ (addr ++ port ++ payload)) atyp =
      .ok (host, 4 + addr.length) := by
  have hlength : (datagramHead frag atyp ++ (addr ++ port ++ payload)).length =
      4 + addr.length + 2 + payload.length := by
    simp only [datagramHead, length_append, length_cons, length_nil, hport]
    omega
  have hslice := slice_append (datagramHead frag atyp) addr (port ++ payload)
  rw [append_assoc, ← append_assoc addr] at hslice
  cases haddr with
  | ipv4 ip hip =>
    rw [hip] at hslice hlength ⊢
    rw [parseUDPHost, if_pos rfl, if_neg (by omega)]
    exact congrArg (Functor.map _) hslice
  | ipv6 ip hip =>
    rw [hip] at hslice hlength ⊢
    rw [parseUDPHost, if_neg (by decide), if_pos rfl, if_neg (by omega)]
    exact congrArg (Functor.map _) hslice
  | domain ln host hhost hne =>
    have hslice := slice_append (datagramHead frag socksAtypDomain ++ [ln]) host (port ++ payload)
    have hpos : ln.toNat ≠ 0 := fun hzero => hne (UInt8.toNat_inj.mp hzero)
    rw [hhost] at hslice
    rw [length_cons, hhost] at hlength
    rw [parseUDPHost, if_neg (by decide), if_neg (by decide), if_pos rfl, if_neg (by omega)]
    change (if ln.toNat ≤ 0 ∨ _ then _ else _) = _
    rw [if_neg (by omega), length_cons, hhost, add_comm ln.toNat, ← add_assoc]
    refine (congrArg (Functor.map _) (?_ : _ = Except.ok host)).trans rfl
    rw [← hslice]
    simp [datagramHead]

theorem exists_cut {n : ℕ} (h : n + 2 ≤ b.length) :
    ∃ addr port payload, b = addr ++ port ++ payload ∧ addr.length = n ∧ port.length = 2 := by
  refine ⟨b.take n, (b.drop n).take 2, (b.drop n).drop 2, ?_, ?_, ?_⟩
  · rw [append_assoc, take_append_drop, take_append_drop]
  · exact length_take_of_le (by omega)
  · exact length_take_of_le (by rw [length_drop]; omega)

/-- The address of a datagram is refused, or it is one of the grammar with a port after it. -/
theorem parseUDPHost_cases (ipText : IPText) (frag atyp : UInt8) (b : Bytes) :
    (∃ e, parseUDPHost ipText (datagramHead frag atyp ++ b) atyp = .error (.error e)) ∨
      ∃ addr port payload host, b = addr ++ port ++ payload ∧ port.length = 2 ∧
        HostBytes ipText atyp addr host := by
  have hlength : (datagramHead frag atyp ++ b).length = 4 + b.length := by
    rw [length_append]
    rfl
  rw [parseUDPHost, hlength]
  split_ifs with h4 hshort h6 hshort hdomain hshort
  · exact .inl ⟨_, rfl⟩
  · subst h4
    obtain ⟨ip, port, payload, rfl, hip, hport⟩ := exists_cut (b := b) (n := 4) (by omega)
    exact .inr ⟨ip, port, payload, _, rfl, hport, .ipv4 ip hip⟩
  · exact .inl ⟨_, rfl⟩
  · subst h6
    obtain ⟨ip, port, payload, rfl, hip, hport⟩ := exists_cut (b := b) (n := 16) (by omega)
    exact .inr ⟨ip, port, payload, _, rfl, hport, .ipv6 ip hip⟩
  · exact .inl ⟨_, rfl⟩
  · cases b with
    | nil => exact absurd (by simp) hshort
    | cons ln b =>
      change (∃ e, (if ln.toNat ≤ 0 ∨ _ then _ else _) = _) ∨ _
      split_ifs with hrefused
      · exact .inl ⟨_, rfl⟩
      · rw [length_cons] at hrefused
        obtain ⟨host, port, payload, rfl, hhost, hport⟩ := exists_cut (b := b) (n := ln.toNat)
          (by omega)
        refine .inr ⟨ln :: host, port, payload, host, rfl, hport,
          hdomain ▸ .domain ln host hhost ?_⟩
        exact fun hzero => hrefused (.inl (by simp [hzero]))
  · exact .inl ⟨_, rfl⟩

theorem parse_of_targetBytes {enc : Bytes} (frag : UInt8)
    (henc : TargetBytes ipText atyp enc target) (payload : Bytes) :
    parseSocksUDPDatagram ipText (datagramHead frag atyp ++ (enc ++ payload)) =
      .ok (frag, target, payload) := by
  obtain ⟨addr, port, rfl, haddr, hport, hvalue, rfl⟩ := henc
  have hhost := parseUDPHost_of_hostBytes frag payload haddr hport
  have hportSlice := slice_append (datagramHead frag target.atyp ++ addr) port payload
  have hpayload := slice_append (datagramHead frag target.atyp ++ addr ++ port) payload []
  have hlength : (datagramHead frag target.atyp).length = 4 := rfl
  simp only [append_assoc, append_nil, length_append, hport, hlength]
    at hhost hportSlice hpayload
  rw [parseSocksUDPDatagram, if_neg (by simp [datagramHead])]
  change (parseUDPHost ipText _ target.atyp >>= _) = _
  rw [append_assoc, hhost]
  change (slice _ (4 + addr.length) _ >>= _) = _
  rw [hportSlice]
  change (if 65535 < ofBigEndian port then _ else _) = _
  rw [if_neg (not_lt.mpr (ofBigEndian_port_le hport)), ← hvalue]
  refine (congrArg (Functor.map _) (?_ : _ = Except.ok payload)).trans rfl
  rw [← hpayload]
  congr 1
  simp only [length_append, hport, hlength]
  omega

/-- A datagram is refused, or it is read as the grammar says. -/
theorem parse_cases (ipText : IPText) (raw : Bytes) :
    (∃ e, parseSocksUDPDatagram ipText raw = .error (.error e)) ∨
      ∃ frag atyp enc payload target, raw = datagramHead frag atyp ++ (enc ++ payload) ∧
        TargetBytes ipText atyp enc target := by
  rcases raw with _ | ⟨a, _ | ⟨b, _ | ⟨frag, _ | ⟨atyp, raw⟩⟩⟩⟩
  · exact .inl ⟨_, rfl⟩
  · exact .inl ⟨_, rfl⟩
  · exact .inl ⟨_, rfl⟩
  · exact .inl ⟨_, rfl⟩
  · by_cases hrsv : a = 0 ∧ b = 0
    · obtain ⟨rfl, rfl⟩ := hrsv
      rcases parseUDPHost_cases ipText frag atyp raw with
        ⟨e, he⟩ | ⟨addr, port, payload, host, rfl, hport, haddr⟩
      · refine .inl ⟨e, ?_⟩
        change (parseUDPHost ipText (datagramHead frag atyp ++ raw) atyp >>= _) = _
        rw [he]
        rfl
      · exact .inr ⟨frag, atyp, addr ++ port, payload, ⟨⟨host, ofBigEndian port⟩, atyp⟩, rfl,
          addr, port, rfl, haddr, hport, rfl, rfl⟩
    · refine .inl ⟨.text "invalid udp rsv", ?_⟩
      change (if a ≠ 0 ∨ b ≠ 0 then _ else _) = _
      rw [if_pos (by tauto)]
      rfl

theorem parse_ok_iff {frag frag' : UInt8} {payload : Bytes} :
    parseSocksUDPDatagram ipText (datagramHead frag atyp ++ b) = .ok (frag', target, payload) ↔
      frag' = frag ∧ ∃ enc, b = enc ++ payload ∧ TargetBytes ipText atyp enc target := by
  constructor
  · intro h
    rcases parse_cases ipText (datagramHead frag atyp ++ b) with
      ⟨e, he⟩ | ⟨frag₁, atyp₁, enc, payload₁, target₁, hraw, henc⟩
    · rw [he] at h
      cases h
    · obtain ⟨rfl, rfl, rfl⟩ : frag = frag₁ ∧ atyp = atyp₁ ∧ b = enc ++ payload₁ := by
        simpa [datagramHead] using hraw
      rw [parse_of_targetBytes frag henc] at h
      cases h
      exact ⟨rfl, enc, rfl, henc⟩
  · rintro ⟨rfl, enc, rfl, henc⟩
    exact parse_of_targetBytes frag' henc payload

theorem readTarget_ok_iff {fault : ReadError} {s : Source} :
    readTarget ipText atyp ⟨b, fault⟩ = .ok (target, s) ↔
      s.fault = fault ∧ ∃ enc, b = enc ++ s.data ∧ TargetBytes ipText atyp enc target := by
  rw [readTarget_accepts]
  constructor
  · rintro ⟨enc, heq, henc⟩
    cases heq
    exact ⟨rfl, enc, rfl, henc⟩
  · rintro ⟨rfl, enc, rfl, henc⟩
    exact ⟨enc, rfl, henc⟩

/-- Both parsers read the same targets from the same bytes, leave the same rest, and the parser
of datagrams always returns. -/
theorem address_parsers_agree (ipText : IPText) (frag atyp : UInt8) (b : Bytes)
    (fault : ReadError) (target : Target) :
    (∀ k, readTarget ipText atyp ⟨b, fault⟩ = .ok (target, ⟨b.drop k, fault⟩) ↔
      parseSocksUDPDatagram ipText (datagramHead frag atyp ++ b) = .ok (frag, target, b.drop k)) ∧
    (∀ s, readTarget ipText atyp ⟨b, fault⟩ = .ok (target, s) →
      ∃ k ≤ b.length, s = ⟨b.drop k, fault⟩) ∧
    (∀ frag' payload,
      parseSocksUDPDatagram ipText (datagramHead frag atyp ++ b) = .ok (frag', target, payload) →
      frag' = frag ∧ ∃ k ≤ b.length, payload = b.drop k) ∧
    ∀ raw, Returns (parseSocksUDPDatagram ipText raw) := by
  refine ⟨fun k => ?_, fun s h => ?_, fun frag' payload h => ?_, fun raw => ?_⟩
  · rw [readTarget_ok_iff, parse_ok_iff, and_iff_right rfl, and_iff_right rfl]
  · obtain ⟨rfl, enc, rfl, -⟩ := readTarget_ok_iff.mp h
    exact ⟨enc.length, by simp, by rw [drop_left]⟩
  · obtain ⟨rfl, enc, rfl, -⟩ := parse_ok_iff.mp h
    exact ⟨rfl, enc.length, by simp, by rw [drop_left]⟩
  · rcases parse_cases ipText raw with ⟨e, he⟩ | ⟨frag, atyp, enc, payload, target, rfl, henc⟩
    · exact .inr ⟨e, he⟩
    · exact .inl ⟨_, parse_of_targetBytes frag henc payload⟩

/-- The errors name the host. -/
inductive AddrError where
  | invalidIPv4 (host : Bytes)
  | invalidIPv6 (host : Bytes)
  | invalidDomain (host : Bytes)
  deriving DecidableEq

def encodeIPv4 (ipText : IPText) (host : Bytes) : Except AddrError Bytes :=
  match (ipText.parse host).bind IP.to4 with
  | none => .error (.invalidIPv4 host)
  | some ip => .ok (socksAtypIPv4 :: ip)

def encodeIPv6 (ipText : IPText) (host : Bytes) : Except AddrError Bytes :=
  match ipText.parse host with
  | none => .error (.invalidIPv6 host)
  | some ip => .ok (socksAtypIPv6 :: ip.to16)

def encodeDomain (host : Bytes) : Except AddrError Bytes :=
  if trimSpace host = [] ∨ 255 < (trimSpace host).length then .error (.invalidDomain host)
  else .ok (socksAtypDomain :: (trimSpace host).length.toUInt8 :: trimSpace host)

/-- An unknown address type is inferred from the host. -/
def encodeTargetAddr (ipText : IPText) (target : Target) : Except AddrError Bytes :=
  if target.atyp = socksAtypIPv4 then encodeIPv4 ipText target.host
  else if target.atyp = socksAtypIPv6 then encodeIPv6 ipText target.host
  else if target.atyp = socksAtypDomain then encodeDomain target.host
  else match ipText.parse target.host with
    | some ip =>
      match ip.to4 with
      | some ip4 => encodeIPv4 ipText (ipText.string ip4)
      | none => encodeIPv6 ipText (ipText.string ip)
    | none => encodeDomain target.host

def buildSocksUDPDatagram (ipText : IPText) (target : Target) (payload : Bytes) :
    Except AddrError Bytes :=
  (encodeTargetAddr ipText target).map fun addrRaw =>
    let port := if 65535 < target.port then 0 else target.port
    [0, 0, 0] ++ addrRaw ++ [(port / 256).toUInt8, port.toUInt8] ++ payload

theorem port_bytes (h : port.length = 2) :
    [(ofBigEndian port / 256).toUInt8, (ofBigEndian port).toUInt8] = port := by
  obtain ⟨a, b, rfl⟩ := length_eq_two.mp h
  have ha := a.toNat_lt
  have hb := b.toNat_lt
  rw [ofBigEndian_pair]
  congr 1
  · rw [← UInt8.toNat_inj, toUInt8_eq, UInt8.toNat_ofNat']
    omega
  · rw [List.cons.injEq, ← UInt8.toNat_inj, toUInt8_eq, UInt8.toNat_ofNat']
    exact ⟨by omega, rfl⟩

theorem encodeTargetAddr_ipv4 {ip : IP} (hip : ip.length = 4)
    (hhost : target.host = ipText.string ip) (hatyp : target.atyp = socksAtypIPv4) :
    encodeTargetAddr ipText target = .ok (socksAtypIPv4 :: ip) := by
  rw [encodeTargetAddr, if_pos hatyp, encodeIPv4, hhost, ipText.parse_string ip (.inl hip),
    Option.bind_some, IP.to4_to16 hip]

theorem encodeTargetAddr_ipv6 {ip : IP} (hip : ip.length = 16)
    (hhost : target.host = ipText.string ip) (hatyp : target.atyp = socksAtypIPv6) :
    encodeTargetAddr ipText target = .ok (socksAtypIPv6 :: ip) := by
  have hto16 : ip.to16 = ip := if_neg (by omega)
  rw [encodeTargetAddr, hatyp, if_neg (by decide), if_pos rfl, encodeIPv6, hhost,
    ipText.parse_string ip (.inr hip)]
  simp only [hto16]

/-- A domain comes back as it was unless it has white space around it. -/
theorem encodeDomain_iff {ln : UInt8} {host payload : Bytes} (hhost : host.length = ln.toNat)
    (hne : ln ≠ 0) :
    (encodeDomain host).map (fun addrRaw => [0, 0, 0] ++ addrRaw ++ port ++ payload) =
      .ok (datagramHead 0 socksAtypDomain ++ (ln :: host ++ port ++ payload)) ↔
        trimSpace host = host := by
  have hln := ln.toNat_lt
  constructor
  · intro h
    rw [encodeDomain] at h
    split_ifs at h with hrefused
    · cases h
    · have hshort : (trimSpace host).length ≤ 255 := not_lt.mp fun hlong => hrefused (.inr hlong)
      simp only [Except.map, datagramHead, Except.ok.injEq, append_assoc, cons_append,
        nil_append, List.cons.injEq, true_and] at h
      obtain ⟨hlength, hrest⟩ := h
      have hlength' : (trimSpace host).length = host.length := by
        rw [hhost, ← hlength, toUInt8_eq, UInt8.toNat_ofNat']
        omega
      exact (append_inj hrest hlength').1
  · intro htrim
    have hpos : ln.toNat ≠ 0 := fun hzero => hne (UInt8.toNat_inj.mp hzero)
    have hnil : host ≠ [] := fun hnil => hpos (by rw [← hhost, hnil]; rfl)
    have hbyte : host.length.toUInt8 = ln := by
      rw [← UInt8.toNat_inj, toUInt8_eq, UInt8.toNat_ofNat']
      omega
    rw [encodeDomain, htrim, if_neg (by rw [not_or]; exact ⟨hnil, by omega⟩), hbyte]
    rfl

/-- A datagram without fragments is built again from what was read of it, unless it names a
domain with white space around it. -/
theorem datagram_echoed_iff {raw payload : Bytes} {target : Target}
    (h : parseSocksUDPDatagram ipText raw = .ok (0, target, payload)) :
    buildSocksUDPDatagram ipText target payload = .ok raw ↔
      (target.atyp = socksAtypDomain → trimSpace target.host = target.host) := by
  rcases parse_cases ipText raw with ⟨e, he⟩ | ⟨frag, atyp, enc, payload₁, target₁, rfl, henc⟩
  · rw [he] at h
    cases h
  · rw [parse_of_targetBytes frag henc] at h
    cases h
    obtain ⟨addr, port, rfl, haddr, hport, hvalue, hatyp⟩ := henc
    have hbuild : buildSocksUDPDatagram ipText target payload =
        (encodeTargetAddr ipText target).map
          fun addrRaw => [0, 0, 0] ++ addrRaw ++ port ++ payload := by
      rw [buildSocksUDPDatagram, hvalue, if_neg (not_lt.mpr (ofBigEndian_port_le hport))]
      simp only [port_bytes hport]
    rw [hbuild]
    generalize hhost : target.host = host at haddr ⊢
    cases haddr with
    | ipv4 _ hip =>
      rw [encodeTargetAddr_ipv4 hip hhost hatyp]
      refine iff_of_true ?_ fun hdomain => absurd (hatyp.symm.trans hdomain) (by decide)
      simp [Except.map, datagramHead]
    | ipv6 _ hip =>
      rw [encodeTargetAddr_ipv6 hip hhost hatyp]
      refine iff_of_true ?_ fun hdomain => absurd (hatyp.symm.trans hdomain) (by decide)
      simp [Except.map, datagramHead]
    | domain ln _ hlength hne =>
      rw [encodeTargetAddr, hatyp, if_neg (by decide), if_neg (by decide), if_pos rfl, hhost,
        forall_prop_of_true rfl]
      exact encodeDomain_iff hlength hne

/-- Addresses written as hexadecimal digits. -/
def hexText : IPText where
  string ip := hexEncode ip.to16
  parse := hexDecode
  parse_string ip _ := hexDecode_hexEncode ip.to16

/-- Port 53 of a domain, and a payload of one byte. -/
def domainDatagram (host : Bytes) : Bytes :=
  datagramHead 0 socksAtypDomain ++ (host.length.toUInt8 :: host ++ [0, 53, 7])

theorem plain_domain_echoed :
    buildSocksUDPDatagram hexText ⟨⟨ascii "a.b", 53⟩, socksAtypDomain⟩ [7] =
      .ok (domainDatagram (ascii "a.b")) := by
  have hparsed : parseSocksUDPDatagram hexText (domainDatagram (ascii "a.b")) =
      .ok (0, ⟨⟨ascii "a.b", 53⟩, socksAtypDomain⟩, [7]) := by decide +kernel
  exact (datagram_echoed_iff hparsed).mpr fun _ => by decide +kernel

/-- The space in front of a domain is lost, and with it a byte of the header. -/
theorem spaced_domain_changed :
    parseSocksUDPDatagram hexText (domainDatagram (ascii " a")) =
        .ok (0, ⟨⟨ascii " a", 53⟩, socksAtypDomain⟩, [7]) ∧
      buildSocksUDPDatagram hexText ⟨⟨ascii " a", 53⟩, socksAtypDomain⟩ [7] =
        .ok (domainDatagram (ascii "a")) ∧
      domainDatagram (ascii "a") ≠ domainDatagram (ascii " a") := by
  decide +kernel

end VlfProto.SocksClient
