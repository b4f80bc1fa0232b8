import VlfProto.Platform.IP

/-!
# The client of a UDP association

The UDP address that the answers go to is taken from the request, if the client has declared
one there, and from the datagrams that are accepted otherwise; a later datagram from the same
address changes the port. Where the request declares no address or one of the peer, all
answers go to the peer, at the port of the last datagram that was accepted.
-/
namespace VlfProto.SocksClient
open Platform

structure UDPAddr where
  ip : IP
  port : ℕ
  deriving DecidableEq

structure SocksTarget where
  host : Bytes
  port : ℕ
  deriving DecidableEq

/-- What an association knows of its client; no address is an empty one. -/
structure AssociationClient where
  clientIP : IP
  clientUDP : Option UDPAddr

namespace AssociationClient

/-- The address that a request declares. What `net.ParseIP` reads of the host is left open. -/
def declared (parseIP : Bytes → Option IP) (target : SocksTarget) : Option UDPAddr :=
  if 0 < target.port ∧ target.host ≠ [] then (parseIP target.host).map (⟨·, target.port⟩)
  else none

def create (parseIP : Bytes → Option IP) (peer : IP) (target : SocksTarget) : AssociationClient :=
  ⟨peer, declared parseIP target⟩

/-- The critical section of `acceptClientSource`. -/
def learn (c : AssociationClient) (src : UDPAddr) : AssociationClient :=
  match c.clientUDP with
  | none => { c with clientUDP := some src }
  | some udp =>
    if udp.ip.equal src.ip then { c with clientUDP := some { udp with port := src.port } } else c

def acceptClientSource (c : AssociationClient) (src : Option UDPAddr) :
    AssociationClient × Bool :=
  match src with
  | none => (c, false)
  | some src =>
    if src.ip = [] then (c, false)
    else if c.clientIP ≠ [] ∧ src.ip.equal c.clientIP = false then (c, false)
    else (c.learn src, true)

/-- A datagram is dropped, or it is accepted from an address of the known peer. -/
theorem acceptClientSource_cases (c : AssociationClient) (src : Option UDPAddr) :
    c.acceptClientSource src = (c, false) ∨
      ∃ a, src = some a ∧ (c.clientIP ≠ [] → a.ip.equal c.clientIP = true) ∧
        c.acceptClientSource src = (c.learn a, true) := by
  cases src with
  | none => exact .inl rfl
  | some a =>
    rw [acceptClientSource]
    split_ifs with hnil hother
    · exact .inl rfl
    · exact .inl rfl
    · refine .inr ⟨a, rfl, fun hknown => ?_, rfl⟩
      by_contra hne
      exact hother ⟨hknown, by simpa using hne⟩

/-- Where `reverseLoop` sends every datagram. -/
def clientEndpoint (c : AssociationClient) : Option UDPAddr := c.clientUDP

/-- What the reader knows after a datagram from `src`, with the source of the last datagram
that was accepted. -/
def offer (s : AssociationClient × Option UDPAddr) (src : Option UDPAddr) :
    AssociationClient × Option UDPAddr :=
  let r := s.1.acceptClientSource src
  (r.1, if r.2 then src else s.2)

def offers (c : AssociationClient) (srcs : List (Option UDPAddr)) :
    AssociationClient × Option UDPAddr :=
  srcs.foldl offer (c, none)

/-- The endpoint is at the peer, and at the port of the last accepted datagram. -/
structure Faithful (peer : IP) (s : AssociationClient × Option UDPAddr) : Prop where
  clientIP : s.1.clientIP = peer
  address : ∀ addr, s.1.clientEndpoint = some addr → addr.ip.equal peer = true
  port : ∀ src, s.2 = some src → ∃ addr, s.1.clientEndpoint = some addr ∧ addr.port = src.port

variable {peer : IP} {s : AssociationClient × Option UDPAddr}

theorem Faithful.learn_faithful (hs : Faithful peer s) {src : UDPAddr}
    (hsrc : src.ip.equal peer = true) : Faithful peer (s.1.learn src, some src) := by
  cases hudp : s.1.clientUDP with
  | none =>
    rw [learn, hudp]
    refine ⟨hs.clientIP, fun addr haddr => ?_, fun src' hsrc' => ?_⟩
    · cases haddr
      exact hsrc
    · cases hsrc'
      exact ⟨src, rfl, rfl⟩
  | some udp =>
    have hpeer : udp.ip.equal peer = true := hs.address udp hudp
    have hsame : udp.ip.equal src.ip = true := by
      rw [IP.equal_iff] at hpeer hsrc ⊢
      exact hpeer.trans hsrc.symm
    rw [learn, hudp]
    simp only [hsame, if_true]
    refine ⟨hs.clientIP, fun addr haddr => ?_, fun src' hsrc' => ?_⟩
    · cases haddr
      exact hpeer
    · cases hsrc'
      exact ⟨_, rfl, rfl⟩

theorem Faithful.offer_faithful (hs : Faithful peer s) (hpeer : peer ≠ [])
    (src : Option UDPAddr) : Faithful peer (offer s src) := by
  rcases s.1.acceptClientSource_cases src with hdropped | ⟨a, rfl, hequal, haccepted⟩
  · simpa [offer, hdropped] using hs
  · rw [hs.clientIP] at hequal
    simpa [offer, haccepted] using hs.learn_faithful (hequal hpeer)

theorem Faithful.foldl_faithful (hpeer : peer ≠ []) (srcs : List (Option UDPAddr)) :
    ∀ {s}, Faithful peer s → Faithful peer (srcs.foldl offer s) := by
  induction srcs with
  | nil => exact id
  | cons src srcs ih => exact fun hs => ih (hs.offer_faithful hpeer src)

/-- The answers go to the peer of the control connection, at the port of the last datagram that
was accepted, whatever datagrams arrive, if and only if the request declares no address or one
of the peer. -/
theorem endpoint_is_peer {parseIP : Bytes → Option IP} {peer : IP} {target : SocksTarget}
    (hpeer : peer ≠ []) :
    (∀ srcs addr, ((create parseIP peer target).offers srcs).1.clientEndpoint = some addr →
      addr.ip.equal peer = true ∧
        ∀ src, ((create parseIP peer target).offers srcs).2 = some src → addr.port = src.port) ↔
    ∀ addr, declared parseIP target = some addr → addr.ip.equal peer = true := by
  -- before the first datagram the endpoint is the declared address
  refine ⟨fun h addr haddr => (h [] addr haddr).1, fun hdeclared srcs addr haddr => ?_⟩
  have hfaithful : Faithful peer ((create parseIP peer target).offers srcs) :=
    Faithful.foldl_faithful hpeer srcs ⟨rfl, hdeclared, fun src h => by cases h⟩
  refine ⟨hfaithful.address addr haddr, fun src hsrc => ?_⟩
  obtain ⟨addr', haddr', hport⟩ := hfaithful.port src hsrc
  cases haddr.symm.trans haddr'
  exact hport

/-- A client that declares its own address at one port and sends from another. -/
theorem endpoint_learns_port :
    let peer : IP := [127, 0, 0, 1]
    let target : SocksTarget := ⟨ascii "127.0.0.1", 5000⟩
    ∃ addr, ((create parseIPv4 peer target).offers
        [some ⟨peer, 5001⟩, some ⟨[8, 8, 8, 8], 53⟩]).1.clientEndpoint = some addr ∧
      addr.ip.equal peer = true ∧ addr.port = 5001 := by
  intro peer target
  have hdeclared : ∀ addr, declared parseIPv4 target = some addr →
      addr.ip.equal peer = true := by
    have hvalue : declared parseIPv4 target = some ⟨v4InV6Prefix ++ [127, 0, 0, 1], 5000⟩ := by
      decide +kernel
    intro addr haddr
    cases hvalue.symm.trans haddr
    decide +kernel
  have haddr : ((create parseIPv4 peer target).offers
      [some ⟨peer, 5001⟩, some ⟨[8, 8, 8, 8], 53⟩]).1.clientEndpoint =
        some ⟨v4InV6Prefix ++ [127, 0, 0, 1], 5001⟩ := by decide +kernel
  obtain ⟨hip, hport⟩ := (endpoint_is_peer (by decide)).mpr hdeclared _ _ haddr
  exact ⟨_, haddr, hip, hport ⟨peer, 5001⟩ (by decide +kernel)⟩

/-- A client that declares the address of somebody else has the answers sent there, at the
port that it declared, also after a datagram of its own was accepted. -/
theorem endpoint_is_declared :
    let r := (create parseIPv4 [127, 0, 0, 1] ⟨ascii "203.0.113.9", 53⟩).offers
      [some ⟨[127, 0, 0, 1], 5001⟩]
    r.2 = some ⟨[127, 0, 0, 1], 5001⟩ ∧
      ∃ addr, r.1.clientEndpoint = some addr ∧ addr.ip.equal [203, 0, 113, 9] = true ∧
        addr.ip.equal [127, 0, 0, 1] = false ∧ addr.port = 53 := by
  refine ⟨by decide +kernel, ⟨v4InV6Prefix ++ [203, 0, 113, 9], 53⟩, ?_, ?_, ?_, rfl⟩ <;>
    decide +kernel

end AssociationClient
end VlfProto.SocksClient
