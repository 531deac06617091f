/-
This file follows the public IP of a node (`p2p/src/config.rs`) into its peer messages
(`lookup.rs`). The listen and discovery endpoints of a configuration are texts; an endpoint
is parsed from its text by `net/src/endpoint.rs`, and the lookup service puts the public IP
in place of an address of the same family.

An IPv4 address in the text of an endpoint becomes an IP address and is replaced. An IPv6
address stands in brackets there, and with them it becomes a domain name, so it never is
(`publicIp_advertised_iff`).
-/

import Karyon.Net.Endpoint
import Karyon.P2p.Lookup

namespace Karyon.P2p

open Karyon.Net NumberText IpText UrlText

/-- The IP address that a host is the text of: an IPv4 address as it is, an IPv6 address in
brackets. -/
def literalOf (host : List Char) : Option IpAddr :=
  match host with
  | '[' :: inner => (parseIpv6 inner.dropLast).map fun pieces => .ofIp (.v6 pieces)
  | _ =>
    match readIp host with
    | some (.v4 octets) => some (.ofIp (.v4 octets))
    | _ => none

/-- To the endpoint an IPv4 address is an IP address, and any other host is a domain name. -/
theorem hostAddr_eq {host : List Char} (stable : Stable host) :
    hostAddr host =
      match literalOf host with
      | some (.v4 octets) => .ip (.v4 octets)
      | _ => .domain (.ofList host) := by
  cases stable with
  | opaqueHost allowed plain =>
    have literal : literalOf host =
        match readIp host with
        | some (.v4 octets) => some (.ofIp (.v4 octets))
        | _ => none := by
      unfold literalOf
      split
      · exact absurd (allowed '[' List.mem_cons_self) (by decide)
      · rfl
    rw [hostAddr, literal]
    cases read : readIp host with
    | none => rfl
    | some ip =>
      rcases readIp_eq_some read with ⟨octets, rfl, _⟩ | colon
      · rfl
      · exact absurd (allowed ':' colon) (by decide)
  | address eight =>
    rw [hostAddr, bracketed, readIp_bracket, literalOf, List.dropLast_concat,
      parseIpv6_ipv6Text eight]
    rfl

/-- What the node advertises for an endpoint: the address that stands for it in the message that
the node sends. -/
structure LookupService.Advertises {semver : Semver} (service : LookupService semver)
    (bloom : LocalBloom) (endpoint : Endpoint) (addr : PeerAddr) : Prop where
  advertised : advertisedAddr endpoint service.config.publicIp = some addr
  sent : service.sendPeerMsg bloom = some (.peer (service.selfMsg bloom))
  listen : endpoint ∈ service.endpoints.listen → addr ∈ (service.selfMsg bloom).addrs
  discovery : some endpoint ∈ [service.endpoints.lookup, service.endpoints.refresh] →
    addr ∈ (service.selfMsg bloom).discoveryAddrs

section Service

variable {semver : Semver} {service : LookupService semver} {endpoint : Endpoint}
  {addr : PeerAddr}

theorem LookupService.advertises (bloom : LocalBloom)
    (listed : endpoint ∈ service.endpoints.listen ∨
      some endpoint ∈ [service.endpoints.lookup, service.endpoints.refresh])
    (advertised : advertisedAddr endpoint service.config.publicIp = some addr) :
    service.Advertises bloom endpoint addr := by
  have listen (present : endpoint ∈ service.endpoints.listen) :
      addr ∈ (service.selfMsg bloom).addrs :=
    List.mem_filterMap.mpr ⟨endpoint, present, advertised⟩
  have discovery (present : some endpoint ∈
      [service.endpoints.lookup, service.endpoints.refresh]) :
      addr ∈ (service.selfMsg bloom).discoveryAddrs :=
    List.mem_filterMap.mpr ⟨endpoint, List.reduceOption_mem_iff.mpr present, advertised⟩
  have reachable : isReachable (service.selfMsg bloom) = true := by
    rw [isReachable, Bool.or_eq_true, Bool.not_eq_true', Bool.not_eq_true',
      List.isEmpty_eq_false_iff, List.isEmpty_eq_false_iff]
    exact listed.imp (fun present => List.ne_nil_of_mem (listen present))
      fun present => List.ne_nil_of_mem (discovery present)
  exact ⟨advertised, if_pos reachable, listen, discovery⟩

variable {own : PeerAddr}

theorem advertisedAddr_domain {name : String} (found : PeerAddr.fromEndpoint endpoint 0 = some own)
    (domain : own.addr = .domain name) (publicAddr : IpAddr) :
    advertisedAddr endpoint (some publicAddr) = some own := by
  rw [advertisedAddr, found, Option.map_some, domain]

theorem advertisedAddr_ip {ip : IpAddr} (found : PeerAddr.fromEndpoint endpoint 0 = some own)
    (address : own.addr = .ip ip) (publicAddr : IpAddr) :
    advertisedAddr endpoint (some publicAddr) =
      some (if publicAddr.isIpv4 == ip.isIpv4 then { own with addr := .ip publicAddr }
        else own) := by
  rw [advertisedAddr, found, Option.map_some, address]

/-- The address and the port of an endpoint that was parsed. -/
theorem fromEndpoint_of_fromStr {special : List Char → List Char → Except ParseError Url}
    {text : String} {url : Url} {host : List Char} (parsed : parse special text.toList = .ok url)
    (hosted : url.hostStr = some host) (read : Endpoint.fromStr special text = .ok endpoint)
    (found : PeerAddr.fromEndpoint endpoint 0 = some own) :
    Stable host ∧ own.addr = hostAddr host ∧ url.port = some own.port := by
  obtain ⟨same, parsed', tried⟩ := fromStr_eq_ok read
  rw [parsed] at parsed'
  cases parsed'
  rcases tryFromUrl_eq_ok tried with ⟨transport, host', port, kind, hosted', ported, rfl⟩ |
    ⟨_, _, rfl⟩ | ⟨_, rfl | rfl | rfl | rfl⟩
  · rw [hosted] at hosted'
    cases hosted'
    have ordinary : specialSchemes.contains url.scheme = false := by
      rw [Transport.scheme_of_ofScheme kind]
      exact transport.ordinary.notSpecial
    refine ⟨stable_of_parse parsed ordinary (Url.hostStr_eq_some hosted).1, ?_⟩
    rw [ported]
    cases transport <;> cases found <;> exact ⟨rfl, rfl⟩
  all_goals cases found

/-- The public IP stands for the address of an endpoint of its family exactly if it is an IPv4
address. Endpoints of the other family and domain endpoints are advertised as they are. -/
theorem publicIp_advertised_iff {special : List Char → List Char → Except ParseError Url}
    (bloom : LocalBloom) {publicAddr : IpAddr}
    (configured : service.config.publicIp = some publicAddr)
    (listed : endpoint ∈ service.endpoints.listen ∨
      some endpoint ∈ [service.endpoints.lookup, service.endpoints.refresh])
    {text : String} {url : Url} {host : List Char} {own : PeerAddr}
    (parsed : parse special text.toList = .ok url) (hosted : url.hostStr = some host)
    (read : Endpoint.fromStr special text = .ok endpoint)
    (found : PeerAddr.fromEndpoint endpoint 0 = some own) :
    ∃ addr, service.Advertises bloom endpoint addr ∧ url.port = some addr.port ∧
      (∀ ip, literalOf host = some ip → ip.isIpv4 = publicAddr.isIpv4 →
        (addr = { own with addr := .ip publicAddr } ↔ publicAddr.isIpv4 = true)) ∧
      ((∀ ip, literalOf host = some ip → ip.isIpv4 ≠ publicAddr.isIpv4) → addr = own) := by
  obtain ⟨stable, address, ported⟩ := fromEndpoint_of_fromStr parsed hosted read found
  rw [hostAddr_eq stable] at address
  cases literal : literalOf host with
  | none =>
    rw [literal] at address
    have advertised := advertisedAddr_domain found address publicAddr
    rw [← configured] at advertised
    refine ⟨own, service.advertises bloom listed advertised, ported, ?_, fun _ => rfl⟩
    rintro ip ⟨⟩
  | some ip =>
    rw [literal] at address
    cases ip with
    | v4 octets =>
      have advertised := advertisedAddr_ip found address publicAddr
      rw [← configured] at advertised
      refine ⟨_, service.advertises bloom listed advertised, ?_, ?_, ?_⟩
      · rw [ported]
        split <;> rfl
      · rintro ip ⟨⟩ family
        rw [← family]
        exact iff_of_true rfl rfl
      · intro other
        exact if_neg fun same => other _ rfl (beq_iff_eq.mp same).symm
    | v6 segments =>
      have advertised := advertisedAddr_domain found address publicAddr
      rw [← configured] at advertised
      refine ⟨own, service.advertises bloom listed advertised, ported, ?_, fun _ => rfl⟩
      rintro ip ⟨⟩ family
      rw [← family]
      refine iff_of_false (fun same => ?_) Bool.false_ne_true
      rw [same] at address
      cases address

end Service

/-- A node that knows its public IP and listens on one endpoint. -/
def publicNode (publicAddr : IpAddr) (endpoint : Endpoint) : LookupService anyVersion :=
  .new ⟨Vector.replicate 32 1⟩
    { version := { v := ⟨1, 0, 0⟩, req := () }
      listenEndpoints := [endpoint]
      discoveryEndpoints := []
      publicIp := some publicAddr }

/-- A node that listens on every IPv4 address advertises its public one. -/
theorem publicIp_advertised_iff_v4 :
    Endpoint.fromStr noSpecial "tcp://0.0.0.0:8000" =
        .ok (.tcp (.ip (.ofIp (.v4 [0, 0, 0, 0]))) 8000) ∧
      (publicNode (.ofIp (.v4 [203, 0, 113, 9]))
        (.tcp (.ip (.ofIp (.v4 [0, 0, 0, 0]))) 8000)).Advertises .default
        (.tcp (.ip (.ofIp (.v4 [0, 0, 0, 0]))) 8000)
        { addr := .ip (.ofIp (.v4 [203, 0, 113, 9])), port := 8000, protocol := .tcp
          priority := 0 } := by
  have read : Endpoint.fromStr noSpecial "tcp://0.0.0.0:8000" =
      .ok (.tcp (.ip (.ofIp (.v4 [0, 0, 0, 0]))) 8000) := by decide +kernel
  have parsed : parse noSpecial "tcp://0.0.0.0:8000".toList =
      .ok { scheme := "tcp".toList, username := [], password := []
            host := some "0.0.0.0".toList, port := some 8000, path := [], query := none
            fragment := none } := by decide +kernel
  have listed : Endpoint.tcp (.ip (.ofIp (.v4 [0, 0, 0, 0]))) 8000 ∈
      (publicNode (.ofIp (.v4 [203, 0, 113, 9]))
        (.tcp (.ip (.ofIp (.v4 [0, 0, 0, 0]))) 8000)).endpoints.listen := List.mem_singleton_self _
  obtain ⟨addr, advertises, _, replaced, _⟩ :=
    publicIp_advertised_iff .default rfl (.inl listed) parsed rfl read rfl
  have same := (replaced _ rfl rfl).mpr rfl
  rw [same] at advertises
  exact ⟨read, advertises⟩

/-- A node that listens on every IPv6 address goes on to advertise that, though its public IP is
an IPv6 address. -/
theorem publicIp_advertised_counterexample :
    Endpoint.fromStr noSpecial "quic://[::]:9000" = .ok (.quic (.domain "[::]") 9000) ∧
      literalOf "[::]".toList = some (.ofIp (.v6 [0, 0, 0, 0, 0, 0, 0, 0])) ∧
      (publicNode (.ofIp (.v6 [0x2001, 0xdb8, 0, 0, 0, 0, 0, 9]))
        (.quic (.domain "[::]") 9000)).sendPeerMsg .default =
        some (.peer
          { peerId := ⟨Vector.replicate 32 1⟩
            addrs := [{ addr := .domain "[::]", port := 9000, protocol := .quic, priority := 0 }]
            discoveryAddrs := []
            protocols := .default }) := by
  decide +kernel

end Karyon.P2p
