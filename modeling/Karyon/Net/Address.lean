/-
This file models the network addresses of `net/src/endpoint.rs` as far as the
peer-to-peer code reads them: an IP address as its octets or segments, an
address that is either an IP or a domain name, the endpoints that can be
dialled, and the socket addresses they resolve to. Two facts about IP addresses
matter to the routing table, whether one is a loopback address and which /24 or /64
prefix it lies in.
-/

import Mathlib.Data.List.Basic

namespace Karyon.Net

/-- An IP address: the four octets of an IPv4 address or the eight 16-bit segments of an
IPv6 address, in network order. -/
inductive IpAddr where
  | v4 (octets : Vector UInt8 4)
  | v6 (segments : Vector UInt16 8)
  deriving DecidableEq

/-- `127.0.0.0/8` for IPv4, exactly `::1` for IPv6. An IPv4-mapped IPv6 address is not a
loopback address. -/
def IpAddr.isLoopback : IpAddr → Bool
  | .v4 octets => octets[0] == 127
  | .v6 segments => segments == #v[0, 0, 0, 0, 0, 0, 0, 1]

def IpAddr.isIpv4 : IpAddr → Bool
  | .v4 _ => true
  | .v6 _ => false

/-- An address is an IP or a domain name. -/
inductive Addr where
  | ip (addr : IpAddr)
  | domain (name : String)
  deriving DecidableEq

/-- A /24 prefix of IPv4 or a /64 prefix of IPv6. -/
inductive Subnet where
  | v4 (octets : Vector UInt8 3)
  | v6 (segments : Vector UInt16 4)
  deriving DecidableEq

/-- The prefix an IP address lies in. -/
def IpAddr.subnet : IpAddr → Subnet
  | .v4 octets => .v4 (octets.take 3)
  | .v6 segments => .v6 (segments.take 4)

abbrev Port := UInt16

/-- A network endpoint. The schemes that carry a URL or a path have it as text. -/
inductive Endpoint where
  | udp (addr : Addr) (port : Port)
  | tcp (addr : Addr) (port : Port)
  | tls (addr : Addr) (port : Port)
  | quic (addr : Addr) (port : Port)
  | http (url : String)
  | https (url : String)
  | ws (url : String)
  | wss (url : String)
  | unix (path : String)
  deriving DecidableEq

def Endpoint.isTcp : Endpoint → Bool
  | .tcp _ _ => true
  | _ => false

def Endpoint.isQuic : Endpoint → Bool
  | .quic _ _ => true
  | _ => false

def Endpoint.isUdp : Endpoint → Bool
  | .udp _ _ => true
  | _ => false

/-! ### Socket addresses -/

structure SocketAddr where
  ip : IpAddr
  port : Port

variable (addr : SocketAddr)

def Endpoint.newTcpAddr : Endpoint := .tcp (.ip addr.ip) addr.port

def Endpoint.newUdpAddr : Endpoint := .udp (.ip addr.ip) addr.port

def Endpoint.newQuicAddr : Endpoint := .quic (.ip addr.ip) addr.port

/-- The socket address of an address and a port. A domain is resolved by DNS, whose `answer` may
be any list. -/
def resolve (addr : Addr) (port : Port) (answer : List SocketAddr) : Option SocketAddr :=
  match addr with
  | .ip ip => some ⟨ip, port⟩
  | .domain _ => answer.head?

end Karyon.Net
