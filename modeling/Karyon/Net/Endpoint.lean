/-
This file models how `net/src/endpoint.rs` writes an endpoint as a text and reads it back:
`Display`, `FromStr` and the conversion from a URL. The parser of the schemes that the URL standard
calls special is a parameter. Two Unix endpoints are the same when their paths have the same
components, as paths are compared.

An IPv6 address is written without brackets, so the text of an endpoint that was built from one
cannot be parsed. The text of a Unix endpoint has two slashes in front of an absolute path, so the
first component is taken for a host and is lost; only a path with an empty first component keeps the
others. Every other endpoint is read back from its text (`roundTrips_iff`).
-/

import Karyon.Lib.Url
import Karyon.Net.Address

namespace Karyon.Net

open NumberText IpText UrlText

/-! ### Addresses -/

def IpAddr.ofIp : Ip → IpAddr
  | .v4 octets => .v4 (Vector.ofFn fun place => octets.getD place 0)
  | .v6 pieces => .v6 (Vector.ofFn fun place => pieces.getD place 0)

def IpAddr.display : IpAddr → List Char
  | .v4 octets => ipv4Text octets.toList
  | .v6 segments => displayIpv6 segments.toList

def Addr.display : Addr → List Char
  | .ip address => address.display
  | .domain name => name.toList

def Endpoint.newTlsAddr (addr : SocketAddr) : Endpoint := .tls (.ip addr.ip) addr.port

/-! ### The texts of endpoints -/

/-- The kinds of endpoints that carry an address and a port. -/
inductive Transport where
  | udp
  | tcp
  | tls
  | quic
  deriving DecidableEq

def Transport.scheme : Transport → List Char
  | .udp => "udp".toList
  | .tcp => "tcp".toList
  | .tls => "tls".toList
  | .quic => "quic".toList

def Transport.endpoint : Transport → Addr → Port → Endpoint
  | .udp => .udp
  | .tcp => .tcp
  | .tls => .tls
  | .quic => .quic

def Transport.ofScheme (scheme : List Char) : Option Transport :=
  [udp, tcp, tls, quic].find? fun transport => transport.scheme == scheme

/-- An address and a port behind a scheme. -/
def Transport.text (transport : Transport) (addr : Addr) (port : Port) : List Char :=
  transport.scheme ++ ':' :: '/' :: '/' :: (addr.display ++ ':' :: Nat.toDigits 10 port.toNat)

def Endpoint.toString : Endpoint → String
  | .udp addr port => .ofList (Transport.udp.text addr port)
  | .tcp addr port => .ofList (Transport.tcp.text addr port)
  | .tls addr port => .ofList (Transport.tls.text addr port)
  | .quic addr port => .ofList (Transport.quic.text addr port)
  | .http url | .https url | .ws url | .wss url => url
  | .unix path => .ofList ("unix".toList ++ ':' :: '/' :: path.toList)

inductive EndpointError where
  | parseEndpoint (text : String)
  | unsupportedEndpoint (text : String)
  deriving DecidableEq

/-- A host that is the text of an IP address, and any other as a domain name. -/
def hostAddr (host : List Char) : Addr :=
  match readIp host with
  | some ip => .ip (.ofIp ip)
  | none => .domain (.ofList host)

def urlToAddr (url : Url) : Except EndpointError Addr :=
  match url.hostStr with
  | some host => .ok (hostAddr host)
  | none => .error (.parseEndpoint ("host missing: " ++ .ofList url.href))

def tryFromUrl (url : Url) : Except EndpointError Endpoint :=
  match Transport.ofScheme url.scheme with
  | some transport => do
    let addr ← urlToAddr url
    match url.port with
    | some port => return transport.endpoint addr port
    | none => .error (.parseEndpoint ("port missing: " ++ .ofList url.href))
  | none =>
    if url.scheme = "http".toList then .ok (.http (.ofList url.href))
    else if url.scheme = "https".toList then .ok (.https (.ofList url.href))
    else if url.scheme = "ws".toList then .ok (.ws (.ofList url.href))
    else if url.scheme = "wss".toList then .ok (.wss (.ofList url.href))
    else if url.scheme = "unix".toList then
      if url.path.isEmpty then .error (.unsupportedEndpoint (.ofList url.href))
      else .ok (.unix (.ofList url.path))
    else .error (.unsupportedEndpoint (.ofList url.href))

section Special

variable (special : List Char → List Char → Except ParseError Url)

def Endpoint.fromStr (text : String) : Except EndpointError Endpoint :=
  match parse special text.toList with
  | .ok url => tryFromUrl url
  | .error reason => .error (.parseEndpoint reason.text)

end Special

/-! ### Equality -/

/-- The components of a path: whether it begins at the root, and the names. Empty names and dots
are skipped, a dot in front of a relative path apart. -/
def pathComponents (path : List Char) : Bool × List (List Char) :=
  let (first, others) := splitSegments path
  let names := others.filter fun name => !name.isEmpty && name != ['.']
  if first.isEmpty then (!path.isEmpty, names) else (false, first :: names)

/-- The endpoints are equal, with Unix paths compared by their components. -/
def Endpoint.eq : Endpoint → Endpoint → Bool
  | .unix path, .unix other => pathComponents path.toList == pathComponents other.toList
  | first, second => decide (first = second)

/-! ### Schemes -/

theorem Transport.ordinary (transport : Transport) : Ordinary transport.scheme := by
  cases transport with
  | udp => exact ⟨⟨'u', rfl, by decide⟩, List.all_eq_true.mp (by decide), rfl, rfl⟩
  | tcp | tls => exact ⟨⟨'t', rfl, by decide⟩, List.all_eq_true.mp (by decide), rfl, rfl⟩
  | quic => exact ⟨⟨'q', rfl, by decide⟩, List.all_eq_true.mp (by decide), rfl, rfl⟩

theorem unix_ordinary : Ordinary "unix".toList :=
  ⟨⟨'u', rfl, by decide⟩, List.all_eq_true.mp (by decide), rfl, rfl⟩

theorem Transport.ofScheme_scheme (transport : Transport) :
    ofScheme transport.scheme = some transport := by
  cases transport <;> decide

variable {transport : Transport}

theorem Transport.scheme_of_ofScheme {scheme : List Char} (found : ofScheme scheme = some transport)
    : scheme = transport.scheme := by
  unfold ofScheme at found
  have same := List.find?_some found
  exact (beq_iff_eq.mp same).symm

theorem Transport.toString_endpoint (transport : Transport) (addr : Addr) (port : Port) :
    (transport.endpoint addr port).toString = .ofList (transport.text addr port) := by
  cases transport <;> rfl

theorem tryFromUrl_unix {url : Url} (scheme : url.scheme = "unix".toList) :
    tryFromUrl url = if url.path.isEmpty then .error (.unsupportedEndpoint (.ofList url.href))
      else .ok (.unix (.ofList url.path)) := by
  have none : Transport.ofScheme "unix".toList = none := by decide
  rw [tryFromUrl, scheme, none]
  rfl

/-! ### Addresses that are read back -/

/-- The addresses that are read back from their texts. -/
inductive Addr.ReadBack : Addr → Prop
  | v4 (octets : Vector UInt8 4) : ReadBack (.ip (.v4 octets))
  | domain {host : List Char} (stable : Stable host) (some_ : host ≠ [])
      (name : readIp host = none) : ReadBack (.domain (.ofList host))

theorem IpAddr.ofIp_toList (octets : Vector UInt8 4) : ofIp (.v4 octets.toList) = .v4 octets := by
  rw [ofIp]
  congr 1
  refine Vector.ext fun place inside => ?_
  have fits : place < octets.toList.length := by rwa [Vector.length_toList]
  rw [Vector.getElem_ofFn, List.getD_eq_getElem?_getD, List.getElem?_eq_getElem fits]
  exact Vector.getElem_toList fits

theorem hostAddr_readBack {host : List Char} (stable : Stable host) (some_ : host ≠ []) :
    (hostAddr host).ReadBack := by
  unfold hostAddr
  split
  · rename_i ip read
    rcases readIp_eq_some read with ⟨octets, rfl, _⟩ | colon
    · exact .v4 _
    · cases stable with
      | opaqueHost allowed _ => exact absurd (allowed _ colon) (by decide)
      | address eight =>
        rw [bracketed, readIp_bracket] at read
        cases read
  · rename_i read
    exact .domain stable some_ read

namespace Addr.ReadBack

variable {addr : Addr}

theorem stable (readBack : addr.ReadBack) : Stable addr.display ∧ addr.display ≠ [] := by
  cases readBack with
  | v4 octets =>
    refine ⟨stable_of_digits fun c member => ?_, ?_⟩
    · exact (mem_ipv4Text member).imp_left (isDigit_of_isDigit (by decide))
    · intro empty
      have read := readIp_ipv4Text octets.length_toList
      rw [show ipv4Text octets.toList = [] from empty] at read
      cases read
  | domain stable some_ _ =>
    rw [Addr.display, String.toList_ofList]
    exact ⟨stable, some_⟩

theorem hostAddr_display (readBack : addr.ReadBack) : hostAddr addr.display = addr := by
  cases readBack with
  | v4 octets =>
    rw [hostAddr, Addr.display, IpAddr.display, readIp_ipv4Text octets.length_toList]
    exact congrArg Addr.ip (IpAddr.ofIp_toList octets)
  | domain stable some_ name =>
    rw [hostAddr, Addr.display, String.toList_ofList, name]

end Addr.ReadBack

section Special

variable {special : List Char → List Char → Except ParseError Url}

/-- An endpoint with such an address is read back. -/
theorem fromStr_toString {addr : Addr} (readBack : addr.ReadBack) (transport : Transport)
    (port : Port) :
    Endpoint.fromStr special (transport.endpoint addr port).toString =
      .ok (transport.endpoint addr port) := by
  obtain ⟨stable, some_⟩ := readBack.stable
  rw [Endpoint.fromStr, Transport.toString_endpoint, String.toList_ofList, Transport.text,
    parse_host_port transport.ordinary stable some_ port]
  dsimp only
  rw [tryFromUrl, transport.ofScheme_scheme, urlToAddr]
  obtain ⟨c, rest, host⟩ := List.exists_cons_of_ne_nil some_
  have found := readBack.hostAddr_display
  rw [host] at found
  rw [Url.hostStr, host]
  dsimp only
  rw [found]
  rfl

/-- An endpoint with an IPv6 address is not. -/
theorem fromStr_toString_v6 (segments : Vector UInt16 8) (transport : Transport) (port : Port)
    (again : Endpoint) :
    Endpoint.fromStr special (transport.endpoint (.ip (.v6 segments)) port).toString ≠
      .ok again := by
  intro read
  rw [Endpoint.fromStr, Transport.toString_endpoint, String.toList_ofList, Transport.text] at read
  split at read
  · rename_i url parsed
    refine parse_colons transport.ordinary (fun c => mem_displayIpv6) ?_ port parsed
    exact colon_mem_displayIpv6 segments.length_toList
  · cases read

theorem tryFromUrl_eq_ok {url : Url} {endpoint : Endpoint}
    (read : tryFromUrl url = .ok endpoint) :
    (∃ transport host port, Transport.ofScheme url.scheme = some transport ∧
      url.hostStr = some host ∧ url.port = some port ∧
      endpoint = transport.endpoint (hostAddr host) port) ∨
    (url.scheme = "unix".toList ∧ url.path ≠ [] ∧ endpoint = .unix (.ofList url.path)) ∨
    ∃ text, endpoint = .http text ∨ endpoint = .https text ∨ endpoint = .ws text ∨
      endpoint = .wss text := by
  revert read
  fun_cases tryFromUrl
  all_goals try rintro ⟨⟩
  next transport found =>
    intro read
    obtain ⟨addr, address, rest⟩ := Fallible.bind_eq_ok.mp read
    unfold urlToAddr at address
    split at address
    · rename_i host hostFound
      cases address
      split at rest
      · rename_i port portFound
        cases rest
        exact .inl ⟨transport, host, port, found, hostFound, portFound, rfl⟩
      · cases rest
    · cases address
  next => exact .inr (.inr ⟨_, .inl rfl⟩)
  next => exact .inr (.inr ⟨_, .inr (.inl rfl)⟩)
  next => exact .inr (.inr ⟨_, .inr (.inr (.inl rfl))⟩)
  next => exact .inr (.inr ⟨_, .inr (.inr (.inr rfl))⟩)
  next unix some_ =>
    rw [List.isEmpty_iff] at some_
    exact .inr (.inl ⟨unix, some_, rfl⟩)

variable {text : String}

theorem fromStr_eq_ok {endpoint : Endpoint} (read : Endpoint.fromStr special text = .ok endpoint) :
    ∃ url, parse special text.toList = .ok url ∧ tryFromUrl url = .ok endpoint := by
  unfold Endpoint.fromStr at read
  split at read
  · rename_i url parsed
    exact ⟨url, parsed, read⟩
  · cases read

theorem readBack_of_fromStr {addr : Addr} {port : Port}
    (read : Endpoint.fromStr special text = .ok (transport.endpoint addr port)) :
    addr.ReadBack := by
  obtain ⟨url, parsed, read⟩ := fromStr_eq_ok read
  rcases tryFromUrl_eq_ok read with ⟨own, host, port', found, hostFound, _, same⟩ |
    ⟨_, _, same⟩ | ⟨_, same⟩
  · obtain ⟨host', some_⟩ := Url.hostStr_eq_some hostFound
    have address : addr = hostAddr host := by
      cases transport <;> cases own <;> cases same <;> rfl
    rw [address]
    refine hostAddr_readBack (stable_of_parse parsed ?_ host') some_
    rw [Transport.scheme_of_ofScheme found]
    exact own.ordinary.notSpecial
  · cases transport <;> cases same
  · cases transport <;> rcases same with same | same | same | same <;> cases same

variable {path : String}

theorem path_of_fromStr (read : Endpoint.fromStr special text = .ok (.unix path))
    (absolute : path.toList.head? = some '/') :
    ∃ segment segments, path.toList = pathText (segment :: segments) ∧
      ∀ member ∈ segment :: segments, NormalSegment member := by
  obtain ⟨url, parsed, read⟩ := fromStr_eq_ok read
  rcases tryFromUrl_eq_ok read with ⟨own, _, _, _, _, _, same⟩ | ⟨scheme, _, same⟩ | ⟨_, same⟩
  · cases own <;> cases same
  · cases same
    rw [String.toList_ofList] at absolute ⊢
    have ordinary : specialSchemes.contains url.scheme = false := by
      rw [scheme]
      exact unix_ordinary.notSpecial
    obtain ⟨segments, whole, normal⟩ := path_of_parse parsed ordinary absolute
    cases segments with
    | nil =>
      rw [whole] at absolute
      cases absolute
    | cons segment segments => exact ⟨segment, segments, whole, normal⟩
  · rcases same with same | same | same | same <;> cases same

/-! ### Unix paths -/

variable {segment : List Char} {segments : List (List Char)}

section

variable (normal : ∀ member ∈ segment :: segments, NormalSegment member)

include normal

theorem pathComponents_pathText :
    pathComponents (pathText (segment :: segments)) =
      (true, (segment :: segments).filter fun name => !name.isEmpty && name != ['.']) := by
  have split := splitSegments_pathText fun member present => (normal member present).noSlash
  rw [pathComponents, pathText_cons, splitSegments, split]
  rfl

theorem fromStr_unix (whole : path.toList = pathText (segment :: segments)) {again : Endpoint} :
    Endpoint.fromStr special (Endpoint.unix path).toString = .ok again ↔
      (∃ authority, parseAuthority segment = .ok authority) ∧ segments ≠ [] ∧
        again = .unix (.ofList (pathText segments)) := by
  have nonempty : (pathText segments).isEmpty = segments.isEmpty := by
    cases segments with
    | nil | cons second segments => rfl
  rw [Endpoint.toString, Endpoint.fromStr, String.toList_ofList, whole,
    parse_path unix_ordinary normal]
  cases parseAuthority segment with
  | error reason =>
    constructor
    · rintro ⟨⟩
    · rintro ⟨⟨_, ⟨⟩⟩, _⟩
  | ok authority =>
    dsimp only [Except.map]
    rw [tryFromUrl_unix rfl]
    dsimp only
    rw [nonempty]
    cases segments with
    | nil =>
      constructor
      · rintro ⟨⟩
      · rintro ⟨_, none, _⟩
        exact absurd rfl none
    | cons second segments =>
      constructor
      · intro read
        exact ⟨⟨authority, rfl⟩, List.cons_ne_nil _ _, (Except.ok.inj read).symm⟩
      · rintro ⟨_, _, rfl⟩
        rfl

end

/-! ### The round trip -/

/-- The endpoints whose texts are to be read back: those built from a socket address, and those
that were parsed, a Unix endpoint with an absolute path. -/
inductive Endpoint.Built (special : List Char → List Char → Except ParseError Url) :
    Endpoint → Prop
  | tcp (addr : SocketAddr) : Built special (.newTcpAddr addr)
  | udp (addr : SocketAddr) : Built special (.newUdpAddr addr)
  | tls (addr : SocketAddr) : Built special (.newTlsAddr addr)
  | quic (addr : SocketAddr) : Built special (.newQuicAddr addr)
  | parsed {text : String} {transport : Transport} {addr : Addr} {port : Port}
      (read : fromStr special text = .ok (transport.endpoint addr port)) :
      Built special (transport.endpoint addr port)
  | parsedUnix {text path : String} (read : fromStr special text = .ok (.unix path))
      (absolute : path.toList.head? = some '/') : Built special (.unix path)

/-- No bare IPv6 address, and no Unix path whose first component could be taken for a host. -/
def Endpoint.keepsText : Endpoint → Bool
  | .udp (.ip (.v6 _)) _ | .tcp (.ip (.v6 _)) _ | .tls (.ip (.v6 _)) _ | .quic (.ip (.v6 _)) _ =>
    false
  | .unix path => ['/', '/'].isPrefixOf path.toList
  | _ => true

/-- The text of the endpoint is parsed, and the result is equal to it. -/
def Endpoint.RoundTrips (special : List Char → List Char → Except ParseError Url)
    (endpoint : Endpoint) : Prop :=
  ∃ again, fromStr special endpoint.toString = .ok again ∧ again.eq endpoint = true

theorem Transport.eq_endpoint (transport : Transport) (addr : Addr) (port : Port) :
    (transport.endpoint addr port).eq (transport.endpoint addr port) = true := by
  cases transport <;> exact decide_eq_true rfl

theorem Transport.keepsText_endpoint {addr : Addr} (readBack : addr.ReadBack)
    (transport : Transport) (port : Port) : (transport.endpoint addr port).keepsText = true := by
  cases readBack with
  | v4 octets | domain stable some_ name => cases transport <;> rfl

theorem roundTrips_readBack {addr : Addr} (readBack : addr.ReadBack) (transport : Transport)
    (port : Port) :
    (transport.endpoint addr port).RoundTrips special ↔
      (transport.endpoint addr port).keepsText = true := by
  rw [transport.keepsText_endpoint readBack port]
  refine iff_of_true ?_ rfl
  exact ⟨_, fromStr_toString readBack transport port, transport.eq_endpoint addr port⟩

theorem roundTrips_ip (ip : IpAddr) (transport : Transport) (port : Port) :
    (transport.endpoint (.ip ip) port).RoundTrips special ↔
      (transport.endpoint (.ip ip) port).keepsText = true := by
  cases ip with
  | v4 octets => exact roundTrips_readBack (.v4 octets) transport port
  | v6 segments =>
    have lost : (transport.endpoint (.ip (.v6 segments)) port).keepsText = false := by
      cases transport <;> rfl
    rw [lost]
    refine iff_of_false ?_ (by decide)
    rintro ⟨again, read, _⟩
    exact fromStr_toString_v6 segments transport port again read

theorem roundTrips_unix (read : Endpoint.fromStr special text = .ok (.unix path))
    (absolute : path.toList.head? = some '/') :
    (Endpoint.unix path).RoundTrips special ↔ (Endpoint.unix path).keepsText = true := by
  obtain ⟨segment, segments, whole, normal⟩ := path_of_fromStr read absolute
  have later : ∀ member ∈ segments, NormalSegment member := fun member present =>
    normal member (List.mem_cons_of_mem _ present)
  rw [Endpoint.keepsText, whole]
  constructor
  · rintro ⟨again, parsed, same⟩
    obtain ⟨_, some_, rfl⟩ := (fromStr_unix normal whole).mp parsed
    obtain ⟨second, segments, rfl⟩ := List.exists_cons_of_ne_nil some_
    rw [Endpoint.eq, beq_iff_eq, whole, String.toList_ofList, pathComponents_pathText normal,
      pathComponents_pathText later, Prod.mk.injEq] at same
    by_cases empty : segment = []
    · subst empty
      rfl
    · -- The component that was taken for a host is missing.
      have notDot : segment ≠ ['.'] := by
        rintro rfl
        exact absurd (normal _ List.mem_cons_self).notSingleDot (by decide)
      have kept : (!segment.isEmpty && segment != ['.']) = true := by
        rw [Bool.and_eq_true, bne_iff_ne, Bool.not_eq_true', List.isEmpty_eq_false_iff]
        exact ⟨empty, notDot⟩
      have lost := same.2
      rw [@List.filter_cons_of_pos _ _ segment _ kept] at lost
      exact absurd lost.symm (List.cons_ne_self _ _)
  · intro slashes
    cases segment with
    | nil =>
      cases segments with
      | nil => cases slashes
      | cons second segments =>
        refine ⟨_, (fromStr_unix normal whole).mpr ⟨⟨_, rfl⟩, List.cons_ne_nil _ _, rfl⟩, ?_⟩
        rw [Endpoint.eq, beq_iff_eq, whole, String.toList_ofList, pathComponents_pathText normal,
          pathComponents_pathText later]
        rfl
    | cons c segment =>
      have slash : c = '/' := by
        rw [pathText_cons, List.cons_append, List.isPrefixOf, List.isPrefixOf, Bool.and_eq_true,
          Bool.and_eq_true, beq_iff_eq, beq_iff_eq] at slashes
        exact slashes.2.1.symm
      refine absurd ?_ (normal _ List.mem_cons_self).noSlash
      rw [slash]
      exact List.mem_cons_self

/-- Exactly the endpoints without a bare IPv6 address, and the Unix endpoints with an empty first
component, are read back from their texts. -/
theorem roundTrips_iff {endpoint : Endpoint} (built : endpoint.Built special) :
    endpoint.RoundTrips special ↔ endpoint.keepsText = true := by
  cases built with
  | tcp addr => exact roundTrips_ip addr.ip .tcp addr.port
  | udp addr => exact roundTrips_ip addr.ip .udp addr.port
  | tls addr => exact roundTrips_ip addr.ip .tls addr.port
  | quic addr => exact roundTrips_ip addr.ip .quic addr.port
  | parsed read => exact roundTrips_readBack (readBack_of_fromStr read) _ _
  | parsedUnix read absolute => exact roundTrips_unix read absolute

end Special

/-- A parser that refuses every special scheme. -/
def noSpecial (_ _ : List Char) : Except ParseError Url :=
  .error .emptyHost

/-- A host name in a text is read back. -/
theorem roundTrips_iff_domain :
    Endpoint.fromStr noSpecial "quic://relay.test:7000" =
        .ok (.quic (.domain "relay.test") 7000) ∧
      (Endpoint.RoundTrips noSpecial (.quic (.domain "relay.test") 7000) ↔
        Endpoint.keepsText (.quic (.domain "relay.test") 7000) = true) := by
  have read : Endpoint.fromStr noSpecial "quic://relay.test:7000" =
      .ok (Transport.quic.endpoint (.domain "relay.test") 7000) := by decide +kernel
  exact ⟨read, roundTrips_iff (.parsed read)⟩

/-- The loopback address of IPv6 as a socket address, and a Unix path that was parsed, are not
read back. -/
theorem roundTrips_counterexample :
    (Endpoint.newTcpAddr
        ⟨.v6 (Vector.ofFn fun place => if place = 7 then 1 else 0), 3000⟩).toString =
        "tcp://::1:3000" ∧
      Endpoint.fromStr noSpecial "tcp://::1:3000" = .error (.parseEndpoint "empty host") ∧
      Endpoint.fromStr noSpecial "unix:/home/x/s.socket" = .ok (.unix "/home/x/s.socket") ∧
      (Endpoint.unix "/home/x/s.socket").toString = "unix://home/x/s.socket" ∧
      Endpoint.fromStr noSpecial "unix://home/x/s.socket" = .ok (.unix "/x/s.socket") ∧
      Endpoint.eq (.unix "/x/s.socket") (.unix "/home/x/s.socket") = false := by
  decide +kernel

end Karyon.Net
