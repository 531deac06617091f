/-
This file models the access control of `p2p/src/access_control.rs` and the places that ask it: the
accept loops of `listener.rs`, the connect loop of `node.rs`, the run loop of `peer_pool.rs`, the
lookups of `lookup.rs` and the refresh pings of `refresh.rs`.

The policy is a fixed predicate on subjects and actions. Every question to it is an event, next to
what it is asked for: the bytes of a handshake, the setup of a peer, the messages of a lookup, pings
and pongs. The connections and the pool are those of the connection slots; here a connection also
has the endpoint of its stream. For an accepted connection it is known before the policy is asked,
but a QUIC one may report another at the end of its handshake. For a dialled one it is what the
socket reports afterwards, whatever was dialled; it is a TCP endpoint also for TLS.
-/

import Karyon.P2p.ConnSlots
import Karyon.P2p.Lookup

namespace Karyon.P2p

open Karyon.Net Transition

/-! ### Policies -/

/-- A peer that has completed the handshake but has not joined the pool yet. -/
structure PeerCandidate where
  peerId : PeerID
  remoteEndpoint : Endpoint
  negotiatedProtocols : List ProtocolID
  deriving DecidableEq

/-- The party being evaluated: before the handshake its transport address, after it its
identity. -/
inductive Subject where
  | endpoint (endpoint : Endpoint)
  | peer (candidate : PeerCandidate)
  deriving DecidableEq

/-- The purpose of the connection. -/
inductive AccessControl.Action where
  | connect (direction : ConnDirection)
  | lookup (direction : ConnDirection)
  | probe (direction : ConnDirection)
  deriving DecidableEq

/-- Policy that decides which peers this node talks to, and for what. -/
structure AccessControl where
  allow : Subject → AccessControl.Action → Bool

/-- Default policy. Allows everything. -/
def AccessControl.allowAll : AccessControl where
  allow _ _ := true

/-! ### Refresh messages -/

/-- The messages of the refresh plane. -/
inductive RefreshMsg where
  | ping (nonce : Nonce)
  | pong (nonce : Nonce)
  deriving DecidableEq

/-- The endpoint at which an entry is pinged. -/
def refreshEndpoint (entry : Entry) : Except Error Endpoint :=
  match pickEndpoint entry.discoveryAddrs [.udp] with
  | some endpoint => .ok endpoint
  | none => .error (.lookup "No UDP discovery address available")

/-- The answer to a datagram of a sender that is let in. -/
def answerPing (refreshMsg : Bincode RefreshMsg) (datagram : Bytes) : Except Error Bytes := do
  let (msg, _) ← refreshMsg.decode datagram
  match msg with
  | .ping nonce => refreshMsg.encode (.pong nonce)
  | .pong _ => .error (.invalidMsg "Unexpected pong msg")

/-! ### The node -/

/-- What the node is configured with: the policy, the slots of the listener and the connector,
the retries of a dial and of a ping, the lookup service and the encoding of refresh messages. -/
structure AccessConfig (semver : Semver) where
  accessControl : AccessControl
  slots : ConnDirection → Nat
  maxConnectRetries : Nat
  refreshConnectRetries : Nat
  lookup : LookupService semver
  refreshMsg : Bincode RefreshMsg

/-- What is kept of a peer: what the policy was asked about, and the direction. -/
structure PeerRecord where
  candidate : PeerCandidate
  direction : ConnDirection
  deriving DecidableEq

/-- Where the connect loop is with the discovered peer it took: at no peer, waiting for a slot
for an endpoint that was let through, or dialling it for a connection. -/
inductive OutboundPhase where
  | idle
  | cleared (endpoint : Endpoint)
  | dialing (endpoint : Endpoint) (conn retry : Nat)

/-- A connection of the lookup plane. -/
structure LookupConn where
  direction : ConnDirection
  endpoint : Endpoint

/-- An entry that is being pinged. -/
structure Probe where
  endpoint : Endpoint
  retry : Nat
  ended : Bool

/-- The connections and the pool, the endpoints of the streams of the connections, the connect
loop, the peer that the policy let through in the current turn of the run loop, the peers by
their numbers, the connections of the lookup plane and the entries that are pinged. -/
structure AccessState where
  slots : ConnSlots
  endpoints : HashMap Nat Endpoint
  dialPhase : OutboundPhase
  joining : Option PeerRecord
  peers : HashMap Nat PeerRecord
  lookups : List LookupConn
  probes : List Probe

/-- What happens: the policy answers; bytes of a handshake are exchanged on a connection; a peer
is set up; a message of a lookup is sent or received; a lookup is replied to; an entry is pinged;
a ping is answered. -/
inductive AccessEvent where
  | checked (subject : Subject) (action : AccessControl.Action) (allowed : Bool)
  | exchanged (conn : Nat)
  | setUp (peer : PeerRecord)
  | lookedUp (direction : ConnDirection) (endpoint : Endpoint)
  | replied (endpoint : Endpoint) (msg : KadMsg)
  | pinged (endpoint : Endpoint)
  | ponged (endpoint : Endpoint) (datagram : Bytes)
  deriving DecidableEq

/-- What can happen next: an accept ends, with the endpoint of the stream or with an error;
an accepted QUIC connection reports another address; the connect loop takes a discovered peer, gets
a slot, or tries to dial, with what DNS answers and the address that the socket reports; a handshake
of the run loop ends; the connections and the pool take another step; a lookup connection is
accepted or dialled, or has a message; a refresh takes an entry, pings one, or gets a datagram. -/
inductive AccessAction where
  | accepted (conn : Nat) (endpoint : Option Endpoint)
  | moved (conn : Nat) (reported : SocketAddr)
  | discovered (addrs : List PeerAddr)
  | dialSlot
  | dial (answer : List SocketAddr) (reported : SocketAddr) (succeeds : Bool)
  | handshake (outcome : Except (Option PeerID) (PeerID × List ProtocolID))
  | slots (action : ConnAction)
  | lookupAccepted (endpoint : Endpoint)
  | lookupDialed (endpoint : Endpoint)
  | lookupMsg (lookup : Nat) (table : RoutingTable) (now : Int) (msg : KadMsg)
  | refresh (entry : Entry)
  | ping (probe : Nat) (outcome : Except Error Unit)
  | datagram (table : RoutingTable) (withinRate : Bool) (sender : SocketAddr) (datagram : Bytes)

/-- The endpoint of the stream that a dial opens, if there is an address to connect to: the address
of the remote that the socket reports, which is a local one for `0.0.0.0`. TLS runs over a TCP
stream and keeps its endpoint. -/
def streamEndpoint (endpoint : Endpoint) (answer : List SocketAddr) (reported : SocketAddr) :
    Option Endpoint :=
  match endpoint with
  | .tcp addr port | .tls addr port =>
    (resolve addr port answer).map fun _ => .newTcpAddr reported
  | .quic addr port => (resolve addr port answer).map fun _ => .newQuicAddr reported
  | _ => none

namespace AccessState

variable {semver : Semver} (config : AccessConfig semver)

def new : AccessState where
  slots := .new config.slots
  endpoints := ∅
  dialPhase := .idle
  joining := none
  peers := ∅
  lookups := []
  probes := []

variable (state : AccessState)

/-- A step of the connections and the pool, and what is observed with it. -/
def withSlots (action : ConnAction) (events : List AccessEvent) :
    Option (AccessState × List AccessEvent) :=
  (state.slots.step action).map fun next => ({ state with slots := next.1 }, events)

/-- An accept loop has a stream with its endpoint, or the accept has failed. A connection that is
refused is dropped before anything is read from it. -/
def accepted (conn : Nat) (endpoint : Option Endpoint) : Option (AccessState × List AccessEvent) :=
  match state.slots.conns[conn]?, endpoint with
  | some ⟨.inbound, .opening⟩, none => state.withSlots (.opened conn false) []
  | some ⟨.inbound, .opening⟩, some endpoint =>
    if config.accessControl.allow (.endpoint endpoint) (.connect .inbound) then
      { state with endpoints := state.endpoints.insert conn endpoint }.withSlots (.opened conn true)
        [.checked (.endpoint endpoint) (.connect .inbound) true]
    else
      state.withSlots (.opened conn false)
        [.checked (.endpoint endpoint) (.connect .inbound) false]
  | _, _ => none

/-- The handshake of an accepted QUIC connection ends with another address of the remote. -/
def moved (conn : Nat) (reported : SocketAddr) : Option (AccessState × List AccessEvent) :=
  match state.slots.conns[conn]?, state.endpoints.lookup conn with
  | some ⟨.inbound, .upgrading⟩, some (.quic _ _) => some (
      { state with endpoints := state.endpoints.insert conn (.newQuicAddr reported) }, [])
  | _, _ => none

/-- The connect loop takes a discovered peer and asks for the endpoint it picks. -/
def discovered (addrs : List PeerAddr) : Option (AccessState × List AccessEvent) :=
  match state.dialPhase, pickEndpoint addrs [.tcp, .tls, .quic] with
  | .idle, none => some (state, [])
  | .idle, some endpoint =>
    if config.accessControl.allow (.endpoint endpoint) (.connect .outbound) then some (
      { state with dialPhase := .cleared endpoint },
      [.checked (.endpoint endpoint) (.connect .outbound) true])
    else some (state, [.checked (.endpoint endpoint) (.connect .outbound) false])
  | _, _ => none

def dialSlot : Option (AccessState × List AccessEvent) :=
  match state.dialPhase with
  | .cleared endpoint =>
    { state with dialPhase := .dialing endpoint state.slots.conns.length 0 }.withSlots
      (.acquire .outbound) []
  | _ => none

/-- One attempt of a dial, or its end after the last one. An attempt that fails may have exchanged
bytes when there was an address to connect to. -/
def dial (answer : List SocketAddr) (reported : SocketAddr) (succeeds : Bool) :
    Option (AccessState × List AccessEvent) :=
  match state.dialPhase with
  | .dialing endpoint conn retry =>
    if retry < config.maxConnectRetries then
      match streamEndpoint endpoint answer reported, succeeds with
      | some remote, true =>
        { state with
          dialPhase := .idle
          endpoints := state.endpoints.insert conn remote }.withSlots (.opened conn true)
          [.exchanged conn]
      | some _, false =>
        some ({ state with dialPhase := .dialing endpoint conn (retry + 1) }, [.exchanged conn])
      | none, _ => some ({ state with dialPhase := .dialing endpoint conn (retry + 1) }, [])
    else { state with dialPhase := .idle }.withSlots (.opened conn false) []
  | _ => none

/-- What the pool knows about the peer of a connection after its handshake. -/
def record (conn : Nat) (pid : PeerID) (negotiated : List ProtocolID) : Option PeerRecord :=
  match state.endpoints.lookup conn, state.slots.conns[conn]? with
  | some endpoint, some task => some ⟨⟨pid, endpoint, negotiated⟩, task.direction⟩
  | _, _ => none

/-- The handshake of the current connection ends, and the policy is asked about the peer. One that
is refused is treated as a failed handshake. -/
def handshake (outcome : Except (Option PeerID) (PeerID × List ProtocolID)) :
    Option (AccessState × List AccessEvent) :=
  match state.slots.current, outcome with
  | some conn, .error pid =>
    state.withSlots (.pool (.handshake (.error pid))) [.exchanged conn]
  | some conn, .ok (pid, negotiated) =>
    match state.record conn pid negotiated with
    | some peer =>
      if config.accessControl.allow (.peer peer.candidate) (.connect peer.direction) then
        { state with joining := some peer }.withSlots (.pool (.handshake (.ok pid)))
          [.exchanged conn, .checked (.peer peer.candidate) (.connect peer.direction) true]
      else
        state.withSlots (.pool (.handshake (.error (some pid))))
          [.exchanged conn, .checked (.peer peer.candidate) (.connect peer.direction) false]
    | none => none
  | none, _ => none

/-- The steps of the connections and the pool that are not among the others. -/
def passes : ConnAction → Bool
  | .acquire direction => decide (direction = .inbound)
  | .opened _ _ => false
  | .pool (.handshake _) => false
  | _ => true

/-- The peers after a step of the connections and the pool. -/
def peersAfter : ConnAction → HashMap Nat PeerRecord
  | .pool .advance =>
    match state.slots.pool.runPhase, state.joining with
    | .inserting _, some peer => state.peers.insert state.slots.pool.spawned.length peer
    | _, _ => state.peers
  | _ => state.peers

/-- What is observed with a step of the connections and the pool. -/
def observes : ConnAction → List AccessEvent
  | .upgraded conn _ => [.exchanged conn]
  | .pool (.setup _) => state.joining.toList.map .setUp
  | _ => []

/-- A message of a lookup connection: one that came in is replied to by the lookup service, and
one of a dialled connection is sent or received. -/
def lookupMsg (lookup : Nat) (table : RoutingTable) (now : Int) (msg : KadMsg) :
    Option (AccessState × List AccessEvent) :=
  match state.lookups[lookup]? with
  | some ⟨.inbound, endpoint⟩ =>
    match config.lookup.handleInbound table now msg with
    | .ok (.goesOn (some reply) _) =>
      some (state, [.lookedUp .inbound endpoint, .replied endpoint reply])
    | _ => some (state, [.lookedUp .inbound endpoint])
  | some ⟨.outbound, endpoint⟩ => some (state, [.lookedUp .outbound endpoint])
  | none => none

/-- A lookup connection is let in or dialled if the policy allows it. -/
def openLookup (direction : ConnDirection) (endpoint : Endpoint) : AccessState × List AccessEvent :=
  if config.accessControl.allow (.endpoint endpoint) (.lookup direction) then
    ({ state with lookups := state.lookups ++ [⟨direction, endpoint⟩] },
      [.checked (.endpoint endpoint) (.lookup direction) true])
  else (state, [.checked (.endpoint endpoint) (.lookup direction) false])

/-- The refresh takes an entry and asks for its endpoint. -/
def refresh (entry : Entry) : AccessState × List AccessEvent :=
  match refreshEndpoint entry with
  | .error _ => (state, [])
  | .ok endpoint =>
    if config.accessControl.allow (.endpoint endpoint) (.probe .outbound) then
      ({ state with probes := state.probes ++ [⟨endpoint, 0, false⟩] },
        [.checked (.endpoint endpoint) (.probe .outbound) true])
    else (state, [.checked (.endpoint endpoint) (.probe .outbound) false])

/-- An entry is pinged. After a timeout it is pinged again, up to the number of retries. -/
def ping (probe : Nat) (outcome : Except Error Unit) : Option (AccessState × List AccessEvent) :=
  match state.probes[probe]? with
  | some ⟨endpoint, retry, false⟩ =>
    if retry < config.refreshConnectRetries then
      match outcome with
      | .error .timeout => some (
          { state with probes := state.probes.set probe ⟨endpoint, retry + 1, false⟩ },
          [.pinged endpoint])
      | _ => some (
          { state with probes := state.probes.set probe ⟨endpoint, retry, true⟩ },
          [.pinged endpoint])
    else some ({ state with probes := state.probes.set probe ⟨endpoint, retry, true⟩ }, [])
  | _ => none

/-- A datagram comes in. It is dropped when its source is unknown or sends too much, or when the
policy refuses it. -/
def listenToPingMsg (table : RoutingTable) (withinRate : Bool) (sender : SocketAddr)
    (datagram : Bytes) : List AccessEvent :=
  if table.hasDiscoveryIp sender.ip && withinRate then
    if config.accessControl.allow (.endpoint (.newUdpAddr sender)) (.probe .inbound) then
      .checked (.endpoint (.newUdpAddr sender)) (.probe .inbound) true ::
        match answerPing config.refreshMsg datagram with
        | .ok encoded => [.ponged (.newUdpAddr sender) encoded]
        | .error _ => []
    else [.checked (.endpoint (.newUdpAddr sender)) (.probe .inbound) false]
  else []

def step : AccessAction → Option (AccessState × List AccessEvent)
  | .accepted conn endpoint => state.accepted config conn endpoint
  | .moved conn reported => state.moved conn reported
  | .discovered addrs => state.discovered config addrs
  | .dialSlot => state.dialSlot
  | .dial answer reported succeeds => state.dial config answer reported succeeds
  | .handshake outcome => state.handshake config outcome
  | .slots action =>
    if passes action then
      { state with peers := state.peersAfter action }.withSlots action (state.observes action)
    else none
  | .lookupAccepted endpoint => some (state.openLookup config .inbound endpoint)
  | .lookupDialed endpoint => some (state.openLookup config .outbound endpoint)
  | .lookupMsg lookup table now msg => state.lookupMsg config lookup table now msg
  | .refresh entry => some (state.refresh config entry)
  | .ping probe outcome => state.ping config probe outcome
  | .datagram table withinRate sender datagram =>
    some (state, listenToPingMsg config table withinRate sender datagram)

end AccessState

def accessMachine {semver : Semver} (config : AccessConfig semver) :
    Machine AccessState AccessAction AccessEvent where
  start := .new config
  step := AccessState.step config

end Karyon.P2p
