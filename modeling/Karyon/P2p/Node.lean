/-
This file models how the node of `p2p/src/node.rs` connects the peers that discovery hands to it,
from the routing table to the peer pool and back.

`connect_discovered_peers` dials the discovered peers one after the other. A connection waits in a
task of the connector and in the queue of connections until the loop of the pool takes it, and the
events of the pool go back to discovery, which writes them into the status of the entry. What the
remote ends, the network and the access control decide are arguments.

Discovery marks an entry as connected before it is dialled, so each end of an attempt has to be
reported. Some are not: a peer without a usable address, a denied endpoint, a failed handshake
without a verified id, a remote with another id, a wire that cannot be set up. Their entries stay
marked (`connected_left_behind`). In the runs without them a marked entry without anything in flight
is a peer of the pool (`connected_means_connected`).
-/

import Karyon.P2p.Attempts
import Karyon.P2p.Connector
import Karyon.P2p.PeerLifecycle

namespace Karyon.P2p

open Interaction Karyon.Net Transition

/-! ### The node and its steps -/

structure NodeConfig where
  discovery : DiscoveryConfig
  tls : CertDeps
  maxRetries : Nat

/-- A connection on its way to the pool, with the id of the peer that was dialled. -/
structure Connection where
  dialled : Option PeerID
  queued : PendingConn

/-- Where `connect_discovered_peers` waits: for the next discovered peer, for a dial, or for the
monitor before it reports a failed dial. -/
inductive DialPhase where
  | receiving
  | dialling (peerId : Option PeerID) (endpoint : Endpoint)
  | failed (peerId : Option PeerID)

def DialPhase.peerId : DialPhase → Option PeerID
  | .receiving => none
  | .dialling peerId _ => peerId
  | .failed peerId => peerId

/-- The node: discovery, the pool, the dialling task, the connections in the tasks of the
connector and of the listener, those in the queue, the one the loop of the pool has taken, and
the events of the pool that have not been forwarded. -/
structure Node where
  discovery : Discovery
  pool : PeerPool
  dialPhase : DialPhase
  connections : List Connection
  connQueue : List Connection
  current : Option Connection
  peerEvents : List PeerEvent

def SUPPORTED_PROTOCOLS : List Protocol := [.tcp, .tls, .quic]

abbrev HandshakeResult := Except Error (PeerID × List ProtocolID)

inductive NodeAction (tls : CertDeps) where
  | discovery (action : DiscoveryAction)
  | receive (allowed : Bool)
  | connect (remotes : Nat → Remote tls)
  | report (now : Int)
  | accept (endpoint : Endpoint) (remote : Remote tls)
  | enqueue (task : Nat)
  | drop (task : Nat)
  | next
  | handshake (result : HandshakeResult) (allowed : Bool)
  | pool (action : PoolAction)
  | forward (now : Int)

/-- A handshake can end so: it holds the remote to the id that the transport verified. -/
def PendingConn.accepts (queued : PendingConn) : HandshakeResult → Bool
  | .error _ => true
  | .ok (pid, _) =>
    match queued.verifiedPeerId with
    | some vpid => pid == vpid
    | none => true

/-- The handshake of a connection ends in no other way. -/
theorem PendingConn.accepts_of_steps {deps : HandshakeDeps} {p : HandshakeParams deps}
    {queued : PendingConn} {trace : List (Event PeerNetMsg Error)} {result : HandshakeResult}
    (steps : Prog.Steps (handshake { p with verifiedPeerId := queued.verifiedPeerId }).run trace
      (.done result)) : queued.accepts result = true := by
  unfold PendingConn.accepts
  split
  · rfl
  · split
    · rename_i vpid verified
      exact beq_iff_eq.mpr ((handshake_claimed steps).2 vpid verified)
    · rfl

/-- What the pool makes of the end of a handshake: a failure is reported for the id that the
transport verified, and a peer that is denied for the id it has shown. -/
def PendingConn.outcome (queued : PendingConn) (result : HandshakeResult) (allowed : Bool) :
    Except (Option PeerID) PeerID :=
  match result with
  | .error _ => .error queued.verifiedPeerId
  | .ok (pid, _) => if allowed then .ok pid else .error (some pid)

/-- The events of the pool as discovery knows them. -/
def PeerEvent.mapped : PeerEvent → PeerConnectionEvent
  | .added pid => .connected pid
  | .removed pid => .disconnected pid
  | .handshakeFailed pid => .connectFailed pid

namespace Node

variable (config : NodeConfig)

def new : Node where
  discovery := .new config.discovery
  pool := .new
  dialPhase := .receiving
  connections := []
  connQueue := []
  current := none
  peerEvents := []

variable (node : Node)

/-- The next discovered peer is dialled, if it has a supported address that may be dialled. -/
def receive (allowed : Bool) : Option Node :=
  match node.dialPhase, node.discovery.recv with
  | .receiving, some (discovered, discovery) =>
    match pickEndpoint discovered.addrs SUPPORTED_PROTOCOLS with
    | none => some { node with discovery }
    | some endpoint =>
      if allowed then
        some { node with discovery, dialPhase := .dialling discovered.peerId endpoint }
      else some { node with discovery }
  | _, _ => none

variable (node : Node)

/-- A dial ends, with a connection in a task of the connector or without one. -/
def connect (remotes : Nat → Remote config.tls) : Option Node :=
  match node.dialPhase with
  | .dialling peerId endpoint =>
    match connectAndQueue config.tls config.maxRetries endpoint peerId remotes with
    | .ok queued => some
        { node with
          dialPhase := .receiving
          connections := node.connections ++ [⟨peerId, queued⟩] }
    | .error _ => some { node with dialPhase := .failed peerId }
  | _ => none

/-- A failed dial is reported to discovery. -/
def report (now : Int) : Option Node :=
  match node.dialPhase with
  | .failed peerId => some
      { node with
        discovery := node.discovery.onEvent (.connectFailed peerId) now
        dialPhase := .receiving }
  | _ => none

def accept (endpoint : Endpoint) (remote : Remote config.tls) : Option Node :=
  match acceptAndQueue config.tls endpoint remote with
  | .ok queued => some { node with connections := node.connections ++ [⟨none, queued⟩] }
  | .error _ => none

def enqueue (task : Nat) : Option Node :=
  match node.connections[task]? with
  | some connection => some
      { node with
        connections := node.connections.eraseIdx task
        connQueue := node.connQueue ++ [connection] }
  | none => none

/-- A task ends without queueing its connection, whose remote endpoint is not known. -/
def drop (task : Nat) : Option Node :=
  match node.connections[task]? with
  | some _ => some { node with connections := node.connections.eraseIdx task }
  | none => none

/-- The loop of the pool takes a connection from the queue. -/
def next : Option Node :=
  match node.pool.runPhase, node.current, node.connQueue with
  | .idle, none, connection :: rest => some
      { node with current := some connection, connQueue := rest }
  | _, _, _ => none

/-- The pool takes a step. Its events wait for being forwarded, and at the end of a turn its loop
is done with the connection. -/
def poolStep (action : PoolAction) : Option (Node × List PeerEvent) :=
  (node.pool.step action).map fun (pool, events) =>
    ({ node with
        pool
        current := if node.pool.runPhase ≠ .idle ∧ pool.runPhase = .idle then none
          else node.current
        peerEvents := node.peerEvents ++ events }, events)

def handshake (result : HandshakeResult) (allowed : Bool) : Option (Node × List PeerEvent) :=
  match node.current with
  | some connection =>
    if connection.queued.accepts result then
      node.poolStep (.handshake (connection.queued.outcome result allowed))
    else none
  | none => none

/-- The next event of the pool is forwarded to discovery. -/
def forward (now : Int) : Option Node :=
  match node.peerEvents with
  | event :: rest => some
      { node with discovery := node.discovery.onEvent event.mapped now, peerEvents := rest }
  | [] => none

/-- A step of one of the tasks, with the events that the pool emits in it. -/
def step : NodeAction config.tls → Option (Node × List PeerEvent)
  | .discovery action =>
    if action.internal then
      (node.discovery.step config.discovery action).map fun (discovery, _) =>
        ({ node with discovery }, [])
    else none
  | .receive allowed => (node.receive allowed).map (·, [])
  | .connect remotes => (node.connect config remotes).map (·, [])
  | .report now => (node.report now).map (·, [])
  | .accept endpoint remote => (node.accept config endpoint remote).map (·, [])
  | .enqueue task => (node.enqueue task).map (·, [])
  | .drop task => (node.drop task).map (·, [])
  | .next => node.next.map (·, [])
  | .handshake result allowed => node.handshake result allowed
  | .pool (.handshake _) => none
  | .pool action => node.poolStep action
  | .forward now => (node.forward now).map (·, [])

end Node

def nodeMachine (config : NodeConfig) : Machine Node (NodeAction config.tls) PeerEvent where
  start := .new config
  step := Node.step config

/-! ### What is in flight -/

/-- The id that an event is about. -/
def PeerEvent.about : PeerEvent → Option PeerID
  | .added pid => some pid
  | .removed pid => some pid
  | .handshakeFailed pid => pid

/-- The loop of the pool waits for the handshake of its connection, or is about to report its
failure for the id or to insert the id. -/
def RunPhase.awaits (pid : PeerID) : RunPhase → Bool
  | .idle => true
  | .failing id | .emittingFailed id => id == some pid
  | .checking id | .building id | .inserting id => id == pid
  | .closing | .refusing | .notifying _ _ | .emitting _ _ => false

/-- The ids of the peers that are out of the map with their removal still to be emitted. -/
def PeerPool.unannounced (pool : PeerPool) : List PeerID :=
  (pool.spawned.filter fun task => task.phase.unannounced).map fun task => task.pid

/-- The discovered peers that the node has not taken yet. -/
def Discovery.wanted (self : Discovery) : List (Option PeerID) :=
  self.connectPhase.handing :: self.peerQueue.map fun peer => peer.peerId

namespace Node

variable (node : Node)

/-- The peers that are about to be dialled or are being dialled, and those whose connections wait
for the pool. -/
def attempts : List (Option PeerID) :=
  node.discovery.wanted ++ node.dialPhase.peerId ::
    ((node.connections ++ node.connQueue).map fun connection => connection.dialled)

/-- The peer whose connection the loop of the pool has taken and not settled. -/
def admitting : Option PeerID :=
  (node.current.bind fun connection => connection.dialled).filter fun pid =>
    node.pool.runPhase.awaits pid

/-- Something is in flight for the id: a discovered peer that is not dialled yet, a dial, a
connection that waits for its handshake or admission, a removal that is not emitted yet, or an
event that is not delivered yet. -/
def InFlight (pid : PeerID) : Prop :=
  some pid ∈ node.attempts ∨ node.admitting = some pid ∨ pid ∈ node.pool.unannounced ∨
    some pid ∈ node.peerEvents.map PeerEvent.about

instance (node : Node) (pid : PeerID) : Decidable (node.InFlight pid) :=
  inferInstanceAs (Decidable (_ ∨ _ ∨ _ ∨ _))

/-- Every end of an attempt is reported. A discovered peer with an id has a supported address
that may be dialled; the connection dialled for it is queued; its handshake succeeds with this
id, or the transport has verified this id; its wire can be set up. The pool emits its events in
order. -/
def reports (tls : CertDeps) (node : Node) : NodeAction tls → Bool
  | .receive allowed =>
    match node.discovery.peerQueue with
    | ⟨some _, addrs, _⟩ :: _ => (pickEndpoint addrs SUPPORTED_PROTOCOLS).isSome && allowed
    | _ => true
  | .drop task =>
    match node.connections[task]? with
    | some ⟨some _, _⟩ => false
    | _ => true
  | .handshake result _ =>
    match node.current with
    | some ⟨some pid, queued⟩ => queued.verifiedPeerId == some pid ||
        match result with
        | .ok (claimed, _) => claimed == pid
        | .error _ => false
    | _ => true
  | .pool (.setup false) =>
    match node.current with
    | some ⟨some _, _⟩ => false
    | _ => true
  | .pool action => node.pool.inOrder action
  | _ => true

end Node

end Karyon.P2p
