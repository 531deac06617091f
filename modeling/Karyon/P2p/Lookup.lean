/-
This file models the lookup service of `p2p/src/discovery/kademlia/lookup.rs`: the
messages of a lookup exchange (`messages.rs`), what the two ends send, the checks they
make on what they receive, and the iterative lookup that fills the routing table.

Messages are modelled as decoded; a message that does not decode is an error of the
receiving end. What remote nodes answer is arbitrary. Every entry of a table has
passed the checks of the node, so what an honest node relays passes them again
(`honest_lookup_accepted`). What it says about itself does if it has few enough listen
endpoints.
-/

import Karyon.Lib.Indexed
import Karyon.P2p.ClosestEntries
import Karyon.P2p.Discovery
import Mathlib.Data.List.ReduceOption

namespace Karyon.P2p

open Karyon.Net Transition

/-! ### Messages -/

/-- Maximum number of peers that can be returned in a peers message. -/
def MAX_PEERS_IN_PEERSMSG : Nat := 10

/-- Maximum data-plane addresses a peer may advertise about itself. -/
def MAX_ADDRS_PER_PEER : Nat := 4

/-- Maximum discovery addresses a peer may advertise about itself. -/
def MAX_DISCOVERY_ADDRS_PER_PEER : Nat := 3

abbrev Nonce := Vector UInt8 32

/-- A single peer's advertised addresses and protocol bloom. -/
structure PeerMsg where
  peerId : PeerID
  addrs : List PeerAddr
  discoveryAddrs : List PeerAddr
  protocols : Bloom
  deriving DecidableEq

def PeerMsg.ofEntry (entry : Entry) : PeerMsg where
  peerId := ⟨entry.key⟩
  addrs := entry.addrs
  discoveryAddrs := entry.discoveryAddrs
  protocols := entry.protocols

variable (peer : PeerMsg)

def PeerMsg.toEntry : Entry where
  key := peer.peerId.bytes
  addrs := peer.addrs
  discoveryAddrs := peer.discoveryAddrs
  protocols := peer.protocols

/-- The messages of the lookup plane. -/
inductive KadMsg where
  | ping (version : VersionInt) (nonce : Nonce)
  | pong (nonce : Nonce)
  | findPeer (peerId : PeerID)
  | peer (peer : PeerMsg)
  | peers (peers : List PeerMsg)
  | shutdown
  deriving DecidableEq

/-- The derived debug format of the command. -/
def KadMsg.command : KadMsg → String
  | .ping _ _ => "Ping"
  | .pong _ => "Pong"
  | .findPeer _ => "FindPeer"
  | .peer _ => "Peer"
  | .peers _ => "Peers"
  | .shutdown => "Shutdown"

/-! ### The service -/

/-- The endpoint can serve the lookup service. -/
def isLookupProto (endpoint : Endpoint) : Bool :=
  endpoint.isTcp || endpoint.isQuic

/-- What the lookup service reads of the configuration. -/
structure LookupConfig (semver : Semver) where
  version : Version semver
  listenEndpoints : List Endpoint
  discoveryEndpoints : List Endpoint
  publicIp : Option IpAddr

/-- Endpoints the lookup service advertises and binds to. -/
structure LookupEndpoints where
  listen : List Endpoint
  lookup : Option Endpoint
  refresh : Option Endpoint

/-- The endpoints of a configuration, as `KademliaDiscovery::new` picks them. -/
def LookupEndpoints.new {semver : Semver} (config : LookupConfig semver) : LookupEndpoints where
  listen := config.listenEndpoints
  lookup := config.discoveryEndpoints.find? isLookupProto
  refresh := config.discoveryEndpoints.find? Endpoint.isUdp

structure LookupService (semver : Semver) where
  id : PeerID
  endpoints : LookupEndpoints
  config : LookupConfig semver

def LookupService.new {semver : Semver} (id : PeerID) (config : LookupConfig semver) :
    LookupService semver :=
  { id, endpoints := .new config, config }

/-- The address to advertise for an endpoint, with its IP replaced by the public one when both
are of the same family. -/
def advertisedAddr (endpoint : Endpoint) (publicIp : Option IpAddr) : Option PeerAddr :=
  (PeerAddr.fromEndpoint endpoint 0).map fun peerAddr =>
    match publicIp, peerAddr.addr with
    | some publicAddr, .ip ip =>
      if publicAddr.isIpv4 == ip.isIpv4 then { peerAddr with addr := .ip publicAddr } else peerAddr
    | _, _ => peerAddr

/-- The peer advertises at least one address to reach it on. -/
def isReachable : Bool :=
  !peer.addrs.isEmpty || !peer.discoveryAddrs.isEmpty

/-- Reject messages that advertise more addresses than a legitimate peer would, and drop the
discovery addresses that cannot be used. -/
def validatePeerMsg : Except Error PeerMsg :=
  if peer.addrs.length > MAX_ADDRS_PER_PEER then
    .error (.invalidMsg ("PeerMsg.addrs has " ++ toString peer.addrs.length ++ " entries, max " ++
      toString MAX_ADDRS_PER_PEER))
  else
    let discoveryAddrs := peer.discoveryAddrs.filter fun addr => addr.protocol != .tls
    if discoveryAddrs.length > MAX_DISCOVERY_ADDRS_PER_PEER then
      .error (.invalidMsg ("PeerMsg.discovery_addrs has " ++ toString discoveryAddrs.length ++
        " entries, max " ++ toString MAX_DISCOVERY_ADDRS_PER_PEER))
    else .ok { peer with discoveryAddrs }

namespace LookupService

variable {semver : Semver} (service : LookupService semver) (table : RoutingTable)

/-- The answer to a find-peer message: the entries closest to the target. -/
def sendPeersMsg (peerId : PeerID) : KadMsg :=
  .peers ((table.closestEntries peerId.bytes MAX_PEERS_IN_PEERSMSG).map PeerMsg.ofEntry)

/-- What the node says about itself. -/
def selfMsg (bloom : LocalBloom) : PeerMsg where
  peerId := service.id
  addrs := service.endpoints.listen.filterMap fun endpoint =>
    advertisedAddr endpoint service.config.publicIp
  discoveryAddrs := [service.endpoints.lookup, service.endpoints.refresh].reduceOption.filterMap
    fun endpoint => advertisedAddr endpoint service.config.publicIp
  protocols := bloom.advertised

/-- The peer message of the node. It is not sent when there is nothing to dial the node on. -/
def sendPeerMsg (bloom : LocalBloom) : Option KadMsg :=
  if isReachable (service.selfMsg bloom) then some (.peer (service.selfMsg bloom)) else none

/-- A peer message that passes the checks is added to the table, unless the peer cannot be
reached. -/
def handlePeer (now : Int) (peer : PeerMsg) : Except Error RoutingTable := do
  let peer ← validatePeerMsg peer
  if !isReachable peer then return table
  return (table.addEntry peer.toEntry now).1

/-- What became of a message of an inbound connection: the connection ends, or a reply is sent
and the table is what it has become. -/
inductive Inbound where
  | ends
  | goesOn (reply : Option KadMsg) (table : RoutingTable)

def handleInbound (now : Int) : KadMsg → Except Error Inbound
  | .shutdown => .ok .ends
  | .ping version nonce =>
    if !semver.matches service.config.version.req version then
      .error (.incompatibleVersion "system: \x7b\x7d")
    else .ok (.goesOn (some (.pong nonce)) table)
  | .findPeer peerId => .ok (.goesOn (some (sendPeersMsg table peerId)) table)
  | .peer peer => do
    let table ← handlePeer table now peer
    return .goesOn none table
  | msg => .error (.invalidMsg ("Unexpected msg: " ++ msg.command))

def acceptPeers (peers : List PeerMsg) : Except Error (List PeerMsg) := do
  if peers.length > MAX_PEERS_IN_PEERSMSG then
    .error (.lookup "Received too many peers in PeersMsg")
  else
    let peers ← peers.mapM validatePeerMsg
    return peers.filter isReachable

/-- What became of a message of an outbound connection: a reply is sent, or the peers are there. -/
inductive Outbound where
  | replies (msg : KadMsg)
  | found (peers : List PeerMsg)

/-- One message of an outbound connection that has sent a ping with the nonce. -/
def handleOutbound (nonce : Nonce) (target : PeerID) : KadMsg → Except Error Outbound
  | .pong received =>
    if nonce ≠ received then .error .invalidPongMsg else .ok (.replies (.findPeer target))
  | .peers peers => do
    let peers ← acceptPeers peers
    return .found peers
  | msg => .error (.invalidMsg ("Unexpected msg: " ++ msg.command))

/-! ### The iterative lookup -/

/-- The peers of one answer that are new to a random lookup. -/
def collectRandom (randomPeers peers : List PeerMsg) : List PeerMsg :=
  peers.foldl (fun randomPeers peer =>
    if randomPeers.contains peer || peer.peerId == service.id ||
        table.containsKey peer.peerId.bytes then randomPeers
    else randomPeers ++ [peer]) randomPeers

def dialable (randomPeers : List PeerMsg) : List PeerMsg :=
  randomPeers.filter fun peer =>
    (pickEndpoint peer.discoveryAddrs SUPPORTED_LOOKUP_PROTOCOLS).isSome

/-- The buffer is filled up with the peers found at random, the last ones first. -/
def fillBuffer (randomPeers buffer : List PeerMsg) : List PeerMsg :=
  buffer ++ randomPeers.reverse.take (MAX_PEERS_IN_PEERSMSG - buffer.length)

end LookupService

/-- Where a lookup waits: for the answers to its random lookups, or for the answers of the peers
that it found. -/
inductive LookupPhase where
  | random (rounds : Nat) (randomPeers : List PeerMsg)
  | selfLookup (awaited : Nat) (randomPeers buffer : List PeerMsg)
  | ended

/-- The routing table and the lookups that were started. -/
structure LookupState where
  table : RoutingTable
  lookups : List LookupPhase

/-- What can happen next: a message comes in, a lookup starts, an exchange of a lookup ends with
the peers that the remote sent or with an error, or the rest of the node changes the table. -/
inductive LookupAction where
  | inbound (msg : KadMsg) (now : Int)
  | startLookup
  | answer (lookup : Nat) (reply : Except Error (List PeerMsg)) (now : Int)
  | updateEntry (key : Key) (entryFlag : EntryStatusFlag) (now : Int)
  | removeEntry (key : Key)

namespace LookupState

variable {semver : Semver} (service : LookupService semver) (state : LookupState)

/-- A lookup that waits for no more answers adds its peers and ends. -/
def settle (lookup awaited : Nat) (randomPeers buffer : List PeerMsg) (now : Int) : LookupState :=
  if awaited = 0 then
    { table := state.table.addEntries
        ((LookupService.fillBuffer randomPeers buffer).map PeerMsg.toEntry) now
      lookups := state.lookups.set lookup .ended }
  else { state with lookups := state.lookups.set lookup (.selfLookup awaited randomPeers buffer) }

/-- An exchange of a lookup ends. A random lookup that fails ends the whole lookup. -/
def answer (lookup : Nat) (reply : Except Error (List PeerMsg)) (now : Int) : Option LookupState :=
  match state.lookups[lookup]?, reply.bind LookupService.acceptPeers with
  | some (.random (_ + 1) _), .error _ =>
    some { state with lookups := state.lookups.set lookup .ended }
  | some (.random (rounds + 1) randomPeers), .ok peers =>
    let randomPeers := service.collectRandom state.table randomPeers peers
    if rounds = 0 then
      some (state.settle lookup (LookupService.dialable randomPeers).length randomPeers [] now)
    else some { state with lookups := state.lookups.set lookup (.random rounds randomPeers) }
  | some (.selfLookup (awaited + 1) randomPeers buffer), .error _ =>
    some (state.settle lookup awaited randomPeers buffer now)
  | some (.selfLookup (awaited + 1) randomPeers buffer), .ok peers =>
    some (state.settle lookup awaited randomPeers (buffer ++ peers) now)
  | _, _ => none

/-- The table after a message of an inbound connection. -/
def inbound (msg : KadMsg) (now : Int) : LookupState :=
  match service.handleInbound state.table now msg with
  | .ok (.goesOn _ table) => { state with table }
  | _ => state

def step : LookupAction → Option (LookupState × List Unit)
  | .inbound msg now => some (state.inbound service msg now, [])
  | .startLookup => some ({ state with lookups := state.lookups ++ [.random 2 []] }, [])
  | .answer lookup reply now => (state.answer service lookup reply now).map fun next => (next, [])
  | .updateEntry key entryFlag now =>
    some ({ state with table := state.table.updateEntry key entryFlag now }, [])
  | .removeEntry key => some ({ state with table := state.table.removeEntry key }, [])

end LookupState

def lookupMachine {semver : Semver} (service : LookupService semver) :
    Machine LookupState LookupAction Unit where
  start := { table := .new service.id.bytes, lookups := [] }
  step := LookupState.step service

/-! ### What passes the checks -/

/-- What passes the checks of a receiver as it is. -/
structure PeerMsg.Admissible (peer : PeerMsg) : Prop where
  addrs : peer.addrs.length ≤ MAX_ADDRS_PER_PEER
  discoveryAddrs : peer.discoveryAddrs.length ≤ MAX_DISCOVERY_ADDRS_PER_PEER
  usable : ∀ addr ∈ peer.discoveryAddrs, addr.protocol ≠ .tls
  reachable : isReachable peer = true

namespace PeerMsg.Admissible

variable {peer checked : PeerMsg}

/-- A message that was checked and is reachable passes the checks again. -/
theorem of_validated (validated : validatePeerMsg peer = .ok checked)
    (reachable : isReachable checked = true) : checked.Admissible := by
  revert validated
  fun_cases validatePeerMsg <;> rintro ⟨⟩
  rename_i few _ discoveryFew
  refine ⟨Nat.le_of_not_lt few, Nat.le_of_not_lt discoveryFew, fun addr member => ?_, reachable⟩
  exact bne_iff_ne.mp (List.mem_filter.mp member).2

/-- The checks leave the sender and its protocols as they are. -/
theorem same_of_validated (validated : validatePeerMsg peer = .ok checked) :
    checked.peerId = peer.peerId ∧ checked.protocols = peer.protocols := by
  revert validated
  fun_cases validatePeerMsg <;> rintro ⟨⟩
  exact ⟨rfl, rfl⟩

/-- The checks leave an admissible message as it is. -/
theorem validated (admissible : peer.Admissible) : validatePeerMsg peer = .ok peer := by
  have kept : (peer.discoveryAddrs.filter fun addr => addr.protocol != .tls) =
      peer.discoveryAddrs :=
    List.filter_eq_self.mpr fun addr member => bne_iff_ne.mpr (admissible.usable addr member)
  unfold validatePeerMsg
  rw [if_neg (Nat.not_lt.mpr admissible.addrs), kept]
  exact if_neg (Nat.not_lt.mpr admissible.discoveryAddrs)

end PeerMsg.Admissible

namespace LookupService

theorem acceptPeers_admissible {peers found : List PeerMsg}
    (accepted : acceptPeers peers = .ok found) : ∀ peer ∈ found, peer.Admissible := by
  unfold acceptPeers at accepted
  split at accepted
  · cases accepted
  · obtain ⟨checked, each, filtered⟩ := Fallible.bind_eq_ok.mp accepted
    cases filtered
    intro peer member
    obtain ⟨present, reachable⟩ := List.mem_filter.mp member
    obtain ⟨original, _, validated⟩ := Fallible.exists_of_mem_mapM each present
    exact .of_validated validated reachable

/-- A peer message leaves the table as it is, or adds an entry that passes the checks again. -/
theorem handlePeer_eq_ok {table after : RoutingTable} {now : Int} {peer : PeerMsg}
    (handled : handlePeer table now peer = .ok after) :
    after = table ∨ ∃ checked : PeerMsg, validatePeerMsg peer = .ok checked ∧
      checked.Admissible ∧ after = (table.addEntry checked.toEntry now).1 := by
  obtain ⟨checked, validated, handled⟩ := Fallible.bind_eq_ok.mp handled
  split at handled
  · cases handled
    exact Or.inl rfl
  · rename_i reachable
    cases handled
    exact Or.inr ⟨checked, validated, .of_validated validated (by simpa using reachable), rfl⟩

theorem handlePeer_of_admissible {table : RoutingTable} {now : Int} {peer : PeerMsg}
    (admissible : peer.Admissible) :
    handlePeer table now peer = .ok (table.addEntry peer.toEntry now).1 := by
  unfold handlePeer
  rw [admissible.validated]
  show (if !isReachable peer then _ else _) = _
  rw [admissible.reachable]
  rfl

theorem acceptPeers_of_admissible {peers : List PeerMsg}
    (few : peers.length ≤ MAX_PEERS_IN_PEERSMSG)
    (admissible : ∀ peer ∈ peers, peer.Admissible) : acceptPeers peers = .ok peers := by
  have each : peers.mapM validatePeerMsg = .ok peers :=
    Fallible.mapM_eq_ok.mpr (List.forall₂_same.mpr fun peer member =>
      (admissible peer member).validated)
  have kept : peers.filter isReachable = peers :=
    List.filter_eq_self.mpr fun peer member => (admissible peer member).reachable
  unfold acceptPeers
  rw [if_neg (Nat.not_lt.mpr few), each]
  show Except.ok (peers.filter isReachable) = _
  rw [kept]

end LookupService

/-! ### What the node says about itself -/

section SelfMsg

variable {semver : Semver} (config : LookupConfig semver) (id : PeerID) (bloom : LocalBloom)

/-- The advertised addresses are those of the endpoints that have one. -/
theorem length_selfMsg_addrs : ((LookupService.new id config).selfMsg bloom).addrs.length =
    (config.listenEndpoints.filterMap fun endpoint => PeerAddr.fromEndpoint endpoint 0).length := by
  show (config.listenEndpoints.filterMap fun endpoint =>
    advertisedAddr endpoint config.publicIp).length = _
  unfold advertisedAddr
  rw [← List.map_filterMap, List.length_map]

/-- An endpoint is advertised with its own transport. -/
theorem advertisedAddr_ne_tls {endpoint : Endpoint} {publicIp : Option IpAddr} {addr : PeerAddr}
    (served : isLookupProto endpoint = true ∨ endpoint.isUdp = true)
    (advertised : advertisedAddr endpoint publicIp = some addr) : addr.protocol ≠ .tls := by
  obtain ⟨own, found, rfl⟩ := Option.map_eq_some_iff.mp advertised
  have other : own.protocol ≠ .tls := by
    intro same
    rcases endpoint with _ | _ | _ | _ | _ | _ | _ | _ | _ <;> cases found <;> cases same
    rcases served with impossible | impossible <;> cases impossible
  split
  · split <;> exact other
  · exact other

/-- The node advertises few discovery addresses, and none of them is a TLS one. -/
theorem selfMsg_discoveryAddrs :
    ((LookupService.new id config).selfMsg bloom).discoveryAddrs.length ≤
      MAX_DISCOVERY_ADDRS_PER_PEER ∧
    ∀ addr ∈ ((LookupService.new id config).selfMsg bloom).discoveryAddrs,
      addr.protocol ≠ .tls := by
  constructor
  · refine (List.length_filterMap_le _ _).trans ((List.reduceOption_length_le _).trans ?_)
    show 2 ≤ MAX_DISCOVERY_ADDRS_PER_PEER
    decide
  · intro addr member
    obtain ⟨endpoint, present, advertised⟩ := List.mem_filterMap.mp member
    refine advertisedAddr_ne_tls ?_ advertised
    rcases List.mem_pair.mp (List.reduceOption_mem_iff.mp present) with lookup | refresh
    · exact Or.inl (List.find?_some lookup.symm)
    · exact Or.inr (List.find?_some refresh.symm)

/-- What a node with few listen endpoints says about itself passes the checks. -/
theorem selfMsg_admissible
    (few : (config.listenEndpoints.filterMap fun endpoint =>
      PeerAddr.fromEndpoint endpoint 0).length ≤ MAX_ADDRS_PER_PEER)
    (reachable : isReachable ((LookupService.new id config).selfMsg bloom) = true) :
    ((LookupService.new id config).selfMsg bloom).Admissible where
  addrs := (length_selfMsg_addrs config id bloom).le.trans few
  discoveryAddrs := (selfMsg_discoveryAddrs config id bloom).1
  usable := (selfMsg_discoveryAddrs config id bloom).2
  reachable := reachable

end SelfMsg

/-! ### What the table and the lookups hold -/

/-- The peers that a lookup has found pass the checks. -/
def LookupPhase.Sound : LookupPhase → Prop
  | .random _ randomPeers => ∀ peer ∈ randomPeers, peer.Admissible
  | .selfLookup _ randomPeers buffer =>
    (∀ peer ∈ randomPeers, peer.Admissible) ∧ ∀ peer ∈ buffer, peer.Admissible
  | .ended => True

/-- What is stored and what lookups have found passes the checks. -/
structure LookupState.Sound (state : LookupState) : Prop where
  table : state.table.AllEntries fun entry => (PeerMsg.ofEntry entry).Admissible
  lookups : ∀ (lookup : Nat) (phase : LookupPhase), state.lookups[lookup]? = some phase →
    phase.Sound

namespace LookupState.Sound

variable {semver : Semver} {service : LookupService semver} {state : LookupState}

theorem start : (lookupMachine service).start.Sound where
  table := .new _
  lookups _ _ found := by cases found

variable {table : RoutingTable} {lookup : Nat}

theorem set (sound : state.Sound) {phase : LookupPhase} (own : phase.Sound)
    (all : table.AllEntries fun entry => (PeerMsg.ofEntry entry).Admissible) :
    LookupState.Sound { table, lookups := state.lookups.set lookup phase } where
  table := all
  lookups other found present := by
    dsimp only at present
    rw [List.getElem?_set] at present
    split at present
    · split at present
      · cases present
        exact own
      · cases present
    · exact sound.lookups other found present

variable {peers : List PeerMsg}

theorem addEntries (all : table.AllEntries fun entry => (PeerMsg.ofEntry entry).Admissible)
    (admissible : ∀ peer ∈ peers, peer.Admissible) (now : Int) :
    (table.addEntries (peers.map PeerMsg.toEntry) now).AllEntries
      fun entry => (PeerMsg.ofEntry entry).Admissible := by
  induction peers generalizing table with
  | nil => exact all
  | cons peer rest inductionHypothesis =>
    obtain ⟨own, others⟩ := List.forall_mem_cons.mp admissible
    exact inductionHypothesis
      (all.addEntry (show (PeerMsg.ofEntry peer.toEntry).Admissible from own) now) others

section

variable {randomPeers : List PeerMsg} (random : ∀ peer ∈ randomPeers, peer.Admissible)

include random

/-- A buffer that is filled up holds what the buffer and the random lookups found. -/
theorem fillBuffer {buffer : List PeerMsg} (own : ∀ peer ∈ buffer, peer.Admissible) :
    ∀ peer ∈ LookupService.fillBuffer randomPeers buffer, peer.Admissible := by
  intro peer member
  rcases List.mem_append.mp member with before | filled
  · exact own peer before
  · exact random peer (List.mem_reverse.mp (List.mem_of_mem_take filled))

theorem collectRandom (new : ∀ peer ∈ peers, peer.Admissible) :
    ∀ peer ∈ service.collectRandom table randomPeers peers, peer.Admissible := by
  unfold LookupService.collectRandom
  induction peers generalizing randomPeers with
  | nil => exact random
  | cons first rest inductionHypothesis =>
    obtain ⟨own, others⟩ := List.forall_mem_cons.mp new
    rw [List.foldl_cons]
    split
    · exact inductionHypothesis random others
    · refine inductionHypothesis (fun peer member => ?_) others
      rcases mem_concat.mp member with before | rfl
      · exact random peer before
      · exact own

end

variable (sound : state.Sound)

include sound

theorem settle {awaited : Nat} {randomPeers buffer : List PeerMsg}
    (random : ∀ peer ∈ randomPeers, peer.Admissible) (own : ∀ peer ∈ buffer, peer.Admissible)
    (now : Int) : (state.settle lookup awaited randomPeers buffer now).Sound := by
  unfold LookupState.settle
  split
  · exact sound.set trivial (addEntries sound.table (fillBuffer random own) now)
  · exact sound.set ⟨random, own⟩ sound.table

theorem answer {reply : Except Error (List PeerMsg)} {now : Int} {next : LookupState}
    (answered : state.answer service lookup reply now = some next) : next.Sound := by
  have accepted {peers : List PeerMsg} (ok : reply.bind LookupService.acceptPeers = .ok peers) :
      ∀ peer ∈ peers, peer.Admissible := by
    obtain ⟨received, _, checked⟩ := Fallible.bind_eq_ok.mp ok
    exact LookupService.acceptPeers_admissible checked
  unfold LookupState.answer at answered
  split at answered
  · cases answered
    exact sound.set trivial sound.table
  · rename_i rounds randomPeers peers found ok
    have collected : ∀ peer ∈ service.collectRandom state.table randomPeers peers,
        peer.Admissible := collectRandom (sound.lookups _ _ found) (accepted ok)
    dsimp only at answered
    split at answered
    · cases answered
      exact sound.settle collected (fun _ member => absurd member List.not_mem_nil) now
    · cases answered
      exact sound.set collected sound.table
  · rename_i found _
    cases answered
    exact sound.settle (sound.lookups _ _ found).1 (sound.lookups _ _ found).2 now
  · rename_i found ok
    cases answered
    refine sound.settle (sound.lookups _ _ found).1 (fun peer member => ?_) now
    rcases List.mem_append.mp member with before | new
    · exact (sound.lookups _ _ found).2 peer before
    · exact accepted ok peer new
  · cases answered

/-- An inbound message adds at most an entry that has passed the checks. -/
theorem inbound (msg : KadMsg) (now : Int) : (state.inbound service msg now).Sound := by
  unfold LookupState.inbound
  split
  · rename_i reply table handled
    refine ⟨?_, sound.lookups⟩
    unfold LookupService.handleInbound at handled
    split at handled
    · cases handled
    · split at handled <;> cases handled
      exact sound.table
    · cases handled
      exact sound.table
    · obtain ⟨after, handled, ⟨⟩⟩ := Fallible.bind_eq_ok.mp handled
      rcases LookupService.handlePeer_eq_ok handled with rfl | ⟨checked, _, admissible, rfl⟩
      · exact sound.table
      · exact sound.table.addEntry (show (PeerMsg.ofEntry checked.toEntry).Admissible from
          admissible) now
    · cases handled
  · exact sound

theorem step {action : LookupAction} {next : LookupState} {events : List Unit}
    (taken : state.step service action = some (next, events)) : next.Sound := by
  cases action with
  | inbound msg now =>
    cases taken
    exact sound.inbound msg now
  | startLookup =>
    cases taken
    refine ⟨sound.table, fun lookup phase found => ?_⟩
    rcases Indexed.concat_eq_some.mp found with before | ⟨_, rfl⟩
    · exact sound.lookups lookup phase before
    · exact fun _ member => absurd member List.not_mem_nil
  | answer lookup reply now =>
    obtain ⟨_, answered, ⟨⟩⟩ := Option.map_eq_some_iff.mp taken
    exact sound.answer answered
  | updateEntry key entryFlag now =>
    cases taken
    exact ⟨sound.table.updateEntry key entryFlag now, sound.lookups⟩
  | removeEntry key =>
    cases taken
    exact ⟨sound.table.removeEntry key, sound.lookups⟩

end LookupState.Sound

/-! ### Honest nodes accept each other's messages -/

/-- The peers that a reachable table answers with are few and pass the checks. -/
theorem LookupState.Sound.closest {state : LookupState} (sound : state.Sound) (target : PeerID) :
    LookupService.acceptPeers
      ((state.table.closestEntries target.bytes MAX_PEERS_IN_PEERSMSG).map PeerMsg.ofEntry) =
      .ok ((state.table.closestEntries target.bytes MAX_PEERS_IN_PEERSMSG).map
        PeerMsg.ofEntry) := by
  have permuted := state.table.closestEntriesFiltered_perm target.bytes
    (show 1 ≤ MAX_PEERS_IN_PEERSMSG by decide) .default
  refine LookupService.acceptPeers_of_admissible ?_ fun peer member => ?_
  · rw [List.length_map]
    exact permuted.length_eq.le.trans (List.length_take_le _ _)
  · obtain ⟨entry, found, rfl⟩ := List.mem_map.mp member
    have used := RoutingTable.mem_walked (List.mem_of_mem_take (permuted.mem_iff.mp found))
    obtain ⟨e, kept, rfl⟩ := List.mem_map.mp used
    exact sound.table e (List.mem_filter.mp kept).1

/-- In every reachable state the peers message of a node is accepted by every honest node, with
all its peers. The peer message of a node whose listen endpoints have few enough addresses is
accepted by every honest node, which goes on to add the sender; one with more is refused by all. -/
theorem honest_lookup_accepted {semver : Semver} {id : PeerID} {config : LookupConfig semver}
    {history : List Unit} {state : LookupState}
    (run : (lookupMachine (.new id config)).Run (fun _ _ => True) history state) :
    (∀ (target : PeerID) (nonce : Nonce) (asked : PeerID),
      ∃ peers, LookupService.sendPeersMsg state.table target = .peers peers ∧
        LookupService.handleOutbound nonce asked (.peers peers) = .ok (.found peers)) ∧
    ((config.listenEndpoints.filterMap fun endpoint =>
        PeerAddr.fromEndpoint endpoint 0).length ≤ MAX_ADDRS_PER_PEER →
      ∀ (bloom : LocalBloom) (msg : KadMsg),
        (LookupService.new id config).sendPeerMsg bloom = some msg →
        ∀ (other : Semver) (receiver : LookupService other) (table : RoutingTable) (now : Int),
          ∃ peer, msg = .peer peer ∧ receiver.handleInbound table now msg =
            .ok (.goesOn none (table.addEntry peer.toEntry now).1)) ∧
    (MAX_ADDRS_PER_PEER < (config.listenEndpoints.filterMap fun endpoint =>
        PeerAddr.fromEndpoint endpoint 0).length →
      ∀ bloom : LocalBloom, ∃ msg, (LookupService.new id config).sendPeerMsg bloom = some msg ∧
        ∀ (other : Semver) (receiver : LookupService other) (table : RoutingTable) (now : Int),
          ∃ reason, receiver.handleInbound table now msg = .error (.invalidMsg reason)) := by
  have sound : state.Sound := run.invariant (fun _ state => state.Sound) LookupState.Sound.start
    fun _ _ _ _ _ sound _ taken => sound.step taken
  refine ⟨?_, ?_, ?_⟩
  · intro target nonce asked
    refine ⟨_, rfl, ?_⟩
    show (do let peers ← LookupService.acceptPeers _; return LookupService.Outbound.found peers) = _
    rw [sound.closest target]
    rfl
  · intro few bloom msg sent other receiver table now
    revert sent
    fun_cases LookupService.sendPeerMsg <;> rintro ⟨⟩
    rename_i reachable
    refine ⟨_, rfl, ?_⟩
    show (do let table ← LookupService.handlePeer table now _
             return LookupService.Inbound.goesOn none table) = _
    rw [LookupService.handlePeer_of_admissible (selfMsg_admissible config id bloom few reachable)]
    rfl
  · intro many bloom
    rw [← length_selfMsg_addrs config id bloom] at many
    have reachable : isReachable ((LookupService.new id config).selfMsg bloom) = true := by
      rw [isReachable, List.isEmpty_eq_false_iff.mpr (List.ne_nil_of_length_pos (by omega))]
      rfl
    refine ⟨_, if_pos reachable, fun other receiver table now => ?_⟩
    have refused : validatePeerMsg _ = .error (.invalidMsg _) := if_pos many
    rw [LookupService.handleInbound, LookupService.handlePeer, refused]
    exact ⟨_, rfl⟩

/-- A semver library with one requirement, which every version matches. -/
def anyVersion : Semver where
  VersionReq := Unit
  parse _ := some ()
  toString _ := "*"
  «matches» _ _ := true

/-- A node that listens on the given ports and serves lookups and refreshes. -/
def listening (number : UInt8) (ports : List Port) : LookupService anyVersion :=
  .new ⟨Vector.replicate 32 number⟩
    { version := { v := ⟨1, 0, 0⟩, req := () }
      listenEndpoints := ports.map fun port => .tcp (.ip (.v4 #v[10, number, 0, 1])) port
      discoveryEndpoints :=
        [.tcp (.ip (.v4 #v[10, number, 0, 1])) 7000, .udp (.ip (.v4 #v[10, number, 0, 1])) 7000]
      publicIp := none }

/-- A node with two listeners that has learned of another node is asked for peers, and introduces
itself. -/
theorem honest_lookup_accepted_pair :
    ∃ (history : List Unit) (state : LookupState),
      (lookupMachine (listening 1 [8000, 8001])).Run (fun _ _ => True) history state ∧
      LookupService.sendPeersMsg state.table ⟨Vector.replicate 32 3⟩ =
        .peers [(listening 2 [8000]).selfMsg .default] ∧
      LookupService.handleOutbound (Vector.replicate 32 0) ⟨Vector.replicate 32 3⟩
        (.peers [(listening 2 [8000]).selfMsg .default]) =
        .ok (.found [(listening 2 [8000]).selfMsg .default]) ∧
      (listening 3 []).handleInbound (.new (Vector.replicate 32 3)) 0
        (.peer ((listening 1 [8000, 8001]).selfMsg .default)) =
        .ok (.goesOn none ((RoutingTable.new (Vector.replicate 32 3)).addEntry
          ((listening 1 [8000, 8001]).selfMsg .default).toEntry 0).1) := by
  refine Machine.trace_run
    (fun _ state => LookupService.sendPeersMsg state.table ⟨Vector.replicate 32 3⟩ =
      .peers [(listening 2 [8000]).selfMsg .default])
    [.inbound (.peer ((listening 2 [8000]).selfMsg .default)) 0] (by decide +kernel)
    fun history state run observed => ?_
  have accepted := honest_lookup_accepted run
  obtain ⟨peers, sent, found⟩ := accepted.1 ⟨Vector.replicate 32 3⟩ (Vector.replicate 32 0)
    ⟨Vector.replicate 32 3⟩
  obtain ⟨peer, same, handled⟩ := accepted.2.1 (by decide) .default _ rfl _ (listening 3 [])
    (.new (Vector.replicate 32 3)) 0
  cases observed.symm.trans sent
  cases same
  exact ⟨observed, found, handled⟩

/-- What a node with five listeners says about itself is an error to every honest node. -/
theorem honest_lookup_refused :
    ∃ peer, (listening 1 [8000, 8001, 8002, 8003, 8004]).sendPeerMsg .default =
        some (.peer peer) ∧
      ∀ (other : Semver) (receiver : LookupService other) (table : RoutingTable) (now : Int),
        receiver.handleInbound table now (.peer peer) =
          .error (.invalidMsg "PeerMsg.addrs has 5 entries, max 4") :=
  ⟨_, rfl, fun _ _ _ _ => rfl⟩

end Karyon.P2p
