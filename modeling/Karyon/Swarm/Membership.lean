/-
This file models the swarms of `swarm/src/lib.rs`: which of the connected peers a
swarm lists, and how joins, leaves and the peer events of the node change that.

The events of the pool wait in the listener of the swarm, so the handling of an
addition may find the peer gone, or connected anew with other protocols. An addition
replaces what is filed for the peer in the reverse index. `swarm_peers_exact` says that
the lists are exact whenever no event waits, as long as the replaced entry names no swarm
of a protocol that the peer has not negotiated.
-/

import Karyon.P2p.PeerLifecycle

namespace Karyon

open P2p Transition
open P2p.PeerPool (lifecycle_append lifecycle_added lifecycle_removed)

/-! ### Swarm keys -/

abbrev SwarmKey := Vector UInt8 32

section Keys

variable (sha256 : Bytes → SwarmKey) (protocolId : ProtocolID)

/-- Default swarm key: one swarm per protocol. -/
def swarmKeyFromProtocol : SwarmKey :=
  sha256 protocolId.toUTF8.data.toList

/-- Swarm key with an extra instance name for sub-grouping within a protocol. -/
def computeSwarmKey (instanceName : String) : SwarmKey :=
  sha256 (protocolId.toUTF8.data.toList ++ ":".toUTF8.data.toList ++
    instanceName.toUTF8.data.toList)

/-- The key of a join, with or without an instance. -/
def joinKey : Option String → SwarmKey
  | none => swarmKeyFromProtocol sha256 protocolId
  | some instanceName => computeSwarmKey sha256 protocolId instanceName

end Keys

/-! ### The peers of the node -/

/-- A connected peer, as far as swarms look at it. -/
structure ConnectedPeer where
  isInbound : Bool
  negotiatedProtocols : HashSet ProtocolID

abbrev ConnectedPeers := HashMap PeerID ConnectedPeer

namespace ConnectedPeers

variable (pool : ConnectedPeers)

def inboundPeers : List PeerID :=
  (pool.entries.filter fun binding => binding.2.isInbound).map Sigma.fst

def outboundPeers : List PeerID :=
  (pool.entries.filter fun binding => !binding.2.isInbound).map Sigma.fst

def peerProtocolSet (pid : PeerID) : Option (HashSet ProtocolID) :=
  (pool.lookup pid).map ConnectedPeer.negotiatedProtocols

/-- The peer is connected and has negotiated the protocol. -/
def Speaks (pid : PeerID) (protocolId : ProtocolID) : Prop :=
  ∃ peer, pool.lookup pid = some peer ∧ protocolId ∈ peer.negotiatedProtocols

variable {protocolId : ProtocolID}

variable {pool} in
theorem speaks_congr {later : ConnectedPeers} (same : later.lookup pid = pool.lookup pid) :
    later.Speaks pid protocolId ↔ pool.Speaks pid protocolId := by
  unfold Speaks
  rw [same]

/-- A connected peer is inbound or outbound. -/
theorem mem_inbound_append_outbound (pid : PeerID) :
    pid ∈ pool.inboundPeers ++ pool.outboundPeers ↔ (pool.lookup pid).isSome = true := by
  rw [AList.lookup_isSome, AList.mem_keys, AList.keys, List.keys, inboundPeers, outboundPeers,
    ← List.map_append, List.mem_map, List.mem_map]
  refine exists_congr fun binding => and_congr_left fun _ => ?_
  rw [List.mem_append, List.mem_filter, List.mem_filter, ← and_or_left]
  cases binding.2.isInbound
  · exact ⟨And.left, fun member => ⟨member, Or.inr rfl⟩⟩
  · exact ⟨And.left, fun member => ⟨member, Or.inl rfl⟩⟩

end ConnectedPeers

/-! ### The swarms -/

/-- Per-swarm state: the protocol it wraps and the peers in it. -/
structure SwarmInfo where
  protocolId : ProtocolID
  peers : HashSet PeerID

/-- The joined swarms, and the reverse index of the swarms that each peer belongs to. -/
structure Swarm where
  swarms : HashMap SwarmKey SwarmInfo
  peerSwarms : HashMap PeerID (HashSet SwarmKey)

variable {attached : Except Error Unit} {returned : SwarmKey} {peer : ConnectedPeer}

namespace Swarm

def new : Swarm :=
  { swarms := ∅, peerSwarms := ∅ }

variable (swarm : Swarm)

def peers (key : SwarmKey) : HashSet PeerID :=
  match swarm.swarms.lookup key with
  | some info => info.peers
  | none => ∅

variable (pool : ConnectedPeers)

/-- One round of the scan: a peer that speaks the protocol is put into the swarm and filed. -/
def scanPeer (key : SwarmKey) (protocolId : ProtocolID) (swarm : Swarm) (pid : PeerID) : Swarm :=
  match pool.peerProtocolSet pid with
  | some protos =>
    if protocolId ∈ protos then
      { swarms := HashMap.modify swarm.swarms key fun info =>
          { info with peers := info.peers.insert pid () }
        peerSwarms := swarm.peerSwarms.insert pid
          (((swarm.peerSwarms.lookup pid).getD ∅).insert key ()) }
    else swarm
  | none => swarm

variable (swarm : Swarm)

/-- Scan currently connected peers and add the ones speaking the protocol to the swarm. -/
def scanPeersForSwarm (key : SwarmKey) (protocolId : ProtocolID) : Swarm :=
  match swarm.swarms.lookup key with
  | none => swarm
  | some _ =>
    (pool.inboundPeers ++ pool.outboundPeers).foldl (scanPeer pool key protocolId) swarm

/-- Put a swarm without peers under the key, in place of the one that may be there. -/
def register (protocolId : ProtocolID) (key : SwarmKey) : Swarm :=
  { swarm with swarms := swarm.swarms.insert key { protocolId, peers := ∅ } }

/-- Shared join logic. The protocol is attached to the node first, which may fail. -/
def joinInner (attached : Except Error Unit) (protocolId : ProtocolID) (key : SwarmKey) :
    Except Error (Swarm × SwarmKey) := do
  attached
  return ((swarm.register protocolId key).scanPeersForSwarm pool key protocolId, key)

def leave (key : SwarmKey) : Swarm :=
  { swarms := swarm.swarms.erase key
    peerSwarms := HashMap.mapValues (fun keys => keys.erase key) swarm.peerSwarms }

/-- The swarms whose protocol is in the set. -/
def joinedKeys (protos : HashSet ProtocolID) : HashSet SwarmKey :=
  HashMap.keysWhere (fun info => decide (info.protocolId ∈ protos)) swarm.swarms

/-- Add a peer with the negotiated protocols to the swarms of these protocols. -/
def insertPeer (pid : PeerID) (protos : HashSet ProtocolID) : Swarm :=
  { swarms := HashMap.mapValues (fun info =>
      if info.protocolId ∈ protos then { info with peers := info.peers.insert pid () }
      else info) swarm.swarms
    peerSwarms :=
      if (swarm.joinedKeys protos).keys.isEmpty then swarm.peerSwarms
      else swarm.peerSwarms.insert pid (swarm.joinedKeys protos) }

/-- Add the peer to every swarm whose protocol it negotiated. -/
def onPeerAdded (pid : PeerID) : Swarm :=
  match pool.peerProtocolSet pid with
  | none => swarm
  | some protos => swarm.insertPeer pid protos

/-- Take the peer off the list of one swarm. -/
def dropPeer (pid : PeerID) (swarm : Swarm) (key : SwarmKey) : Swarm :=
  { swarm with swarms := HashMap.modify swarm.swarms key fun info =>
      { info with peers := info.peers.erase pid } }

/-- Remove the peer from every swarm it was in. -/
def onPeerRemoved (pid : PeerID) : Swarm :=
  let unfiled := { swarm with peerSwarms := swarm.peerSwarms.erase pid }
  match swarm.peerSwarms.lookup pid with
  | some keys => keys.keys.foldl (dropPeer pid) unfiled
  | none => unfiled

/-- Forward one peer event into the membership. -/
def monitorPeers : PeerEvent → Swarm
  | .added pid => swarm.onPeerAdded pool pid
  | .removed pid => swarm.onPeerRemoved pid
  | .handshakeFailed _ => swarm

/-! ### What the operations do to the lists and to the index -/

def protocol (key : SwarmKey) : Option ProtocolID :=
  (swarm.swarms.lookup key).map SwarmInfo.protocolId

/-- The reverse index names the swarm for the peer. -/
def Filed (pid : PeerID) (key : SwarmKey) : Prop :=
  ∃ keys, swarm.peerSwarms.lookup pid = some keys ∧ key ∈ keys

variable {key : SwarmKey}

theorem mem_peers {swarm : Swarm} {pid : PeerID} :
    pid ∈ swarm.peers key ↔ ∃ info, swarm.swarms.lookup key = some info ∧ pid ∈ info.peers := by
  unfold peers
  cases found : swarm.swarms.lookup key with
  | none => exact ⟨fun member => absurd member (AList.notMem_empty _), nofun⟩
  | some info =>
    refine ⟨fun member => ⟨info, rfl, member⟩, ?_⟩
    rintro ⟨_, same, member⟩
    cases same
    exact member

theorem protocol_modify (swarm : Swarm) (key other : SwarmKey)
    (change : HashSet PeerID → HashSet PeerID) (index : HashMap PeerID (HashSet SwarmKey)) :
    protocol ⟨HashMap.modify swarm.swarms key fun info => { info with peers := change info.peers },
      index⟩ other = swarm.protocol other := by
  unfold protocol
  rw [HashMap.lookup_modify]
  split
  · rw [Option.map_map]
    rfl
  · rfl

theorem mem_peers_modify {swarm : Swarm} {other : SwarmKey} {pid : PeerID}
    (change : HashSet PeerID → HashSet PeerID) {index : HashMap PeerID (HashSet SwarmKey)} :
    pid ∈ peers ⟨HashMap.modify swarm.swarms key fun info =>
      { info with peers := change info.peers }, index⟩ other ↔
      ∃ info, swarm.swarms.lookup other = some info ∧
        pid ∈ if other = key then change info.peers else info.peers := by
  rw [mem_peers]
  simp only [HashMap.lookup_modify]
  by_cases same : other = key
  · simp only [if_pos same, Option.map_eq_some_iff]
    constructor
    · rintro ⟨_, ⟨info, found, rfl⟩, member⟩
      exact ⟨info, found, member⟩
    · rintro ⟨info, found, member⟩
      exact ⟨_, ⟨info, found, rfl⟩, member⟩
  · simp only [if_neg same]

variable {swarms : HashMap SwarmKey SwarmInfo}

theorem filed_insert {swarm : Swarm} {pid member : PeerID} {keys : HashSet SwarmKey} :
    Filed ⟨swarms, swarm.peerSwarms.insert pid keys⟩ member key ↔
      member = pid ∧ key ∈ keys ∨ member ≠ pid ∧ swarm.Filed member key := by
  unfold Filed
  simp only [HashMap.lookup_insert_eq_some, or_and_right, exists_or, and_assoc, exists_and_left,
    exists_eq_left']

theorem filed_erase {swarm : Swarm} {pid member : PeerID} :
    Filed ⟨swarms, swarm.peerSwarms.erase pid⟩ member key ↔
      member ≠ pid ∧ swarm.Filed member key := by
  unfold Filed
  simp only [HashMap.lookup_erase_eq_some, and_assoc, exists_and_left]

section Scan

variable {pool : ConnectedPeers} {key : SwarmKey} {protocolId : ProtocolID} {swarm : Swarm}
  {pid : PeerID}

def list (swarm : Swarm) (key : SwarmKey) (pid : PeerID) : Swarm :=
  { swarm with swarms := HashMap.modify swarm.swarms key fun info =>
      { info with peers := info.peers.insert pid () } }

def file (swarm : Swarm) (pid : PeerID) (key : SwarmKey) : Swarm :=
  { swarm with
    peerSwarms := swarm.peerSwarms.insert pid
      (((swarm.peerSwarms.lookup pid).getD ∅).insert key ()) }

theorem protocol_list (other : SwarmKey) :
    (swarm.list key pid).protocol other = swarm.protocol other :=
  protocol_modify swarm key other (fun peers => peers.insert pid ()) _

variable {other : SwarmKey} {member : PeerID}

theorem mem_peers_list :
    member ∈ (swarm.list key pid).peers other ↔
      member ∈ swarm.peers other ∨
        other = key ∧ (swarm.protocol key).isSome = true ∧ member = pid := by
  unfold list
  rw [mem_peers_modify fun peers => peers.insert pid (), mem_peers]
  by_cases same : other = key
  · subst same
    simp only [if_true, AList.mem_insert, protocol, Option.isSome_map, Option.isSome_iff_exists,
      true_and]
    constructor
    · rintro ⟨info, found, rfl | member⟩
      · exact Or.inr ⟨⟨info, found⟩, rfl⟩
      · exact Or.inl ⟨info, found, member⟩
    · rintro (⟨info, found, member⟩ | ⟨⟨info, found⟩, rfl⟩)
      · exact ⟨info, found, Or.inr member⟩
      · exact ⟨info, found, Or.inl rfl⟩
  · simp only [same, if_false, false_and, or_false]

theorem filed_file :
    (swarm.file pid key).Filed member other ↔
      swarm.Filed member other ∨ member = pid ∧ other = key := by
  unfold file
  rw [filed_insert]
  by_cases same : member = pid
  · subst same
    simp only [AList.mem_insert, true_and, ne_eq, not_true, false_and, or_false]
    rw [or_comm]
    refine or_congr_left ?_
    unfold Filed
    cases found : swarm.peerSwarms.lookup member with
    | none => exact ⟨fun member => absurd member (AList.notMem_empty _), nofun⟩
    | some keys =>
      refine ⟨fun member => ⟨keys, rfl, member⟩, ?_⟩
      rintro ⟨_, same, member⟩
      exact Option.some.inj same ▸ member
  · simp only [same, false_and, ne_eq, not_false_iff, true_and, false_or, or_false]

theorem scanPeer_of_speaks (speaks : pool.Speaks pid protocolId) :
    swarm.scanPeer pool key protocolId pid = (swarm.list key pid).file pid key := by
  obtain ⟨peer, found, negotiated⟩ := speaks
  simp only [scanPeer, ConnectedPeers.peerProtocolSet, found, Option.map_some, if_pos negotiated]
  rfl

theorem scanPeer_of_not_speaks (silent : ¬ pool.Speaks pid protocolId) :
    swarm.scanPeer pool key protocolId pid = swarm := by
  unfold scanPeer ConnectedPeers.peerProtocolSet
  split
  · rename_i protos found
    obtain ⟨peer, present, rfl⟩ := Option.map_eq_some_iff.mp found
    exact if_neg fun negotiated => silent ⟨peer, present, negotiated⟩
  · rfl

theorem protocol_scanPeer (other : SwarmKey) :
    (swarm.scanPeer pool key protocolId pid).protocol other = swarm.protocol other := by
  by_cases speaks : pool.Speaks pid protocolId
  · rw [scanPeer_of_speaks speaks]
    exact protocol_list other
  · rw [scanPeer_of_not_speaks speaks]

theorem mem_peers_scanPeer :
    member ∈ (swarm.scanPeer pool key protocolId pid).peers other ↔
      member ∈ swarm.peers other ∨ other = key ∧ (swarm.protocol key).isSome = true ∧
        member = pid ∧ pool.Speaks pid protocolId := by
  by_cases speaks : pool.Speaks pid protocolId
  · rw [scanPeer_of_speaks speaks, and_iff_left speaks]
    exact mem_peers_list
  · rw [scanPeer_of_not_speaks speaks]
    exact ⟨Or.inl, fun either => either.resolve_right fun new => speaks new.2.2.2⟩

theorem filed_scanPeer :
    (swarm.scanPeer pool key protocolId pid).Filed member other ↔
      swarm.Filed member other ∨ member = pid ∧ other = key ∧ pool.Speaks pid protocolId := by
  by_cases speaks : pool.Speaks pid protocolId
  · rw [scanPeer_of_speaks speaks, and_iff_left speaks]
    exact filed_file
  · rw [scanPeer_of_not_speaks speaks]
    exact ⟨Or.inl, fun either => either.resolve_right fun new => speaks new.2.2⟩

variable (pool protocolId) in
/-- The rounds of the scan add the peers among those scanned that speak the protocol. -/
theorem scanPeers_spec (pids : List PeerID) (joined : (swarm.protocol key).isSome = true) :
    (∀ other, (pids.foldl (scanPeer pool key protocolId) swarm).protocol other =
      swarm.protocol other) ∧
    (∀ other member, member ∈ (pids.foldl (scanPeer pool key protocolId) swarm).peers other ↔
      member ∈ swarm.peers other ∨ other = key ∧ member ∈ pids ∧ pool.Speaks member protocolId) ∧
    (∀ member other, (pids.foldl (scanPeer pool key protocolId) swarm).Filed member other ↔
      swarm.Filed member other ∨
        other = key ∧ member ∈ pids ∧ pool.Speaks member protocolId) := by
  induction pids generalizing swarm with
  | nil => simp only [List.foldl_nil, List.not_mem_nil, false_and, and_false, or_false,
      implies_true, and_self]
  | cons pid rest inductionHypothesis =>
    obtain ⟨protocols, lists, filed⟩ :=
      @inductionHypothesis (swarm.scanPeer pool key protocolId pid)
        (by rw [protocol_scanPeer]; exact joined)
    refine ⟨fun other => (protocols other).trans (protocol_scanPeer other),
      fun other member => ?_, fun member other => ?_⟩
    · rw [List.foldl_cons, lists, mem_peers_scanPeer, or_assoc, List.mem_cons, or_and_right,
        and_or_left]
      simp only [joined, true_and]
      exact or_congr_right (or_congr_left (and_congr_right fun _ => and_congr_right fun same =>
        same ▸ Iff.rfl))
    · rw [List.foldl_cons, filed, filed_scanPeer, or_assoc, List.mem_cons, or_and_right,
        and_or_left, and_left_comm]
      exact or_congr_right (or_congr_left (and_congr_right fun _ => and_congr_right fun same =>
        same ▸ Iff.rfl))

theorem protocol_register (other : SwarmKey) :
    (swarm.register protocolId key).protocol other =
      if other = key then some protocolId else swarm.protocol other := by
  unfold register protocol
  split
  · rename_i same
    rw [same, AList.lookup_insert]
    rfl
  · rename_i different
    rw [AList.lookup_insert_ne different]

theorem mem_peers_register :
    member ∈ (swarm.register protocolId key).peers other ↔
      other ≠ key ∧ member ∈ swarm.peers other := by
  unfold register peers
  by_cases same : other = key
  · rw [same, AList.lookup_insert]
    exact ⟨fun member => absurd member (AList.notMem_empty _), fun other => absurd rfl other.1⟩
  · rw [AList.lookup_insert_ne same]
    exact (and_iff_right same).symm

variable {next : Swarm}
  (joined : swarm.joinInner pool attached protocolId key = .ok (next, returned))

include joined

/-- A join that succeeds scans the connected peers for the swarm it registered. -/
theorem joinInner_eq_ok :
    returned = key ∧ next = (pool.inboundPeers ++ pool.outboundPeers).foldl
      (scanPeer pool key protocolId) (swarm.register protocolId key) := by
  rcases attached with error | _
  · cases joined
  · obtain ⟨rfl, rfl⟩ := Prod.mk.inj (Except.ok.inj joined)
    refine ⟨rfl, ?_⟩
    unfold scanPeersForSwarm
    rw [show (swarm.register protocolId key).swarms.lookup key = some ⟨protocolId, ∅⟩ from
      AList.lookup_insert _]

/-- A joined swarm lists the connected peers that speak its protocol, and the other swarms are
as they were. -/
theorem joinInner_spec :
    (∀ other, next.protocol other = if other = key then some protocolId else swarm.protocol other) ∧
    (∀ other member, member ∈ next.peers other ↔
      other ≠ key ∧ member ∈ swarm.peers other ∨ other = key ∧ pool.Speaks member protocolId) ∧
    (∀ member other, next.Filed member other ↔
      swarm.Filed member other ∨ other = key ∧ pool.Speaks member protocolId) := by
  have own : (swarm.register protocolId key).protocol key = some protocolId := by
    rw [protocol_register, if_pos rfl]
  obtain ⟨_, rfl⟩ := joinInner_eq_ok joined
  obtain ⟨protocols, lists, filed⟩ := scanPeers_spec pool protocolId
    (pool.inboundPeers ++ pool.outboundPeers) (Option.isSome_of_mem own)
  have scanned (member : PeerID) : member ∈ pool.inboundPeers ++ pool.outboundPeers ∧
      pool.Speaks member protocolId ↔ pool.Speaks member protocolId := by
    refine and_iff_right_of_imp fun speaks => ?_
    obtain ⟨peer, found, _⟩ := speaks
    exact (pool.mem_inbound_append_outbound member).mpr (Option.isSome_of_mem found)
  refine ⟨fun other => (protocols other).trans (protocol_register other), fun other member => ?_,
    fun member other => ?_⟩
  · rw [lists, scanned, mem_peers_register]
  · rw [filed, scanned]
    rfl

end Scan

/-! ### Leaving, and the events of the pool -/

section Events

variable {pool : ConnectedPeers} {swarm : Swarm} {pid : PeerID}

theorem leave_spec (key : SwarmKey) :
    (∀ other, (swarm.leave key).protocol other =
      if other = key then none else swarm.protocol other) ∧
    (∀ other member, member ∈ (swarm.leave key).peers other ↔
      other ≠ key ∧ member ∈ swarm.peers other) ∧
    (∀ member other, (swarm.leave key).Filed member other ↔
      other ≠ key ∧ swarm.Filed member other) := by
  refine ⟨fun other => ?_, fun other member => ?_, fun member other => ?_⟩
  · unfold leave protocol
    split
    · rename_i same
      rw [same, AList.lookup_erase]
      rfl
    · rename_i different
      rw [AList.lookup_erase_ne different]
  · unfold leave peers
    by_cases same : other = key
    · rw [same, AList.lookup_erase]
      exact ⟨fun member => absurd member (AList.notMem_empty _), fun other => absurd rfl other.1⟩
    · rw [AList.lookup_erase_ne same]
      exact (and_iff_right same).symm
  · unfold leave Filed
    simp only [HashMap.lookup_mapValues, Option.map_eq_some_iff]
    constructor
    · rintro ⟨_, ⟨keys, found, rfl⟩, named⟩
      have both := AList.mem_erase.mp named
      exact ⟨both.1, keys, found, both.2⟩
    · rintro ⟨different, keys, found, named⟩
      exact ⟨_, ⟨keys, found, rfl⟩, AList.mem_erase.mpr ⟨different, named⟩⟩

variable {protos : HashSet ProtocolID}

theorem mem_joinedKeys :
    key ∈ swarm.joinedKeys protos ↔
      ∃ protocolId, swarm.protocol key = some protocolId ∧ protocolId ∈ protos := by
  unfold joinedKeys protocol
  simp only [HashMap.mem_keysWhere, decide_eq_true_eq, Option.map_eq_some_iff]
  constructor
  · rintro ⟨info, found, speaks⟩
    exact ⟨_, ⟨info, found, rfl⟩, speaks⟩
  · rintro ⟨_, ⟨info, found, rfl⟩, speaks⟩
    exact ⟨info, found, speaks⟩

theorem onPeerAdded_of_absent (absent : pool.lookup pid = none) :
    swarm.onPeerAdded pool pid = swarm := by
  simp only [onPeerAdded, ConnectedPeers.peerProtocolSet, absent, Option.map_none]

theorem onPeerAdded_of_connected (found : pool.lookup pid = some peer) :
    swarm.onPeerAdded pool pid = swarm.insertPeer pid peer.negotiatedProtocols := by
  simp only [onPeerAdded, ConnectedPeers.peerProtocolSet, found, Option.map_some]

theorem mem_peers_added {info : SwarmInfo} {member : PeerID} :
    member ∈ (if info.protocolId ∈ protos then { info with peers := info.peers.insert pid () }
      else info : SwarmInfo).peers ↔
      member ∈ info.peers ∨ member = pid ∧ info.protocolId ∈ protos := by
  split
  · rename_i speaks
    rw [AList.mem_insert, or_comm, and_iff_left speaks]
  · rename_i silent
    exact ⟨Or.inl, fun either => either.resolve_right fun new => silent new.2⟩

/-- The addition of a connected peer puts it into the swarms whose protocol it negotiated. If
there are any, they replace what was filed for the peer. -/
theorem insertPeer_spec (protos : HashSet ProtocolID) :
    (∀ key, (swarm.insertPeer pid protos).protocol key = swarm.protocol key) ∧
    (∀ key member, member ∈ (swarm.insertPeer pid protos).peers key ↔
      member ∈ swarm.peers key ∨ member = pid ∧ key ∈ swarm.joinedKeys protos) ∧
    (∀ member key, (swarm.insertPeer pid protos).Filed member key ↔
      if member = pid ∧ (swarm.joinedKeys protos).keys ≠ [] then key ∈ swarm.joinedKeys protos
      else swarm.Filed member key) := by
  unfold insertPeer
  refine ⟨fun key => ?_, fun key member => ?_, fun member key => ?_⟩
  · unfold protocol
    rw [HashMap.lookup_mapValues, Option.map_map]
    congr 1
    funext info
    show SwarmInfo.protocolId (if _ then _ else _) = _
    split <;> rfl
  · rw [mem_peers, mem_peers, joinedKeys, HashMap.mem_keysWhere, ← exists_and_left, ← exists_or]
    simp only [HashMap.lookup_mapValues, Option.map_eq_some_iff, exists_exists_and_eq_and,
      mem_peers_added, decide_eq_true_eq]
    refine exists_congr fun info => ?_
    rw [and_or_left, and_left_comm]
  · simp only [List.isEmpty_iff]
    by_cases none : (swarm.joinedKeys protos).keys = []
    · rw [if_pos none, if_neg fun both => both.2 none]
      rfl
    · rw [if_neg none, filed_insert]
      by_cases same : member = pid
      · rw [if_pos ⟨same, none⟩]
        simp only [same, true_and, ne_eq, not_true, false_and, or_false]
      · rw [if_neg fun both => same both.1]
        simp only [same, false_and, ne_eq, not_false_iff, true_and, false_or]

theorem mem_peers_dropPeer {other : SwarmKey} {member : PeerID} :
    member ∈ (swarm.dropPeer pid key).peers other ↔
      member ∈ swarm.peers other ∧ ¬ (member = pid ∧ other = key) := by
  unfold dropPeer
  rw [mem_peers_modify fun peers => peers.erase pid, mem_peers]
  by_cases same : other = key
  · simp only [same, if_true, AList.mem_erase, and_true]
    constructor
    · rintro ⟨info, found, different, member⟩
      exact ⟨⟨info, found, member⟩, different⟩
    · rintro ⟨⟨info, found, member⟩, different⟩
      exact ⟨info, found, different, member⟩
  · simp only [same, if_false, and_false, not_false_iff, and_true]

/-- The rounds of a removal take the peer off the lists of these swarms. -/
theorem dropPeers_spec (keys : List SwarmKey) :
    (∀ key, (keys.foldl (dropPeer pid) swarm).protocol key = swarm.protocol key) ∧
    (∀ key member, member ∈ (keys.foldl (dropPeer pid) swarm).peers key ↔
      member ∈ swarm.peers key ∧ ¬ (member = pid ∧ key ∈ keys)) ∧
    (keys.foldl (dropPeer pid) swarm).peerSwarms = swarm.peerSwarms := by
  induction keys generalizing swarm with
  | nil => simp only [List.foldl_nil, List.not_mem_nil, and_false, not_false_iff, and_true,
      implies_true]
  | cons first rest inductionHypothesis =>
    obtain ⟨protocols, lists, index⟩ := @inductionHypothesis (swarm.dropPeer pid first)
    refine ⟨fun key => (protocols key).trans (protocol_modify swarm first key
      (fun peers => peers.erase pid) _), fun key member => ?_, index⟩
    rw [List.foldl_cons, lists, mem_peers_dropPeer, and_assoc, List.mem_cons, and_or_left, not_or]

/-- The removal of a peer takes it off the lists of the swarms it is filed under. -/
theorem onPeerRemoved_spec :
    (∀ key, (swarm.onPeerRemoved pid).protocol key = swarm.protocol key) ∧
    (∀ key member, member ∈ (swarm.onPeerRemoved pid).peers key ↔
      member ∈ swarm.peers key ∧ ¬ (member = pid ∧ swarm.Filed pid key)) ∧
    (∀ member key, (swarm.onPeerRemoved pid).Filed member key ↔
      member ≠ pid ∧ swarm.Filed member key) := by
  unfold onPeerRemoved
  split
  · rename_i keys found
    obtain ⟨protocols, lists, index⟩ := @dropPeers_spec
      { swarm with peerSwarms := swarm.peerSwarms.erase pid } pid keys.keys
    have named (key : SwarmKey) : swarm.Filed pid key ↔ key ∈ keys.keys := by
      unfold Filed
      rw [found]
      simp only [Option.some.injEq, exists_eq_left', AList.mem_keys]
    refine ⟨protocols, fun key member => ?_, fun member key => ?_⟩
    · rw [lists, named]
      rfl
    · unfold Filed
      rw [index]
      exact filed_erase
  · rename_i absent
    have unnamed (key : SwarmKey) : ¬ swarm.Filed pid key := by
      rintro ⟨keys, found, _⟩
      rw [absent] at found
      cases found
    refine ⟨fun key => rfl, fun key member => ?_, fun member key => filed_erase⟩
    exact (and_iff_left fun both => unnamed key both.2).symm

end Events

end Swarm

/-! ### The node with its swarms -/

/-- What was done with the swarms: a key was joined for a protocol, or was left. -/
inductive SwarmEvent where
  | joined (key : SwarmKey) (protocolId : ProtocolID)
  | left (key : SwarmKey)
  deriving DecidableEq

/-- The peers of the node, the peer events that wait in the listener, and the swarms. -/
structure SwarmNode where
  pool : ConnectedPeers
  events : List PeerEvent
  swarm : Swarm

/-- What can happen next: the pool changes, the monitor task handles the next event, or a swarm
is joined or left. -/
inductive SwarmAction where
  | connect (pid : PeerID) (peer : ConnectedPeer)
  | disconnect (pid : PeerID)
  | handshakeFailed (pid : Option PeerID)
  | monitor
  | join (protocolId : ProtocolID) (instanceName : Option String) (attached : Except Error Unit)
  | leave (key : SwarmKey)

namespace SwarmNode

variable (sha256 : Bytes → SwarmKey)

def step (node : SwarmNode) : SwarmAction → Option (SwarmNode × List SwarmEvent)
  | .connect pid peer =>
    if (node.pool.lookup pid).isSome then none
    else some ({ node with
      pool := node.pool.insert pid peer, events := node.events ++ [.added pid] }, [])
  | .disconnect pid =>
    if (node.pool.lookup pid).isSome then some ({ node with
      pool := node.pool.erase pid, events := node.events ++ [.removed pid] }, [])
    else none
  | .handshakeFailed pid =>
    some ({ node with events := node.events ++ [.handshakeFailed pid] }, [])
  | .monitor =>
    match node.events with
    | [] => none
    | event :: events =>
      some ({ node with events, swarm := node.swarm.monitorPeers node.pool event }, [])
  | .join protocolId instanceName attached =>
    match node.swarm.joinInner node.pool attached protocolId
      (joinKey sha256 protocolId instanceName) with
    | .ok (swarm, key) => some ({ node with swarm }, [.joined key protocolId])
    | .error _ => some (node, [])
  | .leave key => some ({ node with swarm := node.swarm.leave key }, [.left key])

end SwarmNode

/-- The node with its swarms, before anything is connected or joined. -/
def swarmMachine (sha256 : Bytes → SwarmKey) : Machine SwarmNode SwarmAction SwarmEvent where
  start := { pool := ∅, events := [], swarm := .new }
  step := SwarmNode.step sha256

/-- The protocol for which a key is joined: that of its last join, unless it was left since. -/
def joinedProtocol (key : SwarmKey) (history : List SwarmEvent) : Option ProtocolID :=
  history.foldl (fun current event =>
    match event with
    | .joined joined protocolId => if joined = key then some protocolId else current
    | .left left => if left = key then none else current) none

namespace SwarmNode

/-- When the addition of a connected peer is handled, the peer is filed under no joined swarm
whose protocol it has not negotiated. -/
def refiles (node : SwarmNode) : SwarmAction → Bool
  | .monitor =>
    match node.events with
    | .added pid :: _ =>
      match node.pool.lookup pid, node.swarm.peerSwarms.lookup pid with
      | some peer, some keys => keys.keys.all fun key =>
          match node.swarm.protocol key with
          | some protocolId => decide (protocolId ∈ peer.negotiatedProtocols)
          | none => true
      | _, _ => true
    | _ => true
  | _ => true

theorem refiles_added {node : SwarmNode} {pid : PeerID} {rest : List PeerEvent}
    (allowed : node.refiles .monitor = true) (next : node.events = .added pid :: rest)
    (found : node.pool.lookup pid = some peer) (filed : node.swarm.Filed pid key)
    (joined : node.swarm.protocol key = some protocolId) :
    protocolId ∈ peer.negotiatedProtocols := by
  obtain ⟨keys, index, named⟩ := filed
  simp only [refiles, next, found, index, List.all_eq_true] at allowed
  have own := allowed key (AList.mem_keys.mp named)
  rw [joined] at own
  exact of_decide_eq_true own

/-! ### What the node keeps -/

/-- The lists and the index of the swarms, with what is pending for each peer: every listed peer
is filed; while no removal of a peer waits, only swarms of its protocols list it; when no event
of a peer waits, all of them do; the last waiting event of a peer says whether it is connected. -/
structure Tracked (history : List SwarmEvent) (node : SwarmNode) : Prop where
  joined : ∀ key, node.swarm.protocol key = joinedProtocol key history
  filed : ∀ key pid, pid ∈ node.swarm.peers key → node.swarm.Filed pid key
  sound : ∀ key pid, false ∉ lifecycle pid node.events → pid ∈ node.swarm.peers key →
    ∃ protocolId, node.swarm.protocol key = some protocolId ∧ node.pool.Speaks pid protocolId
  complete : ∀ key pid protocolId, lifecycle pid node.events = [] →
    node.swarm.protocol key = some protocolId → node.pool.Speaks pid protocolId →
    pid ∈ node.swarm.peers key
  last : ∀ pid added, (lifecycle pid node.events).getLast? = some added →
    added = (node.pool.lookup pid).isSome

namespace Tracked

variable {sha256 : Bytes → SwarmKey} {history : List SwarmEvent} {node : SwarmNode} {pid : PeerID}
  {rest : List PeerEvent}

theorem start : Tracked [] (swarmMachine sha256).start where
  joined _ := rfl
  filed _ _ member := absurd member (AList.notMem_empty _)
  sound _ _ _ member := absurd member (AList.notMem_empty _)
  complete _ _ _ _ joined := by cases joined
  last _ _ pending := by cases pending

variable {event : PeerEvent}

/-- The events that wait for a peer are those of the next event and of the rest. -/
theorem pending_cons (pid : PeerID) (event : PeerEvent) (rest : List PeerEvent) :
    lifecycle pid (event :: rest) = lifecycle pid [event] ++ lifecycle pid rest :=
  lifecycle_append pid [event] rest

section

variable (tracked : Tracked history node)

include tracked

/-- The pool changes at the peer that the new event is about. -/
theorem queued {pool : ConnectedPeers} {added : Bool}
    (about : ∀ other, lifecycle other [event] = if pid = other then [added] else [])
    (others : ∀ other, other ≠ pid → pool.lookup other = node.pool.lookup other)
    (own : added = (pool.lookup pid).isSome) (fresh : added = true → node.pool.lookup pid = none) :
    Tracked history { node with pool, events := node.events ++ [event] } where
  joined := tracked.joined
  filed := tracked.filed
  sound key other clean member := by
    rw [lifecycle_append, List.mem_append, not_or, about] at clean
    obtain ⟨protocolId, joined, speaks⟩ := tracked.sound key other clean.1 member
    refine ⟨protocolId, joined, ?_⟩
    by_cases same : pid = other
    · rw [if_pos same, List.mem_singleton] at clean
      obtain ⟨peer, found, _⟩ := speaks
      rw [← same, fresh (eq_true_of_ne_false fun removed => clean.2 removed.symm)] at found
      cases found
    · exact (ConnectedPeers.speaks_congr (others other (Ne.symm same))).mpr speaks
  complete key other protocolId silent joined speaks := by
    rw [lifecycle_append, List.append_eq_nil_iff, about] at silent
    have different : other ≠ pid := by
      rintro rfl
      rw [if_pos rfl] at silent
      cases silent.2
    exact tracked.complete key other protocolId silent.1 joined
      ((ConnectedPeers.speaks_congr (others other different)).mp speaks)
  last other newest pending := by
    rw [lifecycle_append, about] at pending
    by_cases same : pid = other
    · rw [if_pos same, List.getLast?_concat] at pending
      exact same ▸ Option.some.inj pending ▸ own
    · rw [if_neg same, List.append_nil] at pending
      exact (tracked.last other newest pending).trans (by rw [others other (Ne.symm same)])

/-- An event about no peer waits like the others. -/
theorem queued_failure (about : Option PeerID) :
    Tracked history { node with events := node.events ++ [.handshakeFailed about] } := by
  have silent (pid : PeerID) :
      lifecycle pid (node.events ++ [.handshakeFailed about]) = lifecycle pid node.events :=
    (lifecycle_append pid _ _).trans (List.append_nil _)
  refine ⟨tracked.joined, tracked.filed, fun key pid => ?_, fun key pid => ?_, fun pid => ?_⟩
  · rw [silent]
    exact tracked.sound key pid
  · rw [silent]
    exact tracked.complete key pid
  · rw [silent]
    exact tracked.last pid

/-- The last waiting event is still the last one when the next event was handled. -/
theorem last_rest (next : node.events = event :: rest) (pid : PeerID) (added : Bool)
    (pending : (lifecycle pid rest).getLast? = some added) :
    added = (node.pool.lookup pid).isSome := by
  refine tracked.last pid added ?_
  rw [next, pending_cons, List.getLast?_append, pending]
  rfl

/-- An event that is not the removal of the peer leaves the waiting removals as they are. -/
theorem sound_rest (next : node.events = event :: rest) (kept : false ∉ lifecycle pid [event])
    (clean : false ∉ lifecycle pid rest) (member : pid ∈ node.swarm.peers key) :
    ∃ protocolId, node.swarm.protocol key = some protocolId ∧
      node.pool.Speaks pid protocolId := by
  refine tracked.sound key pid ?_ member
  rw [next, pending_cons, List.mem_append, not_or]
  exact ⟨kept, clean⟩

theorem handshakeFailed {about : Option PeerID}
    (next : node.events = .handshakeFailed about :: rest) :
    Tracked history { node with events := rest } where
  joined := tracked.joined
  filed := tracked.filed
  sound key pid clean member := tracked.sound_rest next (List.not_mem_nil) clean member
  complete key pid protocolId silent joined speaks := by
    refine tracked.complete key pid protocolId ?_ joined speaks
    rw [next, pending_cons, silent]
    rfl
  last := tracked.last_rest next

theorem added_absent (next : node.events = .added pid :: rest)
    (absent : node.pool.lookup pid = none) : Tracked history { node with events := rest } where
  joined := tracked.joined
  filed := tracked.filed
  sound key other clean member := by
    refine tracked.sound_rest next ?_ clean member
    rw [lifecycle_added]
    split
    · exact fun impossible => Bool.noConfusion (List.mem_singleton.mp impossible)
    · exact List.not_mem_nil
  complete key other protocolId silent joined speaks := by
    refine tracked.complete key other protocolId ?_ joined speaks
    have different : pid ≠ other := by
      rintro rfl
      obtain ⟨peer, found, _⟩ := speaks
      rw [absent] at found
      cases found
    rw [next, pending_cons, silent, lifecycle_added, if_neg different]
    rfl
  last := tracked.last_rest next

/-- The addition of a connected peer keeps everybody filed, as what it replaces was filed for
swarms of the protocols of the peer. -/
theorem added_connected (allowed : node.refiles .monitor = true)
    (next : node.events = .added pid :: rest) (found : node.pool.lookup pid = some peer) :
    Tracked history { node with
      events := rest, swarm := node.swarm.insertPeer pid peer.negotiatedProtocols } := by
  obtain ⟨protocols, lists, filed⟩ := @Swarm.insertPeer_spec node.swarm pid peer.negotiatedProtocols
  have named {key : SwarmKey} (member : pid ∈ node.swarm.peers key) :
      key ∈ node.swarm.joinedKeys peer.negotiatedProtocols := by
    obtain ⟨info, present, _⟩ := Swarm.mem_peers.mp member
    have joined : node.swarm.protocol key = some info.protocolId := by
      rw [Swarm.protocol, present]
      rfl
    exact Swarm.mem_joinedKeys.mpr ⟨_, joined,
      refiles_added allowed next found (tracked.filed key pid member) joined⟩
  refine ⟨fun key => (protocols key).trans (tracked.joined key), fun key other member => ?_,
    fun key other clean member => ?_, fun key other protocolId silent joined speaks => ?_,
    tracked.last_rest next⟩
  · rw [filed]
    split
    · rename_i both
      rcases (lists key other).mp member with before | new
      · rw [both.1] at before
        exact named before
      · exact new.2
    · rename_i kept
      rcases (lists key other).mp member with before | ⟨same, new⟩
      · exact tracked.filed key other before
      · exact absurd ⟨same, List.ne_nil_of_mem (AList.mem_keys.mp new)⟩ kept
  · simp only [protocols]
    rcases (lists key other).mp member with before | ⟨same, new⟩
    · refine tracked.sound_rest next ?_ clean before
      rw [lifecycle_added]
      split
      · exact fun impossible => Bool.noConfusion (List.mem_singleton.mp impossible)
      · exact List.not_mem_nil
    · obtain ⟨protocolId, joined, negotiated⟩ := Swarm.mem_joinedKeys.mp new
      exact ⟨protocolId, joined, peer, same ▸ found, negotiated⟩
  · rw [protocols] at joined
    refine (lists key other).mpr ?_
    by_cases same : other = pid
    · obtain ⟨_, present, negotiated⟩ := speaks
      rw [same, found] at present
      cases present
      exact Or.inr ⟨same, Swarm.mem_joinedKeys.mpr ⟨protocolId, joined, negotiated⟩⟩
    · refine Or.inl (tracked.complete key other protocolId ?_ joined speaks)
      rw [next, pending_cons, silent, lifecycle_added, if_neg (Ne.symm same)]
      rfl

/-- The removal of a peer takes it off all lists, as it is filed under every swarm that lists
it. -/
theorem removed (next : node.events = .removed pid :: rest) :
    Tracked history { node with events := rest, swarm := node.swarm.onPeerRemoved pid } := by
  obtain ⟨protocols, lists, filed⟩ := @Swarm.onPeerRemoved_spec node.swarm pid
  have others {key : SwarmKey} {other : PeerID} :
      other ∈ (node.swarm.onPeerRemoved pid).peers key ↔
        other ≠ pid ∧ other ∈ node.swarm.peers key := by
    rw [lists]
    refine ⟨fun kept => ⟨fun same => kept.2 ⟨same, ?_⟩, kept.1⟩,
      fun kept => ⟨kept.2, fun both => kept.1 both.1⟩⟩
    exact same ▸ tracked.filed key other kept.1
  refine ⟨fun key => (protocols key).trans (tracked.joined key), fun key other member => ?_,
    fun key other clean member => ?_, fun key other protocolId silent joined speaks => ?_,
    tracked.last_rest next⟩
  · have kept := others.mp member
    exact (filed other key).mpr ⟨kept.1, tracked.filed key other kept.2⟩
  · have kept := others.mp member
    simp only [protocols]
    refine tracked.sound_rest next ?_ clean kept.2
    rw [lifecycle_removed, if_neg (Ne.symm kept.1)]
    exact List.not_mem_nil
  · rw [protocols] at joined
    have different : other ≠ pid := by
      rintro rfl
      have gone := tracked.last other false (by
        rw [next, pending_cons, silent, lifecycle_removed, if_pos rfl]
        rfl)
      obtain ⟨peer, found, _⟩ := speaks
      rw [found] at gone
      cases gone
    refine others.mpr ⟨different, tracked.complete key other protocolId ?_ joined speaks⟩
    rw [next, pending_cons, silent, lifecycle_removed, if_neg (Ne.symm different)]
    rfl

theorem join {swarm : Swarm}
    (joined : node.swarm.joinInner node.pool attached protocolId key = .ok (swarm, returned)) :
    Tracked (history ++ [.joined returned protocolId]) { node with swarm } := by
  obtain ⟨protocols, lists, filed⟩ := Swarm.joinInner_spec joined
  obtain ⟨rfl, _⟩ := Swarm.joinInner_eq_ok joined
  refine ⟨fun other => ?_, fun other pid member => (filed pid other).mpr ?_,
    fun other pid clean member => ?_, fun other pid spoken silent present speaks => ?_,
    tracked.last⟩
  · rw [protocols, joinedProtocol, List.foldl_concat, eq_comm]
    show (if returned = other then _ else _) = _
    simp only [eq_comm (a := other)]
    rw [tracked.joined other]
    rfl
  · rcases (lists other pid).mp member with ⟨_, before⟩ | new
    · exact Or.inl (tracked.filed other pid before)
    · exact Or.inr new
  · simp only [protocols]
    rcases (lists other pid).mp member with ⟨different, before⟩ | ⟨same, speaks⟩
    · rw [if_neg different]
      exact tracked.sound other pid clean before
    · rw [if_pos same]
      exact ⟨protocolId, rfl, speaks⟩
  · rw [protocols] at present
    refine (lists other pid).mpr ?_
    split at present
    · rename_i same
      cases present
      exact Or.inr ⟨same, speaks⟩
    · rename_i different
      exact Or.inl ⟨different, tracked.complete other pid spoken silent present speaks⟩

theorem leave (key : SwarmKey) :
    Tracked (history ++ [.left key]) { node with swarm := node.swarm.leave key } := by
  obtain ⟨protocols, lists, filed⟩ := @Swarm.leave_spec node.swarm key
  refine ⟨fun other => ?_, fun other pid member => ?_, fun other pid clean member => ?_,
    fun other pid spoken silent present speaks => ?_, tracked.last⟩
  · rw [protocols, joinedProtocol, List.foldl_concat, eq_comm]
    show (if key = other then _ else _) = _
    simp only [eq_comm (a := other)]
    rw [tracked.joined other]
    rfl
  · have kept := (lists other pid).mp member
    exact (filed pid other).mpr ⟨kept.1, tracked.filed other pid kept.2⟩
  · have kept := (lists other pid).mp member
    simp only [protocols, if_neg kept.1]
    exact tracked.sound other pid clean kept.2
  · rw [protocols] at present
    obtain ⟨different, present⟩ := Option.ite_none_left_eq_some.mp present
    exact (lists other pid).mpr
      ⟨different, tracked.complete other pid spoken silent present speaks⟩

theorem step {action : SwarmAction} {next : SwarmNode} {events : List SwarmEvent}
    (allowed : node.refiles action = true) (taken : node.step sha256 action = some (next, events)) :
    Tracked (history ++ events) next := by
  cases action with
  | connect pid peer =>
    obtain ⟨absent, ⟨⟩⟩ := Option.ite_none_left_eq_some.mp taken
    rw [List.append_nil]
    exact tracked.queued (fun other => lifecycle_added other pid)
      (fun other different => AList.lookup_insert_ne different) (by rw [AList.lookup_insert]; rfl)
      fun _ => Option.not_isSome_iff_eq_none.mp absent
  | disconnect pid =>
    obtain ⟨_, ⟨⟩⟩ := Option.ite_none_right_eq_some.mp taken
    rw [List.append_nil]
    exact tracked.queued (fun other => lifecycle_removed other pid)
      (fun other different => AList.lookup_erase_ne different) (by rw [AList.lookup_erase]; rfl)
      Bool.noConfusion
  | handshakeFailed about =>
    cases taken
    rw [List.append_nil]
    exact tracked.queued_failure about
  | monitor =>
    simp only [SwarmNode.step] at taken
    split at taken
    · cases taken
    · rename_i event rest waiting
      cases taken
      rw [List.append_nil]
      cases event with
      | added pid =>
        show Tracked history { node with
          events := rest, swarm := node.swarm.onPeerAdded node.pool pid }
        cases found : node.pool.lookup pid with
        | none =>
          rw [Swarm.onPeerAdded_of_absent found]
          exact tracked.added_absent waiting found
        | some peer =>
          rw [Swarm.onPeerAdded_of_connected found]
          exact tracked.added_connected allowed waiting found
      | removed pid => exact tracked.removed waiting
      | handshakeFailed about => exact tracked.handshakeFailed waiting
  | join protocolId instanceName attached =>
    simp only [SwarmNode.step] at taken
    split at taken
    · rename_i swarm key joined
      cases taken
      exact tracked.join joined
    · cases taken
      rw [List.append_nil]
      exact tracked
  | leave key =>
    cases taken
    exact tracked.leave key

end

end Tracked

end SwarmNode

/-! ### Exact membership -/

/-- Whenever no peer event waits, a joined swarm lists exactly the connected peers that have
negotiated its protocol, and a key that is not joined lists nobody, if no peer that is added is
filed under a swarm whose protocol it has not negotiated. -/
theorem swarm_peers_exact {sha256 : Bytes → SwarmKey} {history : List SwarmEvent}
    {node : SwarmNode}
    (run : (swarmMachine sha256).Run (fun node action => node.refiles action = true) history node)
    (handled : node.events = []) (key : SwarmKey) :
    (∀ protocolId, joinedProtocol key history = some protocolId →
      ∀ pid, pid ∈ node.swarm.peers key ↔ node.pool.Speaks pid protocolId) ∧
    (joinedProtocol key history = none → node.swarm.peers key = ∅) := by
  have tracked : SwarmNode.Tracked history node :=
    run.invariant SwarmNode.Tracked SwarmNode.Tracked.start
      fun _ _ _ _ _ tracked allowed taken => tracked.step allowed taken
  refine ⟨fun protocolId joined pid => ⟨fun member => ?_, fun speaks => ?_⟩, fun left => ?_⟩
  · have clean : false ∉ lifecycle pid node.events := by
      rw [handled]
      exact List.not_mem_nil
    obtain ⟨negotiated, same, speaks⟩ := tracked.sound key pid clean member
    rw [tracked.joined, joined] at same
    exact Option.some.inj same ▸ speaks
  · refine tracked.complete key pid protocolId ?_ ((tracked.joined key).trans joined) speaks
    rw [handled]
    rfl
  · have absent := (tracked.joined key).trans left
    unfold Swarm.peers
    rw [Option.map_eq_none_iff.mp absent]

/-- A digest that tells the protocols of the runs below apart. -/
def firstByte (bytes : Bytes) : SwarmKey :=
  Vector.replicate 32 (bytes.headD 0)

/-- The peer of the runs below. -/
def somePeer : PeerID :=
  ⟨Vector.replicate 32 1⟩

/-- An inbound peer that has negotiated one protocol. -/
def speaking (protocolId : ProtocolID) : ConnectedPeer :=
  { isInbound := true, negotiatedProtocols := AList.singleton protocolId () }

/-- What a run did with swarms, whether events wait, and whether a swarm lists a peer and the
peer speaks a protocol. -/
def observedPeer (key : SwarmKey) (protocolId : ProtocolID)
    (reached : List SwarmEvent × SwarmNode) : List SwarmEvent × Bool × Bool × Option Bool :=
  (reached.1, reached.2.events.isEmpty, decide (somePeer ∈ reached.2.swarm.peers key),
    (reached.2.pool.lookup somePeer).map fun peer =>
      decide (protocolId ∈ peer.negotiatedProtocols))

theorem observedPeer_eq {history done : List SwarmEvent} {node : SwarmNode} {listed speaks : Bool}
    (observed : observedPeer key protocolId (history, node) = (done, true, listed, some speaks)) :
    history = done ∧ node.events = [] ∧ (somePeer ∈ node.swarm.peers key ↔ listed = true) ∧
      (node.pool.Speaks somePeer protocolId ↔ speaks = true) := by
  simp only [observedPeer, Prod.mk.injEq, List.isEmpty_iff] at observed
  obtain ⟨same, handled, rfl, connected⟩ := observed
  refine ⟨same, handled, decide_eq_true_iff.symm, ?_⟩
  obtain ⟨peer, found, rfl⟩ := Option.map_eq_some_iff.mp connected
  unfold ConnectedPeers.Speaks
  rw [found]
  simp only [Option.some.injEq, exists_eq_left', decide_eq_true_eq]

/-- A peer that connects after a join is listed once its event is handled. -/
theorem swarm_peers_exact_joined :
    ∃ history node, (swarmMachine firstByte).Run
        (fun node action => node.refiles action = true) history node ∧
      node.events = [] ∧ joinedProtocol (swarmKeyFromProtocol firstByte "chat") history =
        some "chat" ∧
      node.pool.Speaks somePeer "chat" ∧
      ∀ pid, pid ∈ node.swarm.peers (swarmKeyFromProtocol firstByte "chat") ↔
        node.pool.Speaks pid "chat" := by
  refine Machine.reach_run (fun history node =>
      observedPeer (swarmKeyFromProtocol firstByte "chat") "chat" (history, node) =
        ([.joined (swarmKeyFromProtocol firstByte "chat") "chat"], true, true, some true))
    [.join "chat" none (.ok ()), .connect somePeer (speaking "chat"), .monitor]
    (by decide +kernel) fun _ node run observed => ?_
  obtain ⟨rfl, handled, _, speaks⟩ := observedPeer_eq observed
  exact ⟨handled, rfl, speaks.mpr rfl, (swarm_peers_exact run handled _).1 _ rfl⟩

/-- The file swarm is joined again while a peer speaks the file protocol, and the peer comes back
with only the chat protocol before its events are handled. Its first addition then files it under
the chat swarm alone, and the file swarm keeps it. -/
theorem swarm_keeps_stale_peer :
    ∃ history node chat file, (swarmMachine firstByte).Run (fun _ _ => True) history node ∧
      history = [.joined chat "chat", .joined file "file", .joined file "file"] ∧ chat ≠ file ∧
      node.events = [] ∧ somePeer ∈ node.swarm.peers file ∧ ¬ node.pool.Speaks somePeer "file" := by
  have taken : ((swarmMachine firstByte).trace
      [.join "chat" none (.ok ()), .join "file" none (.ok ()),
        .connect somePeer (speaking "file"), .join "file" none (.ok ()), .disconnect somePeer,
        .connect somePeer (speaking "chat"), .monitor, .monitor, .monitor]).map
      (observedPeer (swarmKeyFromProtocol firstByte "file") "file") =
      some ([.joined (swarmKeyFromProtocol firstByte "chat") "chat",
        .joined (swarmKeyFromProtocol firstByte "file") "file",
        .joined (swarmKeyFromProtocol firstByte "file") "file"], true, true, some false) := by
    decide +kernel
  obtain ⟨history, node, run, observed⟩ := Machine.trace_observed taken
  obtain ⟨same, handled, listed, silent⟩ := observedPeer_eq observed
  exact ⟨history, node, _, _, run, same, by decide +kernel, handled,
    listed.mpr rfl, fun speaks => Bool.noConfusion (silent.mp speaks)⟩

end Karyon
