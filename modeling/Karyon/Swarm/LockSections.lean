/-
This file cuts the operations on the swarms of a node into their lock sections.

A swarm layer has two indexes, each behind a lock of its own: the list of the peers of every swarm,
and the reverse index of the swarms of every peer. Joins, leaves and the handlers of the peer events
change them in several sections, and other calls run in between. Here every section is a step. A
call that reads the lists holds their guard until its end, and a swarm is put in or taken out only
while nobody holds it. A call that runs alone does what the whole operation does (`join_alone`,
`leave_alone`, `added_alone`, `removed_alone`).

In the middle of a call the indexes differ by what the call has still to do: it has listed a peer
that it will file, or has taken an entry whose swarms it will clean up. `Agrees` says that they
differ by no more than that, and each section keeps this, when the calls beside it keep out of its
way.
-/

import Karyon.Swarm.Membership
import Mathlib.Logic.Relation

namespace Karyon

open P2p Transition

/-! ### The sections -/

namespace Swarm

variable (swarm : Swarm)

def remove (key : SwarmKey) : Swarm :=
  { swarm with swarms := swarm.swarms.erase key }

def unfile (key : SwarmKey) : Swarm :=
  { swarm with peerSwarms := HashMap.mapValues (fun keys => keys.erase key) swarm.peerSwarms }

def refile (pid : PeerID) (keys : HashSet SwarmKey) : Swarm :=
  { swarm with peerSwarms := swarm.peerSwarms.insert pid keys }

/-- Take the entry of the peer out of the reverse index. -/
def take (pid : PeerID) : Swarm :=
  { swarm with peerSwarms := swarm.peerSwarms.erase pid }

end Swarm

/-- Where a join is: before its protocol is attached, before it registers the swarm, before it
reads the inbound and then the outbound peers, before it takes the guard, or at a peer of its
scan, which it puts into the list and then files. -/
inductive JoinPhase where
  | attaching
  | registering
  | registered
  | inbound (pids : List PeerID)
  | collected (pids : List PeerID)
  | scanning (pids : List PeerID)
  | listing (pid : PeerID) (pids : List PeerID)
  | filing (pid : PeerID) (pids : List PeerID)
  | returned

inductive LeavePhase where
  | removing
  | unfiling
  | returned

/-- Where the handler of an addition is: before it asks for the protocols of the peer, before it
takes the guard, at one of the swarms, or before it files those it has joined. -/
inductive AddedPhase where
  | asking
  | asked (protos : HashSet ProtocolID)
  | listing (protos : HashSet ProtocolID) (keys : List SwarmKey) (joined : HashSet SwarmKey)
  | filing (joined : HashSet SwarmKey)
  | returned

/-- Where the handler of a removal is: before it takes the entry of the peer, before it takes the
guard, or at one of the swarms of the entry. -/
inductive RemovedPhase where
  | taking
  | taken (keys : HashSet SwarmKey)
  | dropping (keys : List SwarmKey)
  | returned

inductive SwarmCall where
  | join (protocolId : ProtocolID) (key : SwarmKey) (phase : JoinPhase)
  | leave (key : SwarmKey) (phase : LeavePhase)
  | added (pid : PeerID) (phase : AddedPhase)
  | removed (pid : PeerID) (phase : RemovedPhase)

section Sections

variable (pool : ConnectedPeers) (swarm : Swarm) (guarded : Bool)

/-- The next section of `join_inner`, once the protocol is attached. -/
def JoinPhase.next (protocolId : ProtocolID) (key : SwarmKey) :
    JoinPhase → Option (Swarm × JoinPhase)
  | .attaching => some (swarm, .registering)
  | .registering => if guarded then none else some (swarm.register protocolId key, .registered)
  | .registered => some (swarm, .inbound pool.inboundPeers)
  | .inbound pids => some (swarm, .collected (pids ++ pool.outboundPeers))
  | .collected pids =>
    match swarm.swarms.lookup key with
    | some _ => some (swarm, .scanning pids)
    | none => some (swarm, .returned)
  | .scanning [] => some (swarm, .returned)
  | .scanning (pid :: pids) =>
    match pool.peerProtocolSet pid with
    | some protos =>
      if protocolId ∈ protos then some (swarm, .listing pid pids) else some (swarm, .scanning pids)
    | none => some (swarm, .scanning pids)
  | .listing pid pids => some (swarm.list key pid, .filing pid pids)
  | .filing pid pids => some (swarm.file pid key, .scanning pids)
  | .returned => none

def LeavePhase.next (key : SwarmKey) : LeavePhase → Option (Swarm × LeavePhase)
  | .removing => if guarded then none else some (swarm.remove key, .unfiling)
  | .unfiling => some (swarm.unfile key, .returned)
  | .returned => none

/-- The next section of `on_peer_added`. -/
def AddedPhase.next (pid : PeerID) : AddedPhase → Option (Swarm × AddedPhase)
  | .asking =>
    match pool.peerProtocolSet pid with
    | some protos => some (swarm, .asked protos)
    | none => some (swarm, .returned)
  | .asked protos => some (swarm, .listing protos swarm.swarms.keys ∅)
  | .listing protos (key :: keys) joined =>
    match swarm.swarms.lookup key with
    | some info =>
      if info.protocolId ∈ protos then
        some (swarm.list key pid, .listing protos keys (joined.insert key ()))
      else some (swarm, .listing protos keys joined)
    | none => some (swarm, .listing protos keys joined)
  | .listing _ [] joined =>
    if joined.keys.isEmpty then some (swarm, .returned) else some (swarm, .filing joined)
  | .filing joined => some (swarm.refile pid joined, .returned)
  | .returned => none

/-- The next section of `on_peer_removed`. -/
def RemovedPhase.next (pid : PeerID) : RemovedPhase → Option (Swarm × RemovedPhase)
  | .taking =>
    match swarm.peerSwarms.lookup pid with
    | some keys => some (swarm.take pid, .taken keys)
    | none => some (swarm.take pid, .returned)
  | .taken keys => some (swarm, .dropping keys.keys)
  | .dropping (key :: keys) => some (swarm.dropPeer pid key, .dropping keys)
  | .dropping [] => some (swarm, .returned)
  | .returned => none

def SwarmCall.next : SwarmCall → Option (Swarm × SwarmCall)
  | .join protocolId key phase =>
    (phase.next pool swarm guarded protocolId key).map fun after =>
      (after.1, .join protocolId key after.2)
  | .leave key phase =>
    (phase.next swarm guarded key).map fun after => (after.1, .leave key after.2)
  | .added pid phase => (phase.next pool swarm pid).map fun after => (after.1, .added pid after.2)
  | .removed pid phase => (phase.next swarm pid).map fun after => (after.1, .removed pid after.2)

end Sections

namespace SwarmCall

/-- The call holds the guard of the lists. -/
def reads : SwarmCall → Bool
  | .join _ _ (.scanning _) | .join _ _ (.listing _ _) | .join _ _ (.filing _ _) => true
  | .added _ (.listing _ _ _) | .added _ (.filing _) => true
  | .removed _ (.dropping _) => true
  | _ => false

def returned : SwarmCall → Bool
  | .join _ _ .returned | .leave _ .returned | .added _ .returned | .removed _ .returned => true
  | _ => false

end SwarmCall

/-! ### A call that runs alone -/

/-- The sections of a call, one after the other, with nobody beside it. -/
def Alone (pool : ConnectedPeers) : Swarm × SwarmCall → Swarm × SwarmCall → Prop :=
  Relation.ReflTransGen fun before after => before.2.next pool before.1 false = some after

section Alone

variable {pool : ConnectedPeers} {swarm : Swarm} {protocolId : ProtocolID} {key : SwarmKey}
  {pid : PeerID}

theorem leave_alone :
    Alone pool (swarm, .leave key .removing) (swarm.leave key, .leave key .returned) :=
  .head rfl (.single rfl)

theorem scan_alone (pids : List PeerID) :
    Alone pool (swarm, .join protocolId key (.scanning pids))
      (pids.foldl (Swarm.scanPeer pool key protocolId) swarm, .join protocolId key .returned) := by
  induction pids generalizing swarm with
  | nil => exact .single rfl
  | cons pid pids inductionHypothesis =>
    rw [List.foldl_cons]
    by_cases speaks : pool.Speaks pid protocolId
    · obtain ⟨peer, found, negotiated⟩ := speaks
      have finds : (SwarmCall.join protocolId key (.scanning (pid :: pids))).next pool swarm false =
          some (swarm, .join protocolId key (.listing pid pids)) := by
        simp only [SwarmCall.next, JoinPhase.next, ConnectedPeers.peerProtocolSet, found,
          Option.map_some, if_pos negotiated]
      rw [Swarm.scanPeer_of_speaks ⟨peer, found, negotiated⟩]
      exact .head finds (.head rfl (.head rfl inductionHypothesis))
    · have skips : (SwarmCall.join protocolId key (.scanning (pid :: pids))).next pool swarm false =
          some (swarm, .join protocolId key (.scanning pids)) := by
        simp only [SwarmCall.next, JoinPhase.next, ConnectedPeers.peerProtocolSet]
        cases found : pool.lookup pid with
        | none => rfl
        | some peer =>
          simp only [Option.map_some, if_neg fun negotiated => speaks ⟨peer, found, negotiated⟩]
      rw [Swarm.scanPeer_of_not_speaks speaks]
      exact .head skips inductionHypothesis

theorem join_alone :
    Alone pool (swarm, .join protocolId key .attaching)
      ((swarm.register protocolId key).scanPeersForSwarm pool key protocolId,
        .join protocolId key .returned) := by
  have registered : (swarm.register protocolId key).swarms.lookup key = some ⟨protocolId, ∅⟩ :=
    AList.lookup_insert _
  have guards (pids : List PeerID) : (SwarmCall.join protocolId key (.collected pids)).next pool
      (swarm.register protocolId key) false =
      some (swarm.register protocolId key, .join protocolId key (.scanning pids)) := by
    simp only [SwarmCall.next, JoinPhase.next, registered, Option.map_some]
  unfold Swarm.scanPeersForSwarm
  rw [registered]
  exact .head rfl (.head rfl (.head rfl (.head rfl (.head (guards _) (scan_alone _)))))

theorem drop_alone (keys : List SwarmKey) :
    Alone pool (swarm, .removed pid (.dropping keys))
      (keys.foldl (Swarm.dropPeer pid) swarm, .removed pid .returned) := by
  induction keys generalizing swarm with
  | nil => exact .single rfl
  | cons key keys inductionHypothesis => exact .head rfl inductionHypothesis

theorem removed_alone :
    Alone pool (swarm, .removed pid .taking) (swarm.onPeerRemoved pid, .removed pid .returned) := by
  unfold Swarm.onPeerRemoved
  split
  · rename_i keys found
    have takes : (SwarmCall.removed pid .taking).next pool swarm false =
        some (swarm.take pid, .removed pid (.taken keys)) := by
      simp only [SwarmCall.next, RemovedPhase.next, found, Option.map_some]
    exact .head takes (.head rfl (drop_alone keys.keys))
  · rename_i absent
    refine .single ?_
    simp only [SwarmCall.next, RemovedPhase.next, absent, Option.map_some]
    rfl

/-- The rounds of an addition put the peer into the lists of those of the swarms whose protocol it
negotiated. -/
theorem listing_alone (protos : HashSet ProtocolID) (keys : List SwarmKey)
    (joined : HashSet SwarmKey) :
    ∃ (next : Swarm) (found : HashSet SwarmKey),
      Alone pool (swarm, .added pid (.listing protos keys joined))
        (next, .added pid (.listing protos [] found)) ∧
      next.peerSwarms = swarm.peerSwarms ∧
      (∀ key, next.protocol key = swarm.protocol key) ∧
      (∀ key, key ∈ found ↔ key ∈ joined ∨ key ∈ keys ∧ key ∈ swarm.joinedKeys protos) ∧
      ∀ key member, member ∈ next.peers key ↔
        member ∈ swarm.peers key ∨ member = pid ∧ key ∈ keys ∧ key ∈ swarm.joinedKeys protos := by
  induction keys generalizing swarm joined with
  | nil =>
    exact ⟨swarm, joined, .refl, rfl, fun _ => rfl, fun _ => by simp, fun _ _ => by simp⟩
  | cons own keys inductionHypothesis =>
    by_cases speaks : own ∈ swarm.joinedKeys protos
    · obtain ⟨protocolId, joins, negotiated⟩ := Swarm.mem_joinedKeys.mp speaks
      obtain ⟨info, there, rfl⟩ := Option.map_eq_some_iff.mp joins
      have lists : (SwarmCall.added pid (.listing protos (own :: keys) joined)).next pool swarm
          false = some (swarm.list own pid,
            .added pid (.listing protos keys (joined.insert own ()))) := by
        simp only [SwarmCall.next, AddedPhase.next, there, if_pos negotiated, Option.map_some]
      obtain ⟨next, found, alone, index, protocols, finds, members⟩ :=
        @inductionHypothesis (swarm.list own pid) (joined.insert own ())
      have same (key : SwarmKey) : key ∈ (swarm.list own pid).joinedKeys protos ↔
          key ∈ swarm.joinedKeys protos := by
        rw [Swarm.mem_joinedKeys, Swarm.mem_joinedKeys, Swarm.protocol_list]
      refine ⟨next, found, .head lists alone, index,
        fun key => (protocols key).trans (Swarm.protocol_list key), fun key => ?_,
        fun key member => ?_⟩
      · rw [finds, same, AList.mem_insert, List.mem_cons]
        by_cases is : key = own
        · simp only [is, speaks, true_or, or_true, and_true]
        · simp only [is, false_or]
      · rw [members, same, Swarm.mem_peers_list, List.mem_cons]
        by_cases is : key = own
        · simp only [is, speaks, joins, Option.isSome_some, true_and, true_or, and_true]
          exact ⟨fun either => either.elim id fun again => Or.inr again.1, Or.inl⟩
        · simp only [is, false_and, or_false, false_or]
    · have skips : (SwarmCall.added pid (.listing protos (own :: keys) joined)).next pool swarm
          false = some (swarm, .added pid (.listing protos keys joined)) := by
        simp only [SwarmCall.next, AddedPhase.next]
        cases there : swarm.swarms.lookup own with
        | none => rfl
        | some info =>
          have silent : info.protocolId ∉ protos := fun negotiated =>
            speaks (Swarm.mem_joinedKeys.mpr ⟨_, by rw [Swarm.protocol, there]; rfl, negotiated⟩)
          simp only [if_neg silent, Option.map_some]
      obtain ⟨next, found, alone, index, protocols, finds, members⟩ :=
        @inductionHypothesis swarm joined
      refine ⟨next, found, .head skips alone, index, protocols, fun key => ?_,
        fun key member => ?_⟩
      · rw [finds, List.mem_cons]
        by_cases is : key = own
        · simp only [is, speaks, and_false]
        · simp only [is, false_or]
      · rw [members, List.mem_cons]
        by_cases is : key = own
        · simp only [is, speaks, and_false]
        · simp only [is, false_or]

/-- The handler of an addition that runs alone. The order of its map is another one. -/
theorem added_alone :
    ∃ next, Alone pool (swarm, .added pid .asking) (next, .added pid .returned) ∧
      (∀ key, next.protocol key = (swarm.onPeerAdded pool pid).protocol key) ∧
      (∀ key member, member ∈ next.peers key ↔
        member ∈ (swarm.onPeerAdded pool pid).peers key) ∧
      ∀ member key, next.Filed member key ↔ (swarm.onPeerAdded pool pid).Filed member key := by
  cases found : pool.lookup pid with
  | none =>
    rw [Swarm.onPeerAdded_of_absent found]
    refine ⟨swarm, .single ?_, fun _ => rfl, fun _ _ => Iff.rfl, fun _ _ => Iff.rfl⟩
    simp only [SwarmCall.next, AddedPhase.next, ConnectedPeers.peerProtocolSet, found,
      Option.map_none, Option.map_some]
  | some peer =>
    rw [Swarm.onPeerAdded_of_connected found]
    obtain ⟨protocolsAfter, membersAfter, filedAfter⟩ :=
      @Swarm.insertPeer_spec swarm pid peer.negotiatedProtocols
    have asks : (SwarmCall.added pid .asking).next pool swarm false =
        some (swarm, .added pid (.asked peer.negotiatedProtocols)) := by
      simp only [SwarmCall.next, AddedPhase.next, ConnectedPeers.peerProtocolSet, found,
        Option.map_some]
    obtain ⟨next, joined, alone, index, protocols, finds, members⟩ :=
      @listing_alone pool swarm pid peer.negotiatedProtocols swarm.swarms.keys ∅
    have whole (key : SwarmKey) :
        key ∈ swarm.swarms.keys ∧ key ∈ swarm.joinedKeys peer.negotiatedProtocols ↔
          key ∈ swarm.joinedKeys peer.negotiatedProtocols := by
      refine and_iff_right_of_imp fun named => ?_
      obtain ⟨_, joins, _⟩ := Swarm.mem_joinedKeys.mp named
      obtain ⟨info, there, _⟩ := Option.map_eq_some_iff.mp joins
      exact AList.mem_keys.mp (AList.lookup_isSome.mp (by rw [there]; rfl))
    have named (key : SwarmKey) :
        key ∈ joined ↔ key ∈ swarm.joinedKeys peer.negotiatedProtocols := by
      rw [finds, whole]
      exact or_iff_right (AList.notMem_empty key)
    have empty : joined.keys = [] ↔
        (swarm.joinedKeys peer.negotiatedProtocols).keys = [] := by
      rw [List.eq_nil_iff_forall_not_mem, List.eq_nil_iff_forall_not_mem]
      exact forall_congr' fun key => not_congr (AList.mem_keys.symm.trans
        ((named key).trans AList.mem_keys))
    have filed (member : PeerID) (key : SwarmKey) : next.Filed member key ↔
        swarm.Filed member key := by
      unfold Swarm.Filed
      rw [index]
    have listed (key : SwarmKey) (member : PeerID) : member ∈ next.peers key ↔
        member ∈ (swarm.insertPeer pid peer.negotiatedProtocols).peers key := by
      rw [members, membersAfter, whole]
    have start : Alone pool (swarm, .added pid .asking)
        (next, .added pid (.listing peer.negotiatedProtocols [] joined)) :=
      .head asks (.head rfl alone)
    by_cases none : joined.keys = []
    · refine ⟨next, start.tail ?_, fun key => (protocols key).trans (protocolsAfter key).symm,
        listed, fun member key => ?_⟩
      · simp only [SwarmCall.next, AddedPhase.next, none, List.isEmpty_nil, if_true,
          Option.map_some]
      · rw [filed, filedAfter, if_neg fun both => both.2 (empty.mp none)]
    · have files : (SwarmCall.added pid (.listing peer.negotiatedProtocols [] joined)).next pool
          next false = some (next, .added pid (.filing joined)) := by
        simp only [SwarmCall.next, AddedPhase.next, List.isEmpty_iff, if_neg none, Option.map_some]
      refine ⟨next.refile pid joined, (start.tail files).tail rfl,
        fun key => (protocols key).trans (protocolsAfter key).symm, listed, fun member key => ?_⟩
      rw [filedAfter]
      unfold Swarm.refile
      rw [Swarm.filed_insert, named, filed]
      by_cases same : member = pid
      · rw [if_pos ⟨same, fun nothing => none (empty.mpr nothing)⟩]
        simp only [same, true_and, ne_eq, not_true, false_and, or_false]
      · rw [if_neg fun both => same both.1]
        simp only [same, false_and, ne_eq, not_false_iff, true_and, false_or]

end Alone

/-- The swarms, the peers of the node, and the calls that were made. -/
structure SwarmTasks where
  swarm : Swarm
  pool : ConnectedPeers
  calls : List SwarmCall

/-- What can happen next: the pool changes, a call is made, the protocol of a join cannot be
attached, or a call takes its next section. -/
inductive TaskAction where
  | pool (pool : ConnectedPeers)
  | join (protocolId : ProtocolID) (key : SwarmKey)
  | leave (key : SwarmKey)
  | added (pid : PeerID)
  | removed (pid : PeerID)
  | refused (index : Nat)
  | advance (index : Nat)

namespace SwarmTasks

def new : SwarmTasks where
  swarm := .new
  pool := ∅
  calls := []

def step (state : SwarmTasks) : TaskAction → Option (SwarmTasks × List Empty)
  | .pool pool => some ({ state with pool }, [])
  | .join protocolId key =>
    some ({ state with calls := state.calls ++ [.join protocolId key .attaching] }, [])
  | .leave key => some ({ state with calls := state.calls ++ [.leave key .removing] }, [])
  | .added pid => some ({ state with calls := state.calls ++ [.added pid .asking] }, [])
  | .removed pid => some ({ state with calls := state.calls ++ [.removed pid .taking] }, [])
  | .refused index =>
    match state.calls[index]? with
    | some (.join protocolId key .attaching) =>
      some ({ state with calls := state.calls.set index (.join protocolId key .returned) }, [])
    | _ => none
  | .advance index =>
    match state.calls[index]? with
    | some call =>
      match call.next state.pool state.swarm (state.calls.any SwarmCall.reads) with
      | some (swarm, after) => some ({ state with swarm, calls := state.calls.set index after }, [])
      | none => none
    | none => none

end SwarmTasks

/-- The swarms of a node, with calls that overlap in any way. -/
def swarmTaskMachine : Machine SwarmTasks TaskAction Empty where
  start := .new
  step := SwarmTasks.step

/-! ### Calls that are in flight -/

namespace SwarmCall

variable (key : SwarmKey)

/-- The call is a join of the swarm that has not returned. -/
def joins : SwarmCall → Bool
  | .join _ _ .returned => false
  | .join _ own _ => own = key
  | _ => false

def joining : SwarmCall → Bool
  | .join _ _ .returned => false
  | .join _ _ _ => true
  | _ => false

def leaves : SwarmCall → Bool
  | .leave _ .returned => false
  | .leave own _ => own = key
  | _ => false

def removes : SwarmCall → Bool
  | .removed _ .returned => false
  | .removed _ _ => true
  | _ => false

def handles : SwarmCall → Bool
  | .added _ .returned | .removed _ .returned => false
  | .added _ _ | .removed _ _ => true
  | _ => false

/-- The call needs that the swarm is not joined. -/
def Awaits : SwarmCall → Prop
  | .join _ own .attaching | .join _ own .registering | .leave own .unfiling => own = key
  | _ => False

/-- The call needs that the swarm is joined. -/
def Pins : SwarmCall → Prop
  | .join _ own (.scanning _) | .join _ own (.listing _ _) | .join _ own (.filing _ _) => own = key
  | _ => False

/-- The call has put the peer into the list, and has not filed it yet. -/
def Lists (pid : PeerID) : SwarmCall → Prop
  | .join _ own (.filing peer _) => own = key ∧ peer = pid
  | .added peer (.listing _ _ joined) | .added peer (.filing joined) => peer = pid ∧ key ∈ joined
  | _ => False

/-- The call has taken the entry of the peer. -/
def Empties (pid : PeerID) : SwarmCall → Prop
  | .removed peer (.taken _) | .removed peer (.dropping _) => peer = pid
  | _ => False

/-- The call will take the peer off the list. -/
def Drops (pid : PeerID) : SwarmCall → Prop
  | .removed peer (.taken keys) => peer = pid ∧ key ∈ keys
  | .removed peer (.dropping keys) => peer = pid ∧ key ∈ keys
  | _ => False

/-- The call will take the swarm out of the reverse index. -/
def Unfiles : SwarmCall → Prop
  | .leave own .unfiling => own = key
  | _ => False

variable {key : SwarmKey} {pid : PeerID} {call : SwarmCall}

theorem Awaits.inFlight (awaits : call.Awaits key) :
    call.joins key = true ∨ call.leaves key = true := by
  unfold Awaits at awaits
  split at awaits
  · exact Or.inl (decide_eq_true awaits)
  · exact Or.inl (decide_eq_true awaits)
  · exact Or.inr (decide_eq_true awaits)
  · exact awaits.elim

theorem Unfiles.leaves (unfiles : call.Unfiles key) : call.leaves key = true := by
  unfold Unfiles at unfiles
  split at unfiles
  · exact decide_eq_true unfiles
  · exact unfiles.elim

theorem Pins.reads (pins : call.Pins key) : call.reads = true := by
  unfold Pins at pins
  split at pins
  · rfl
  · rfl
  · rfl
  · exact pins.elim

theorem Lists.reads (lists : call.Lists key pid) : call.reads = true := by
  unfold Lists at lists
  split at lists
  · rfl
  · rfl
  · rfl
  · exact lists.elim

theorem Lists.inFlight (lists : call.Lists key pid) :
    call.joining = true ∨ call.handles = true := by
  unfold Lists at lists
  split at lists
  · exact Or.inl rfl
  · exact Or.inr rfl
  · exact Or.inr rfl
  · exact lists.elim

theorem Empties.removes (empties : call.Empties pid) : call.removes = true := by
  unfold Empties at empties
  split at empties
  · rfl
  · rfl
  · exact empties.elim

theorem removes_handles (removes : call.removes = true) : call.handles = true := by
  unfold SwarmCall.removes at removes
  split at removes
  · cases removes
  · rename_i phase early
    cases phase with
    | returned => exact (early rfl).elim
    | _ => rfl
  · cases removes

/-- The call in flight is of the kind of the other. -/
structure Calmer (after call : SwarmCall) : Prop where
  joins : ∀ key, after.joins key = true → call.joins key = true
  joining : after.joining = true → call.joining = true
  leaves : ∀ key, after.leaves key = true → call.leaves key = true
  removes : after.removes = true → call.removes = true
  handles : after.handles = true → call.handles = true

/-- A call in flight that keeps another one out: a join the joins and leaves of its swarm, a
removal the joins, and the handler of an event all other handlers. -/
structure Apart (call other : SwarmCall) : Prop where
  joins : ∀ key, call.joins key = true → other.joins key = false ∧ other.leaves key = false
  removes : call.removes = true → other.joining = false
  handles : call.handles = true → other.handles = false

end SwarmCall

/-! ### What the calls owe -/

/-- What the calls in flight need. -/
structure Met (swarm : Swarm) (claimed : (SwarmCall → Prop) → Prop) : Prop where
  awaits : ∀ key, claimed (SwarmCall.Awaits key) → (swarm.protocol key).isSome = false
  pins : ∀ key, claimed (SwarmCall.Pins key) → (swarm.protocol key).isSome = true
  lists : ∀ key pid, claimed (SwarmCall.Lists key pid) → pid ∈ swarm.peers key
  empties : ∀ key pid, claimed (SwarmCall.Empties pid) → ¬swarm.Filed pid key

/-- The indexes agree up to what the calls in flight will still do. -/
structure Agrees (swarm : Swarm) (claimed : (SwarmCall → Prop) → Prop) : Prop extends
    Met swarm claimed where
  listed : ∀ key pid, (swarm.protocol key).isSome = true → swarm.Filed pid key →
    pid ∈ swarm.peers key
  owed : ∀ key pid, pid ∈ swarm.peers key →
    swarm.Filed pid key ∨ claimed fun call => call.Lists key pid ∨ call.Drops key pid
  stale : ∀ key pid, swarm.Filed pid key →
    (swarm.protocol key).isSome = true ∨ claimed (SwarmCall.Unfiles key)

/-- What one call claims, and those beside it. -/
def Around (calls : List SwarmCall) (index : Nat) (call : SwarmCall) (claim : SwarmCall → Prop) :
    Prop :=
  claim call ∨ Indexed.Beside calls index claim

/-- The calls beside this one. -/
structure Clear (calls : List SwarmCall) (index : Nat) (call : SwarmCall) : Prop where
  ahead : ∀ place other, place ≠ index → calls[place]? = some other → call.Apart other
  behind : ∀ place other, place ≠ index → calls[place]? = some other → other.Apart call

section Beside

variable {calls : List SwarmCall} {index : Nat} {call after : SwarmCall} {key : SwarmKey}
  {pid : PeerID} {swarm : Swarm}

open Indexed (Beside)

namespace Clear

section

variable (clear : Clear calls index call)

include clear

theorem of_joins (joins : call.joins key = true) :
    ¬Beside calls index fun other => other.joins key = true ∨ other.leaves key = true := by
  rintro ⟨place, other, different, found, inFlight⟩
  obtain ⟨joined, left⟩ := (clear.ahead place other different found).joins key joins
  rcases inFlight with does | does
  · cases joined.symm.trans does
  · cases left.symm.trans does

theorem of_joining (joining : call.joining = true) :
    ¬Beside calls index (SwarmCall.Empties pid) := by
  rintro ⟨place, other, different, found, empties⟩
  have free := (clear.behind place other different found).removes empties.removes
  cases free.symm.trans joining

theorem of_removes (removes : call.removes = true) :
    ¬Beside calls index (SwarmCall.Lists key pid) := by
  rintro ⟨place, other, different, found, lists⟩
  have apart := clear.ahead place other different found
  rcases lists.inFlight with joining | handles
  · cases (apart.removes removes).symm.trans joining
  · cases (apart.handles (SwarmCall.removes_handles removes)).symm.trans handles

theorem of_handles (handles : call.handles = true) :
    ¬Beside calls index (SwarmCall.Empties pid) := by
  rintro ⟨place, other, different, found, empties⟩
  have free := (clear.ahead place other different found).handles handles
  cases free.symm.trans (SwarmCall.removes_handles empties.removes)

end

end Clear

theorem mem_peers_joined (member : pid ∈ swarm.peers key) :
    (swarm.protocol key).isSome = true := by
  obtain ⟨info, found, _⟩ := Swarm.mem_peers.mp member
  rw [Swarm.protocol, found]
  rfl

/-- A call goes on, and its needs are met. -/
theorem Met.replace (met : Met swarm (Around calls index call))
    (own : Met swarm fun claim => claim after) : Met swarm (Around calls index after) where
  awaits key claims := claims.elim (own.awaits key) fun beside => met.awaits key (Or.inr beside)
  pins key claims := claims.elim (own.pins key) fun beside => met.pins key (Or.inr beside)
  lists key pid claims :=
    claims.elim (own.lists key pid) fun beside => met.lists key pid (Or.inr beside)
  empties key pid claims :=
    claims.elim (own.empties key pid) fun beside => met.empties key pid (Or.inr beside)

theorem Met.release (met : Met swarm (Around calls index call)) (awaits : ∀ key, ¬after.Awaits key)
    (pins : ∀ key, ¬after.Pins key) (lists : ∀ key pid, ¬after.Lists key pid)
    (empties : ∀ pid, ¬after.Empties pid) : Met swarm (Around calls index after) :=
  met.replace
    { awaits := fun key claims => absurd claims (awaits key)
      pins := fun key claims => absurd claims (pins key)
      lists := fun key pid claims => absurd claims (lists key pid)
      empties := fun _ pid claims => absurd claims (empties pid) }

/-- What a call may do without a change of the indexes. -/
structure Quiet (swarm : Swarm) (call after : SwarmCall) : Prop where
  awaits : ∀ key, after.Awaits key → call.Awaits key
  pins : ∀ key, after.Pins key → (swarm.protocol key).isSome = true
  lists : ∀ key pid, after.Lists key pid → call.Lists key pid
  empties : ∀ pid, after.Empties pid → call.Empties pid
  owed : ∀ key pid, call.Lists key pid ∨ call.Drops key pid →
    after.Lists key pid ∨ after.Drops key pid
  unfiles : ∀ key, call.Unfiles key → after.Unfiles key

namespace Agrees

theorem quiet (agrees : Agrees swarm (Around calls index call)) (quiet : Quiet swarm call after) :
    Agrees swarm (Around calls index after) where
  awaits key claims := agrees.awaits key (claims.imp_left (quiet.awaits key))
  pins key claims := claims.elim (quiet.pins key) fun beside => agrees.pins key (Or.inr beside)
  lists key pid claims := agrees.lists key pid (claims.imp_left (quiet.lists key pid))
  empties key pid claims := agrees.empties key pid (claims.imp_left (quiet.empties pid))
  listed := agrees.listed
  owed key pid member :=
    (agrees.owed key pid member).imp_right (Or.imp_left (quiet.owed key pid))
  stale key pid filed := (agrees.stale key pid filed).imp_right (Or.imp_left (quiet.unfiles key))

variable {own : SwarmKey} {peer : PeerID}

/-- A swarm is registered that was not joined. -/
theorem register {protocolId : ProtocolID}
    (agrees : Agrees swarm (Around calls index (.join protocolId own .registering)))
    (clear : Clear calls index (.join protocolId own .registering)) :
    Agrees (swarm.register protocolId own)
      (Around calls index (.join protocolId own .registered)) := by
  have alone := clear.of_joins (show (SwarmCall.join protocolId own .registering).joins own = true
    from decide_eq_true rfl)
  have absent : (swarm.protocol own).isSome = false := agrees.awaits own (Or.inl rfl)
  have grows {key : SwarmKey} (joined : (swarm.protocol key).isSome = true) :
      ((swarm.register protocolId own).protocol key).isSome = true := by
    rw [Swarm.protocol_register]
    split
    · rfl
    · exact joined
  constructor
  case toMet =>
    refine ⟨?_, ?_, ?_, ?_⟩
    · rintro key (⟨⟨⟩⟩ | beside)
      rw [Swarm.protocol_register, if_neg]
      · exact agrees.awaits key (Or.inr beside)
      · rintro rfl
        exact alone (beside.imp fun _ awaits => awaits.inFlight)
    · rintro key (⟨⟨⟩⟩ | beside)
      exact grows (agrees.pins key (Or.inr beside))
    · rintro key pid (⟨⟨⟩⟩ | beside)
      have member := agrees.lists key pid (Or.inr beside)
      refine Swarm.mem_peers_register.mpr ⟨?_, member⟩
      rintro rfl
      cases absent.symm.trans (mem_peers_joined member)
    · rintro key pid (⟨⟨⟩⟩ | beside)
      exact agrees.empties key pid (Or.inr beside)
  case listed =>
    intro key pid joined filed
    refine Swarm.mem_peers_register.mpr ?_
    by_cases same : key = own
    · rw [same] at filed
      exfalso
      rcases agrees.stale own pid filed with joined | ⟨⟨⟩⟩ | beside
      · cases absent.symm.trans joined
      · exact alone (beside.imp fun _ unfiles => Or.inr unfiles.leaves)
    · rw [Swarm.protocol_register, if_neg same] at joined
      exact ⟨same, agrees.listed key pid joined filed⟩
  case owed =>
    intro key pid member
    exact (agrees.owed key pid (Swarm.mem_peers_register.mp member).2).imp_right
      (Or.imp_left fun owes => owes.elim False.elim False.elim)
  case stale =>
    intro key pid filed
    exact (agrees.stale key pid filed).imp grows (Or.imp_left False.elim)

/-- A swarm is taken out while nobody holds the guard. -/
theorem remove (agrees : Agrees swarm (Around calls index (.leave own .removing)))
    (unguarded : ¬Beside calls index fun other => other.reads = true) :
    Agrees (swarm.remove own) (Around calls index (.leave own .unfiling)) := by
  have protocols (key : SwarmKey) : (swarm.remove own).protocol key =
      if key = own then none else swarm.protocol key := (Swarm.leave_spec own).1 key
  have members (key : SwarmKey) (pid : PeerID) : pid ∈ (swarm.remove own).peers key ↔
      key ≠ own ∧ pid ∈ swarm.peers key := (Swarm.leave_spec own).2.1 key pid
  constructor
  case toMet =>
    refine ⟨fun key claims => ?_, ?_, ?_, ?_⟩
    · rw [protocols]
      split
      · rfl
      · rename_i different
        rcases claims with same | beside
        · exact absurd (Eq.symm same) different
        · exact agrees.awaits key (Or.inr beside)
    · rintro key (⟨⟨⟩⟩ | beside)
      exact absurd (beside.imp fun _ pins => pins.reads) unguarded
    · rintro key pid (⟨⟨⟩⟩ | beside)
      exact absurd (beside.imp fun _ lists => lists.reads) unguarded
    · rintro key pid (⟨⟨⟩⟩ | beside)
      exact agrees.empties key pid (Or.inr beside)
  case listed =>
    intro key pid joined filed
    by_cases same : key = own
    · rw [protocols, if_pos same] at joined
      cases joined
    · rw [protocols, if_neg same] at joined
      exact (members key pid).mpr ⟨same, agrees.listed key pid joined filed⟩
  case owed =>
    intro key pid member
    exact (agrees.owed key pid ((members key pid).mp member).2).imp_right
      (Or.imp_left fun owes => owes.elim False.elim False.elim)
  case stale =>
    intro key pid filed
    by_cases same : key = own
    · exact Or.inr (Or.inl same.symm)
    · rw [protocols, if_neg same]
      exact (agrees.stale key pid filed).imp_right (Or.imp_left False.elim)

/-- A swarm that is not joined is taken out of the reverse index. -/
theorem unfile (agrees : Agrees swarm (Around calls index (.leave own .unfiling))) :
    Agrees (swarm.unfile own) (Around calls index (.leave own .returned)) := by
  have absent : (swarm.protocol own).isSome = false := agrees.awaits own (Or.inl rfl)
  have filing (pid : PeerID) (key : SwarmKey) : (swarm.unfile own).Filed pid key ↔
      key ≠ own ∧ swarm.Filed pid key := (Swarm.leave_spec own).2.2 pid key
  constructor
  case toMet =>
    have met : Met swarm (Around calls index (.leave own .returned)) :=
      agrees.release (fun _ => id) (fun _ => id) (fun _ _ => id) fun _ => id
    exact { met with
      empties := fun key pid claims filed =>
        met.empties key pid claims ((filing pid key).mp filed).2 }
  case listed =>
    exact fun key pid joined filed => agrees.listed key pid joined ((filing pid key).mp filed).2
  case owed =>
    intro key pid member
    refine (agrees.owed key pid member).imp (fun filed => (filing pid key).mpr ⟨?_, filed⟩)
      (Or.imp_left fun owes => owes.elim False.elim False.elim)
    rintro rfl
    cases absent.symm.trans (mem_peers_joined member)
  case stale =>
    intro key pid filed
    obtain ⟨different, before⟩ := (filing pid key).mp filed
    exact (agrees.stale key pid before).imp_right
      (Or.imp_left fun same => different (Eq.symm same))

/-- A peer is put into the list of a joined swarm by a call that will file it. -/
theorem list (agrees : Agrees swarm (Around calls index call))
    (joined : (swarm.protocol own).isSome = true) (awaits : ∀ key, ¬after.Awaits key)
    (pins : ∀ key, after.Pins key → (swarm.protocol key).isSome = true)
    (lists : ∀ key pid, after.Lists key pid ↔ call.Lists key pid ∨ key = own ∧ pid = peer)
    (empties : ∀ pid, ¬after.Empties pid) (drops : ∀ key pid, ¬call.Drops key pid)
    (unfiles : ∀ key, ¬call.Unfiles key) :
    Agrees (swarm.list own peer) (Around calls index after) := by
  have members (key : SwarmKey) (pid : PeerID) : pid ∈ (swarm.list own peer).peers key ↔
      pid ∈ swarm.peers key ∨ key = own ∧ pid = peer := by
    rw [Swarm.mem_peers_list, and_iff_right joined]
  have protocols (key : SwarmKey) : (swarm.list own peer).protocol key = swarm.protocol key :=
    Swarm.protocol_list key
  constructor
  case toMet =>
    refine ⟨?_, ?_, ?_, ?_⟩
    · rintro key (claims | beside)
      · exact absurd claims (awaits key)
      · rw [protocols]
        exact agrees.awaits key (Or.inr beside)
    · intro key claims
      rw [protocols]
      exact claims.elim (pins key) fun beside => agrees.pins key (Or.inr beside)
    · rintro key pid (claims | beside) <;> refine (members key pid).mpr ?_
      · exact ((lists key pid).mp claims).imp_left fun before =>
          agrees.lists key pid (Or.inl before)
      · exact Or.inl (agrees.lists key pid (Or.inr beside))
    · rintro key pid (claims | beside)
      · exact absurd claims (empties pid)
      · exact agrees.empties key pid (Or.inr beside)
  case listed =>
    intro key pid its filed
    rw [protocols] at its
    exact (members key pid).mpr (Or.inl (agrees.listed key pid its filed))
  case owed =>
    intro key pid member
    rcases (members key pid).mp member with before | new
    · refine (agrees.owed key pid before).imp_right (Or.imp_left fun owes => Or.inl ?_)
      exact (lists key pid).mpr (Or.inl (owes.resolve_right (drops key pid)))
    · exact Or.inr (Or.inl (Or.inl ((lists key pid).mpr (Or.inr new))))
  case stale =>
    intro key pid filed
    rw [protocols]
    exact (agrees.stale key pid filed).imp_right
      (Or.imp_left fun claims => absurd claims (unfiles key))

theorem file {protocolId : ProtocolID} {pids : List PeerID}
    (agrees : Agrees swarm (Around calls index (.join protocolId own (.filing peer pids))))
    (clear : Clear calls index (.join protocolId own (.filing peer pids))) :
    Agrees (swarm.file peer own) (Around calls index (.join protocolId own (.scanning pids))) := by
  have listed : peer ∈ swarm.peers own := agrees.lists own peer (Or.inl ⟨rfl, rfl⟩)
  constructor
  case toMet =>
    have met : Met swarm (Around calls index (.join protocolId own (.scanning pids))) := by
      refine agrees.replace ⟨fun _ => False.elim, ?_, fun _ _ => False.elim, fun _ _ => False.elim⟩
      rintro _ rfl
      exact mem_peers_joined listed
    exact { met with
      empties := fun key pid claims => claims.elim False.elim fun beside =>
        absurd beside (clear.of_joining rfl) }
  case listed =>
    intro key pid joined filed
    rcases Swarm.filed_file.mp filed with before | ⟨rfl, rfl⟩
    · exact agrees.listed key pid joined before
    · exact listed
  case owed =>
    intro key pid member
    rcases agrees.owed key pid member with filed | (⟨rfl, rfl⟩ | ⟨⟨⟩⟩) | beside
    · exact Or.inl (Swarm.filed_file.mpr (Or.inl filed))
    · exact Or.inl (Swarm.filed_file.mpr (Or.inr ⟨rfl, rfl⟩))
    · exact Or.inr (Or.inr beside)
  case stale =>
    intro key pid filed
    rcases Swarm.filed_file.mp filed with before | ⟨rfl, rfl⟩
    · exact (agrees.stale key pid before).imp_right (Or.imp_left False.elim)
    · exact Or.inl (mem_peers_joined listed)

theorem refile {keys : HashSet SwarmKey}
    (agrees : Agrees swarm (Around calls index (.added peer (.filing keys))))
    (clear : Clear calls index (.added peer (.filing keys)))
    (kept : ∀ key, (swarm.protocol key).isSome = true → swarm.Filed peer key → key ∈ keys) :
    Agrees (swarm.refile peer keys) (Around calls index (.added peer .returned)) := by
  have listed {key : SwarmKey} (member : key ∈ keys) : peer ∈ swarm.peers key :=
    agrees.lists key peer (Or.inl ⟨rfl, member⟩)
  constructor
  case toMet =>
    have met : Met swarm (Around calls index (.added peer .returned)) :=
      agrees.release (fun _ => id) (fun _ => id) (fun _ _ => id) fun _ => id
    exact { met with
      empties := fun key pid claims => claims.elim False.elim fun beside =>
        absurd beside (clear.of_handles rfl) }
  case listed =>
    intro key pid joined filed
    rcases Swarm.filed_insert.mp filed with ⟨rfl, member⟩ | ⟨_, before⟩
    · exact listed member
    · exact agrees.listed key pid joined before
  case owed =>
    intro key pid member
    rcases agrees.owed key pid member with filed | (⟨rfl, named⟩ | ⟨⟨⟩⟩) | beside
    · refine Or.inl (Swarm.filed_insert.mpr ?_)
      by_cases same : pid = peer
      · subst same
        exact Or.inl ⟨rfl, kept key (mem_peers_joined member) filed⟩
      · exact Or.inr ⟨same, filed⟩
    · exact Or.inl (Swarm.filed_insert.mpr (Or.inl ⟨rfl, named⟩))
    · exact Or.inr (Or.inr beside)
  case stale =>
    intro key pid filed
    rcases Swarm.filed_insert.mp filed with ⟨rfl, member⟩ | ⟨_, before⟩
    · exact Or.inl (mem_peers_joined (listed member))
    · exact (agrees.stale key pid before).imp_right (Or.imp_left False.elim)

/-- The handler of a removal takes the entry of the peer, with the swarms that list it. -/
theorem take {phase : RemovedPhase}
    (agrees : Agrees swarm (Around calls index (.removed peer .taking)))
    (drops : ∀ key, swarm.Filed peer key → (SwarmCall.removed peer phase).Drops key peer) :
    Agrees (swarm.take peer) (Around calls index (.removed peer phase)) := by
  constructor
  case toMet =>
    have met : Met swarm (Around calls index (.removed peer .returned)) :=
      agrees.release (fun _ => id) (fun _ => id) (fun _ _ => id) fun _ => id
    refine { met with empties := ?_ }
    rintro key pid (claims | beside) filed
    · have same : peer = pid := by
        cases phase with
        | taken | dropping => exact claims
        | taking | returned => exact claims.elim
      exact (Swarm.filed_erase.mp filed).1 same.symm
    · exact agrees.empties key pid (Or.inr beside) (Swarm.filed_erase.mp filed).2
  case listed =>
    exact fun key pid joined filed => agrees.listed key pid joined (Swarm.filed_erase.mp filed).2
  case owed =>
    intro key pid member
    rcases agrees.owed key pid member with filed | (⟨⟨⟩⟩ | ⟨⟨⟩⟩) | beside
    · by_cases same : pid = peer
      · subst same
        exact Or.inr (Or.inl (Or.inr (drops key filed)))
      · exact Or.inl (Swarm.filed_erase.mpr ⟨same, filed⟩)
    · exact Or.inr (Or.inr beside)
  case stale =>
    intro key pid filed
    exact (agrees.stale key pid (Swarm.filed_erase.mp filed).2).imp_right
      (Or.imp_left False.elim)

theorem drop {keys : List SwarmKey}
    (agrees : Agrees swarm (Around calls index (.removed peer (.dropping (own :: keys)))))
    (clear : Clear calls index (.removed peer (.dropping (own :: keys)))) :
    Agrees (swarm.dropPeer peer own) (Around calls index (.removed peer (.dropping keys))) := by
  have protocols (key : SwarmKey) : (swarm.dropPeer peer own).protocol key = swarm.protocol key :=
    Swarm.protocol_modify swarm own key (fun peers => peers.erase peer) _
  constructor
  case toMet =>
    refine ⟨?_, ?_, ?_, agrees.empties⟩
    · rintro key (⟨⟨⟩⟩ | beside)
      rw [protocols]
      exact agrees.awaits key (Or.inr beside)
    · rintro key (⟨⟨⟩⟩ | beside)
      rw [protocols]
      exact agrees.pins key (Or.inr beside)
    · rintro key pid (⟨⟨⟩⟩ | beside)
      exact absurd beside (clear.of_removes rfl)
  case listed =>
    intro key pid joined filed
    rw [protocols] at joined
    refine Swarm.mem_peers_dropPeer.mpr ⟨agrees.listed key pid joined filed, ?_⟩
    rintro ⟨rfl, rfl⟩
    exact agrees.empties key pid (Or.inl rfl) filed
  case owed =>
    intro key pid member
    obtain ⟨before, other⟩ := Swarm.mem_peers_dropPeer.mp member
    rcases agrees.owed key pid before with filed | (⟨⟨⟩⟩ | ⟨rfl, named⟩) | beside
    · exact Or.inl filed
    · refine Or.inr (Or.inl (Or.inr ⟨rfl, ?_⟩))
      exact (List.mem_cons.mp named).resolve_left fun same => other ⟨rfl, same⟩
    · exact Or.inr (Or.inr beside)
  case stale =>
    intro key pid filed
    rw [protocols]
    exact (agrees.stale key pid filed).imp_right (Or.imp_left False.elim)

end Agrees

end Beside

end Karyon
