/-
This file models the Kademlia discovery of `p2p/src/discovery/kademlia/mod.rs` and the refresh of
`refresh.rs`, with the tasks that write to the routing table.

The connect loop picks a pending entry, marks it as connected and hands it to the node through a
bounded queue; when there is none it starts a lookup at some entry. The refresh loop takes a list of
entries, pings them and writes its verdict into the table. The lookup service adds entries, and the
node reports what became of a peer. A step is what one task does from one await point or lock of the
table to the next; what the network answers, and how the random searches are drawn, are arguments.

The status word of an entry is written by all of them. A verdict is what a failed lookup, an
eviction or a ping writes about an entry that was read some time ago.
-/

import Karyon.P2p.TableStatus
import Karyon.P2p.Wire
import Mathlib.Data.List.MinMax

namespace Karyon.P2p

open Karyon.Net Transition

/-! ### Peer addresses -/

def PeerAddr.toEndpoint (self : PeerAddr) : Endpoint :=
  match self.protocol with
  | .tcp => .tcp self.addr self.port
  | .tls => .tls self.addr self.port
  | .udp => .udp self.addr self.port
  | .quic => .quic self.addr self.port

def PeerAddr.fromEndpoint (endpoint : Endpoint) (priority : UInt16) : Option PeerAddr :=
  match endpoint with
  | .tcp addr port => some { addr, port, protocol := .tcp, priority }
  | .tls addr port => some { addr, port, protocol := .tls, priority }
  | .udp addr port => some { addr, port, protocol := .udp, priority }
  | .quic addr port => some { addr, port, protocol := .quic, priority }
  | _ => none

/-- The endpoint of the first address with the lowest priority number among the supported
ones. -/
def pickEndpoint (addrs : List PeerAddr) (supported : List Protocol) : Option Endpoint :=
  ((addrs.filter fun a => supported.contains a.protocol).argmin fun a => a.priority.toNat).map
    PeerAddr.toEndpoint

/-! ### The discovery service -/

/-- A peer that the node should connect to. -/
structure DiscoveredPeer where
  peerId : Option PeerID
  addrs : List PeerAddr
  discoveryAddrs : List PeerAddr
  deriving DecidableEq

/-- What the node reports about a peer. -/
inductive PeerConnectionEvent where
  | connected (pid : PeerID)
  | disconnected (pid : PeerID)
  | connectFailed (pid : Option PeerID)
  deriving DecidableEq

def DISCOVERED_PEER_QUEUE_SIZE : Nat := 128
def SUPPORTED_LOOKUP_PROTOCOLS : List Protocol := [.tcp, .quic]
def MAX_FAILURES : UInt32 := 3
def REFRESH_PER_BUCKET : Nat := 8

structure DiscoveryConfig where
  localKey : Key
  dialPeers : List Endpoint
  bootstrapPeers : List Endpoint

def DiscoveredPeer.ofEntry (entry : Entry) : DiscoveredPeer where
  peerId := some ⟨entry.key⟩
  addrs := entry.addrs
  discoveryAddrs := entry.discoveryAddrs

/-- The peer of an endpoint that is dialled by hand. -/
def DiscoveredPeer.ofEndpoint (endpoint : Endpoint) : Option DiscoveredPeer :=
  (PeerAddr.fromEndpoint endpoint 0).map fun addr =>
    { peerId := none, addrs := [addr], discoveryAddrs := [] }

/-- Where the connect loop waits: for room for the peers that are dialled by hand, at the top of
its loop, for the lock to mark an entry it has found, for room for a picked peer, in its backoff,
for a lookup at an entry, or for the lookups at the bootstrap peers. -/
inductive ConnectPhase where
  | starting (endpoints : List Endpoint)
  | picking
  | marking (entry : Entry)
  | pushing (peer : DiscoveredPeer)
  | sleeping
  | lookingUp (entry : Entry)
  | bootstrapping (endpoints : List Endpoint)

/-- Where the refresh loop waits: for the next round, inside a chunk whose exhausted entries it
evicts while it collects the others, or for the pings of a chunk. -/
inductive RefreshPhase where
  | sleeping
  | sweeping (chunk tasks : List BucketEntry) (later : List (List BucketEntry))
  | pinging (tasks : List BucketEntry) (later : List (List BucketEntry))

structure Discovery where
  table : RoutingTable
  peerQueue : List DiscoveredPeer
  connectPhase : ConnectPhase
  refreshPhase : RefreshPhase

/-- What matters to the node and to the table: an entry was picked and marked as connected, a
peer was put into the queue, the node reported the end of an attempt. -/
inductive DiscoveryEvent where
  | picked (key : Key)
  | queued (peerId : Option PeerID)
  | settled (key : Key)
  deriving DecidableEq

inductive DiscoveryAction where
  | search (localBloom : LocalBloom) (draw : Draw)
  | mark (now : Int)
  | push
  | seed (draw : Draw) (shuffle : Shuffle)
  | lookup (outcome : Except Error (List Entry)) (now : Int)
  | inbound (entry : Entry) (now : Int)
  | refresh
  | sweep
  | ping (task : Nat) (answered : Bool) (now : Int)
  | recv
  | onEvent (event : PeerConnectionEvent) (now : Int)

/-- The action is one of the tasks of discovery, not one of the node. -/
def DiscoveryAction.internal : DiscoveryAction → Bool
  | .recv => false
  | .onEvent _ _ => false
  | _ => true

/-- The entries a lookup or a remote peer adds, one after the other. -/
def RoutingTable.addEntries (table : RoutingTable) (entries : List Entry) (now : Int) :
    RoutingTable :=
  entries.foldl (fun table entry => (table.addEntry entry now).1) table

/-- The lookups at the bootstrap peers that are left, then the loop starts again. -/
def ConnectPhase.bootstrap : List Endpoint → ConnectPhase
  | [] => .picking
  | endpoints => .bootstrapping endpoints

/-- The next chunk of a refresh round, or the end of the round. -/
def RefreshPhase.nextChunk : List (List BucketEntry) → RefreshPhase
  | [] => .sleeping
  | chunk :: later => .sweeping chunk [] later

/-- The pings of a chunk that are left, then the next chunk. -/
def RefreshPhase.awaitPings (tasks : List BucketEntry) (later : List (List BucketEntry)) :
    RefreshPhase :=
  match tasks with
  | [] => .nextChunk later
  | tasks => .pinging tasks later

/-- The verdict of the refresh about one entry of its list. There is no ping without a UDP
address. -/
def refreshEntry (table : RoutingTable) (bucketEntry : BucketEntry) (answered : Bool)
    (now : Int) : RoutingTable :=
  let key := bucketEntry.entry.key
  if (pickEndpoint bucketEntry.entry.discoveryAddrs [.udp]).isSome && answered then
    table.updateEntry key PENDING_ENTRY now
  else if bucketEntry.failures ≥ MAX_FAILURES then table.removeEntry key
  else table.updateEntry key UNREACHABLE_ENTRY now

namespace Discovery

def new (config : DiscoveryConfig) : Discovery where
  table := .new config.localKey
  peerQueue := []
  connectPhase := .starting config.dialPeers
  refreshPhase := .sleeping

variable (self : Discovery)

/-- The top of the connect loop: find a pending entry, or go to sleep. -/
def search (localBloom : LocalBloom) (draw : Draw) : Option (Discovery × List DiscoveryEvent) :=
  match self.connectPhase with
  | .picking =>
    match self.table.randomEntryFiltered PENDING_ENTRY localBloom draw with
    | some entry => some ({ self with connectPhase := .marking entry }, [])
    | none => some ({ self with connectPhase := .sleeping }, [])
  | _ => none

/-- Mark the entry as connected, under a lock of its own. -/
def mark (now : Int) : Option (Discovery × List DiscoveryEvent) :=
  match self.connectPhase with
  | .marking entry => some (
      { self with
        table := self.table.updateEntry entry.key CONNECTED_ENTRY now
        connectPhase := .pushing (.ofEntry entry) }, [.picked entry.key])
  | _ => none

/-- A peer goes into the queue and the task goes on. -/
def enqueue (peer : DiscoveredPeer) (phase : ConnectPhase) :
    Option (Discovery × List DiscoveryEvent) :=
  (pushQueue DISCOVERED_PEER_QUEUE_SIZE self.peerQueue peer).map fun peerQueue =>
    ({ self with peerQueue, connectPhase := phase }, [.queued peer.peerId])

/-- The pushes into the queue of discovered peers. -/
def push : Option (Discovery × List DiscoveryEvent) :=
  match self.connectPhase with
  | .starting [] => some ({ self with connectPhase := .picking }, [])
  | .starting (endpoint :: rest) =>
    match DiscoveredPeer.ofEndpoint endpoint with
    | some peer => self.enqueue peer (.starting rest)
    | none => some ({ self with connectPhase := .starting rest }, [])
  | .pushing peer => self.enqueue peer .picking
  | _ => none

/-- The backoff is over and the loop looks for a peer to ask for others. -/
def startSeeding (config : DiscoveryConfig) (draw : Draw) (shuffle : Shuffle) :
    Option (Discovery × List DiscoveryEvent) :=
  match self.connectPhase with
  | .sleeping =>
    match self.table.randomEntry (PENDING_ENTRY ||| CONNECTED_ENTRY) draw with
    | some entry =>
      match pickEndpoint entry.discoveryAddrs SUPPORTED_LOOKUP_PROTOCOLS with
      | some _ => some ({ self with connectPhase := .lookingUp entry }, [])
      | none => some ({ self with connectPhase := .picking }, [])
    | none =>
      some ({ self with connectPhase := .bootstrap (shuffle.sample config.bootstrapPeers) }, [])
  | _ => none

/-- A lookup ends. It has added the peers it found; a failed one marks the entry it asked. -/
def lookup (outcome : Except Error (List Entry)) (now : Int) :
    Option (Discovery × List DiscoveryEvent) :=
  match self.connectPhase, outcome with
  | .lookingUp _, .ok peers => some (
      { self with table := self.table.addEntries peers now, connectPhase := .picking }, [])
  | .lookingUp entry, .error _ => some (
      { self with
        table := self.table.updateEntry entry.key UNSTABLE_ENTRY now
        connectPhase := .picking }, [])
  | .bootstrapping endpoints, .ok peers => some (
      { self with
        table := self.table.addEntries peers now
        connectPhase := .bootstrap endpoints.tail }, [])
  | .bootstrapping endpoints, .error _ =>
    some ({ self with connectPhase := .bootstrap endpoints.tail }, [])
  | _, _ => none

def refresh : Option (Discovery × List DiscoveryEvent) :=
  match self.refreshPhase with
  | .sleeping =>
    let entries := self.table.refreshCandidates REFRESH_PER_BUCKET
    some ({ self with refreshPhase := .nextChunk (entries.toChunks 16) }, [])
  | _ => none

/-- The loop over a chunk evicts an exhausted entry or makes a task of the entry. -/
def sweep : Option (Discovery × List DiscoveryEvent) :=
  match self.refreshPhase with
  | .sweeping (bucketEntry :: rest) tasks later =>
    if bucketEntry.failures ≥ MAX_FAILURES then some (
      { self with
        table := self.table.removeEntry bucketEntry.entry.key
        refreshPhase := .sweeping rest tasks later }, [])
    else some ({ self with refreshPhase := .sweeping rest (tasks ++ [bucketEntry]) later }, [])
  | .sweeping [] tasks later => some ({ self with refreshPhase := .awaitPings tasks later }, [])
  | _ => none

def ping (task : Nat) (answered : Bool) (now : Int) : Option (Discovery × List DiscoveryEvent) :=
  match self.refreshPhase with
  | .pinging tasks later =>
    match tasks[task]? with
    | some bucketEntry => some (
        { self with
          table := refreshEntry self.table bucketEntry answered now
          refreshPhase := .awaitPings (tasks.eraseIdx task) later }, [])
    | none => none
  | _ => none

def recv : Option (DiscoveredPeer × Discovery) :=
  match self.peerQueue with
  | peer :: rest => some (peer, { self with peerQueue := rest })
  | [] => none

def onEvent (event : PeerConnectionEvent) (now : Int) : Discovery :=
  match event with
  | .connected pid => { self with table := self.table.updateEntry pid.bytes CONNECTED_ENTRY now }
  | .disconnected pid =>
    { self with table := self.table.updateEntry pid.bytes DISCONNECTED_ENTRY now }
  | .connectFailed (some pid) =>
    { self with table := self.table.updateEntry pid.bytes UNREACHABLE_ENTRY now }
  | .connectFailed none => self

/-- The attempt that a report of the node ends. -/
def settledBy : PeerConnectionEvent → List DiscoveryEvent
  | .connected _ => []
  | .disconnected pid => [.settled pid.bytes]
  | .connectFailed (some pid) => [.settled pid.bytes]
  | .connectFailed none => []

def step (config : DiscoveryConfig) (self : Discovery) :
    DiscoveryAction → Option (Discovery × List DiscoveryEvent)
  | .search localBloom draw => self.search localBloom draw
  | .mark now => self.mark now
  | .push => self.push
  | .seed draw shuffle => self.startSeeding config draw shuffle
  | .lookup outcome now => self.lookup outcome now
  | .inbound entry now => some ({ self with table := (self.table.addEntry entry now).1 }, [])
  | .refresh => self.refresh
  | .sweep => self.sweep
  | .ping task answered now => self.ping task answered now
  | .recv => self.recv.map fun received => (received.2, [])
  | .onEvent event now => some (self.onEvent event now, settledBy event)

end Discovery

def discoveryMachine (config : DiscoveryConfig) :
    Machine Discovery DiscoveryAction DiscoveryEvent where
  start := .new config
  step := Discovery.step config

/-! ### Verdicts -/

/-- The picked peer that is not in the queue yet. -/
def ConnectPhase.handing : ConnectPhase → Option PeerID
  | .pushing peer => peer.peerId
  | _ => none

/-- The loop hands the same peer as before, and marks no other entry. -/
structure ConnectPhase.Follows (phase before : ConnectPhase) : Prop where
  handing : phase.handing = before.handing
  marking : ∀ entry, phase = .marking entry → before = .marking entry

theorem ConnectPhase.Follows.refl (phase : ConnectPhase) : phase.Follows phase :=
  ⟨rfl, fun _ => id⟩

namespace Discovery

/-- The key that a failed lookup, an eviction or the verdict of a refresh writes to. -/
def verdict (self : Discovery) : DiscoveryAction → Option Key
  | .lookup (.error _) _ =>
    match self.connectPhase with
    | .lookingUp entry => some entry.key
    | _ => none
  | .sweep =>
    match self.refreshPhase with
    | .sweeping (bucketEntry :: _) _ _ =>
      if bucketEntry.failures ≥ MAX_FAILURES then some bucketEntry.entry.key else none
    | _ => none
  | .ping task _ _ =>
    match self.refreshPhase with
    | .pinging tasks _ => tasks[task]?.map fun bucketEntry => bucketEntry.entry.key
    | _ => none
  | _ => none

/-! ### What one step can do -/

/-- The effects of a step: an entry is found; it is marked; a peer goes into the queue; entries are
added; a verdict is written; the node takes a peer or reports; or a task goes on and changes
nothing. -/
inductive Effect (self : Discovery) (action : DiscoveryAction) :
    Discovery → List DiscoveryEvent → Prop
  | finds {localBloom : LocalBloom} {draw : Draw} {entry : Entry}
      (idle : self.connectPhase.handing = none)
      (found : self.table.randomEntryFiltered PENDING_ENTRY localBloom draw = some entry) :
      Effect self action { self with connectPhase := .marking entry } []
  | picks {now : Int} {entry : Entry} (found : self.connectPhase = .marking entry)
      (marks : action = .mark now) :
      Effect self action
        { self with
          table := self.table.updateEntry entry.key CONNECTED_ENTRY now
          connectPhase := .pushing (.ofEntry entry) } [.picked entry.key]
  | queues {peer : DiscoveredPeer} {phase : ConnectPhase}
      (handing : self.connectPhase.handing = peer.peerId) (idle : phase.handing = none)
      (searches : ∀ entry, phase ≠ .marking entry) :
      Effect self action
        { self with peerQueue := self.peerQueue ++ [peer], connectPhase := phase }
        [.queued peer.peerId]
  | adds {entries : List Entry} {now : Int} {phase : ConnectPhase}
      (follows : phase.Follows self.connectPhase) :
      Effect self action
        { self with table := self.table.addEntries entries now, connectPhase := phase } []
  | judges {key : Key} {table : RoutingTable} {phase : ConnectPhase} {refreshPhase : RefreshPhase}
      (written : self.verdict action = some key)
      (change : table = self.table.removeEntry key ∨
        ∃ flag now, flag ≠ CONNECTED_ENTRY ∧ table = self.table.updateEntry key flag now)
      (follows : phase.Follows self.connectPhase) :
      Effect self action { self with table, connectPhase := phase, refreshPhase } []
  | takes {peer : DiscoveredPeer} {rest : List DiscoveredPeer}
      (queue : self.peerQueue = peer :: rest) (external : action.internal = false) :
      Effect self action { self with peerQueue := rest } []
  | settles {pid : PeerID} {flag : EntryStatusFlag} {now : Int} (left : flag ≠ CONNECTED_ENTRY)
      (external : action.internal = false) :
      Effect self action
        { self with table := self.table.updateEntry pid.bytes flag now } [.settled pid.bytes]
  | connects {pid : PeerID} {now : Int} (external : action.internal = false) :
      Effect self action
        { self with table := self.table.updateEntry pid.bytes CONNECTED_ENTRY now } []
  | goes {phase : ConnectPhase} {refreshPhase : RefreshPhase}
      (follows : phase.Follows self.connectPhase) :
      Effect self action { self with connectPhase := phase, refreshPhase } []

section Effects

variable {self next : Discovery} {events : List DiscoveryEvent}

theorem bootstrap_follows {phase : ConnectPhase} (idle : phase.handing = none)
    (endpoints : List Endpoint) : (ConnectPhase.bootstrap endpoints).Follows phase := by
  cases endpoints <;> exact ⟨idle.symm, nofun⟩

variable {action : DiscoveryAction} {now : Int}

theorem search_effect {localBloom : LocalBloom} {draw : Draw}
    (step : self.search localBloom draw = some (next, events)) :
    Effect self action next events := by
  revert step
  fun_cases search
  all_goals rintro ⟨⟩
  next phase _ found => exact .finds (by rw [phase]; rfl) found
  next phase _ => exact .goes ⟨by rw [phase]; rfl, nofun⟩

theorem mark_effect (step : self.mark now = some (next, events)) :
    Effect self (.mark now) next events := by
  revert step
  fun_cases mark <;> rintro ⟨⟩
  rename_i found
  exact .picks found rfl

theorem enqueue_effect {peer : DiscoveredPeer} {phase : ConnectPhase}
    (handing : self.connectPhase.handing = peer.peerId) (idle : phase.handing = none)
    (searches : ∀ entry, phase ≠ .marking entry)
    (step : self.enqueue peer phase = some (next, events)) : Effect self action next events := by
  obtain ⟨queue, pushed, same⟩ := Option.map_eq_some_iff.mp step
  obtain ⟨_, rfl⟩ := pushQueue_eq_some.mp pushed
  cases same
  exact .queues handing idle searches

theorem push_effect (step : self.push = some (next, events)) :
    Effect self action next events := by
  unfold push at step
  split at step
  case h_1 phase =>
    cases step
    exact .goes ⟨by rw [phase]; rfl, nofun⟩
  case h_2 endpoint rest phase =>
    split at step
    · rename_i peer built
      obtain ⟨addr, _, rfl⟩ := Option.map_eq_some_iff.mp built
      exact enqueue_effect (by rw [phase]; rfl) rfl (by rintro _ ⟨⟩) step
    · cases step
      exact .goes ⟨by rw [phase]; rfl, nofun⟩
  case h_3 peer phase => exact enqueue_effect (by rw [phase]; rfl) rfl (by rintro _ ⟨⟩) step
  case h_4 => cases step

theorem startSeeding_effect {config : DiscoveryConfig} {draw : Draw} {shuffle : Shuffle}
    (step : self.startSeeding config draw shuffle = some (next, events)) :
    Effect self action next events := by
  revert step
  fun_cases startSeeding
  all_goals rintro ⟨⟩
  next phase _ _ _ _ => exact .goes ⟨by rw [phase]; rfl, nofun⟩
  next phase _ _ _ => exact .goes ⟨by rw [phase]; rfl, nofun⟩
  next phase _ => exact .goes (bootstrap_follows (by rw [phase]; rfl) _)

theorem lookup_effect {outcome : Except Error (List Entry)}
    (step : self.lookup outcome now = some (next, events)) :
    Effect self (.lookup outcome now) next events := by
  unfold lookup at step
  split at step
  case h_1 entry peers phase =>
    cases step
    exact .adds ⟨by rw [phase]; rfl, nofun⟩
  case h_2 entry error phase =>
    cases step
    exact .judges (by simp only [verdict, phase]) (Or.inr ⟨_, now, by decide, rfl⟩)
      ⟨by rw [phase]; rfl, nofun⟩
  case h_3 endpoints peers phase =>
    cases step
    exact .adds (bootstrap_follows (by rw [phase]; rfl) _)
  case h_4 endpoints error phase =>
    cases step
    exact .goes (bootstrap_follows (by rw [phase]; rfl) _)
  case h_5 => cases step

theorem refresh_effect (step : self.refresh = some (next, events)) :
    Effect self action next events := by
  revert step
  fun_cases refresh <;> rintro ⟨⟩
  exact .goes (.refl _)

theorem sweep_effect (step : self.sweep = some (next, events)) :
    Effect self .sweep next events := by
  revert step
  fun_cases sweep
  all_goals rintro ⟨⟩
  next phase exhausted =>
    exact .judges (by simp only [verdict, phase, if_pos exhausted]) (Or.inl rfl) (.refl _)
  next => exact .goes (.refl _)
  next => exact .goes (.refl _)

/-- The verdict about an entry removes it or gives it a status other than connected. -/
theorem refreshEntry_change (table : RoutingTable) (bucketEntry : BucketEntry) (answered : Bool)
    (now : Int) :
    refreshEntry table bucketEntry answered now = table.removeEntry bucketEntry.entry.key ∨
      ∃ flag now', flag ≠ CONNECTED_ENTRY ∧ refreshEntry table bucketEntry answered now =
        table.updateEntry bucketEntry.entry.key flag now' := by
  unfold refreshEntry
  simp only
  split
  · exact Or.inr ⟨_, now, by decide, rfl⟩
  · split
    · exact Or.inl rfl
    · exact Or.inr ⟨_, now, by decide, rfl⟩

theorem ping_effect {task : Nat} {answered : Bool}
    (step : self.ping task answered now = some (next, events)) :
    Effect self (.ping task answered now) next events := by
  revert step
  fun_cases ping <;> rintro ⟨⟩
  rename_i phase bucketEntry found
  refine .judges ?_ (refreshEntry_change self.table bucketEntry answered now) (.refl _)
  simp only [verdict, phase, found, Option.map_some]

theorem onEvent_effect (event : PeerConnectionEvent) (now : Int) :
    Effect self (.onEvent event now) (self.onEvent event now) (settledBy event) := by
  cases event with
  | connected pid => exact .connects rfl
  | disconnected pid => exact .settles (by decide) rfl
  | connectFailed pid =>
    cases pid with
    | none => exact .goes (.refl _)
    | some pid => exact .settles (by decide) rfl

theorem step_effect {config : DiscoveryConfig}
    (step : Discovery.step config self action = some (next, events)) :
    Effect self action next events := by
  cases action with
  | search localBloom draw => exact search_effect step
  | mark now => exact mark_effect step
  | push => exact push_effect step
  | seed draw shuffle => exact startSeeding_effect step
  | lookup outcome now => exact lookup_effect step
  | inbound entry now =>
    cases step
    exact @Effect.adds self _ [entry] now self.connectPhase (.refl _)
  | refresh => exact refresh_effect step
  | sweep => exact sweep_effect step
  | ping task answered now => exact ping_effect step
  | recv =>
    obtain ⟨⟨peer, rest⟩, received, same⟩ := Option.map_eq_some_iff.mp step
    unfold recv at received
    split at received
    · rename_i queue
      cases received
      cases same
      exact .takes queue rfl
    · cases received
  | onEvent event now =>
    cases step
    exact onEvent_effect event now

end Effects

end Discovery

end Karyon.P2p
