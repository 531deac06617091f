/-
This file models `PeerPool::broadcast` of `p2p/src/peer_pool.rs` over the connections of a pool, and
proves when a broadcast does no harm to the connections it uses.

The network is the pool of one node with the honest nodes at the other ends. Any number of
broadcasts run at once, each sending to one peer after another, while on every connection the tasks
of both ends take their turns.

A pipe accepts a message for every protocol, a QUIC wire only for the negotiated ones, and the
reader of a pipe stops at a message for a protocol that was not negotiated. So a broadcast is
harmless exactly when every peer on a pipe negotiated its protocol (`broadcast_harmless_iff`).
-/

import Karyon.P2p.PeerLink

namespace Karyon.P2p

open Transition

variable (deps : WireDeps)

/-! ### The network -/

/-- A peer of the pool, at the other end of an established connection. -/
structure HonestPeer where
  link : PeerLink
  established : link.Established deps

/-- A broadcast in progress, with the peers it has still to send to. -/
structure Broadcast where
  protoId : ProtocolID
  msg : Bytes
  pending : List PeerID

structure Network where
  peers : HashMap PeerID PeerLink
  broadcasts : List Broadcast

/-- A task calls broadcast; a broadcast goes on with its next peer; something happens on the
connection of a peer. -/
inductive NetworkAction where
  | broadcast (protoId : ProtocolID) (msg : Bytes)
  | advance (task : Nat)
  | link (pid : PeerID) (action : LinkAction)

namespace Network

variable (network : Network)

def withPending (task : Nat) (pending : List PeerID) : Network :=
  { network with
    broadcasts := network.broadcasts.modify task fun current => { current with pending } }

def withLink (pid : PeerID) (link : PeerLink) : Network :=
  { network with peers := network.peers.insert pid link }

/-- Send to the next peer. A failure is logged and the next peer is taken; a full queue makes
the broadcast wait. -/
def advance (task : Nat) : Option Network :=
  match network.broadcasts[task]? with
  | some ⟨protoId, msg, pid :: pending⟩ =>
    match network.peers.lookup pid with
    | none => none
    | some link =>
      match link.wire.send deps protoId msg with
      | .error _ => some (network.withPending task pending)
      | .ok none => none
      | .ok (some wire) => some ((network.withPending task pending).withLink pid { link with wire })
  | _ => none

def step : NetworkAction → Option (Network × List (PeerID × LinkEvent))
  | .broadcast protoId msg =>
    some ({ network with
      broadcasts := network.broadcasts ++ [⟨protoId, msg, network.peers.keys⟩] }, [])
  | .advance task => (network.advance deps task).map fun next => (next, [])
  | .link pid action =>
    match network.peers.lookup pid with
    | none => none
    | some link => (link.step deps action).map fun (next, events) =>
        (network.withLink pid next, events.map fun event => (pid, event))

end Network

variable (pool : HashMap PeerID (HonestPeer deps))

def networkMachine : Machine Network NetworkAction (PeerID × LinkEvent) where
  start := { peers := HashMap.mapValues HonestPeer.link pool, broadcasts := [] }
  step := Network.step deps

variable (requested : ProtocolID → Bytes → Prop)

/-- The broadcasts are among the requested ones. -/
def Requests : Network → NetworkAction → Prop
  | _, .broadcast protoId msg => requested protoId msg
  | _, _ => True

variable {deps}

/-! ### What the network keeps -/

/-- Every peer on a pipe negotiated the protocol of every requested broadcast. -/
def PipesNegotiated : Prop :=
  ∀ protoId msg, requested protoId msg → ∀ pid peer, pool.lookup pid = some peer →
    peer.link.wire.isSingle = true → protoId ∈ peer.link.negotiated

def OfPeer (pid : PeerID) (link : PeerLink) : Prop :=
  link.Sound deps ∧ ∃ peer, pool.lookup pid = some peer ∧
    link.negotiated = peer.link.negotiated ∧ link.wire.isSingle = peer.link.wire.isSingle

/-- The connections are sound, the broadcasts are requested ones and nothing harmful happened. -/
structure Network.Sound (pool : HashMap PeerID (HonestPeer deps))
    (requested : ProtocolID → Bytes → Prop) (history : List (PeerID × LinkEvent))
    (network : Network) : Prop where
  links : ∀ pid link, network.peers.lookup pid = some link → OfPeer pool pid link
  asked : ∀ current ∈ network.broadcasts, requested current.protoId current.msg
  harmless : ∀ pid event, (pid, event) ∈ history → ∃ peer, pool.lookup pid = some peer ∧
    event.Harmless deps peer.link.negotiated

section Runs

variable {pool : HashMap PeerID (HonestPeer deps)} {requested : ProtocolID → Bytes → Prop}
  {history : List (PeerID × LinkEvent)} {network next : Network} {pid : PeerID} {link : PeerLink}
  {pending : List PeerID} {protoId : ProtocolID} {msg : Bytes}

theorem OfPeer.congr {later : PeerLink} (own : OfPeer pool pid link) (sound : later.Sound deps)
    (negotiated : later.negotiated = link.negotiated)
    (isSingle : later.wire.isSingle = link.wire.isSingle) : OfPeer pool pid later := by
  obtain ⟨_, peer, found, same, kind⟩ := own
  exact ⟨sound, peer, found, negotiated.trans same, isSingle.trans kind⟩

theorem lookup_start (pool : HashMap PeerID (HonestPeer deps)) (pid : PeerID) :
    (networkMachine deps pool).start.peers.lookup pid = (pool.lookup pid).map HonestPeer.link :=
  HashMap.lookup_mapValues _ _ _

theorem Network.sound_start (lawful : deps.Lawful) :
    Network.Sound pool requested [] (networkMachine deps pool).start := by
  refine ⟨fun pid link found => ?_, nofun, nofun⟩
  rw [lookup_start] at found
  obtain ⟨peer, present, rfl⟩ := Option.map_eq_some_iff.mp found
  exact ⟨peer.established.sound lawful.streamInit, peer, present, rfl, rfl⟩

theorem Network.links_withLink
    (links : ∀ pid link, network.peers.lookup pid = some link → OfPeer pool pid link)
    (own : OfPeer pool pid link) (other : PeerID) (found : PeerLink)
    (lookup : (network.withLink pid link).peers.lookup other = some found) :
    OfPeer pool other found := by
  rcases HashMap.lookup_insert_eq_some.mp lookup with ⟨rfl, rfl⟩ | ⟨_, before⟩
  · exact own
  · exact links other found before

theorem Network.asked_withPending {task : Nat}
    (asked : ∀ current ∈ network.broadcasts, requested current.protoId current.msg) :
    ∀ current ∈ (network.withPending task pending).broadcasts,
      requested current.protoId current.msg := by
  intro current member
  obtain ⟨index, found⟩ := List.mem_iff_getElem?.mp member
  simp only [Network.withPending, List.getElem?_modify, Option.map_eq_map,
    Option.map_eq_some_iff] at found
  obtain ⟨before, present, rfl⟩ := found
  split <;> exact asked before (List.mem_of_getElem? present)

section

variable (sound : Network.Sound pool requested history network) (lawful : deps.Lawful)
  (negotiated : PipesNegotiated pool requested)

include sound lawful negotiated

theorem Network.Sound.advance {task : Nat} (step : network.advance deps task = some next) :
    Network.Sound pool requested history next := by
  revert step
  fun_cases Network.advance <;> rintro ⟨⟩
  next => exact ⟨sound.links, Network.asked_withPending sound.asked, sound.harmless⟩
  next protoId msg pid pending current link found wire sent =>
    have own := sound.links pid link found
    obtain ⟨peer, present, same, kind⟩ := own.2
    have pipe : link.wire.isSingle = true → protoId ∈ link.negotiated := by
      rw [same, kind]
      exact negotiated protoId msg (sound.asked _ (List.mem_of_getElem? current)) pid peer present
    obtain ⟨kept, isSingle⟩ := own.1.send lawful.protocolMsg pipe sent
    exact ⟨Network.links_withLink sound.links (own.congr kept rfl isSingle),
      Network.asked_withPending sound.asked, sound.harmless⟩

theorem Network.Sound.step {action : NetworkAction} {events : List (PeerID × LinkEvent)}
    (allowed : Requests requested network action)
    (step : network.step deps action = some (next, events)) :
    Network.Sound pool requested (history ++ events) next := by
  cases action with
  | broadcast protoId msg =>
    cases step
    rw [List.append_nil]
    refine ⟨sound.links, fun current member => ?_, sound.harmless⟩
    rcases mem_concat.mp member with member | rfl
    · exact sound.asked current member
    · exact allowed
  | advance task =>
    obtain ⟨_, advanced, ⟨⟩⟩ := Option.map_eq_some_iff.mp step
    rw [List.append_nil]
    exact sound.advance lawful negotiated advanced
  | link pid action =>
    simp only [Network.step] at step
    split at step
    · cases step
    · rename_i link found
      obtain ⟨⟨later, linkEvents⟩, moved, ⟨⟩⟩ := Option.map_eq_some_iff.mp step
      have own := sound.links pid link found
      have keeps := own.1.step moved
      refine ⟨Network.links_withLink sound.links
        (own.congr keeps.sound keeps.negotiated keeps.isSingle), sound.asked,
        fun other event member => ?_⟩
      rcases List.mem_append.mp member with member | member
      · exact sound.harmless other event member
      · obtain ⟨linkEvent, inside, ⟨⟩⟩ := List.mem_map.mp member
        obtain ⟨peer, present, sameSet, _⟩ := own.2
        exact ⟨peer, present, sameSet ▸ keeps.harmless event inside⟩

end

/-- When every peer on a pipe negotiated what is broadcast, every run keeps the network sound. -/
theorem Network.sound_run (lawful : deps.Lawful) (negotiated : PipesNegotiated pool requested)
    (run : (networkMachine deps pool).Run (Requests requested) history network) :
    Network.Sound pool requested history network :=
  run.invariant (Network.Sound pool requested) (Network.sound_start lawful)
    fun _ _ _ _ _ sound allowed step => sound.step lawful negotiated allowed step

/-! ### A run that breaks a connection -/

/-- A broadcast passes a peer that has its new connection, whether or not it is accepted. -/
theorem Network.advance_established (lawful : deps.Lawful) {peer : HonestPeer deps}
    (current : network.broadcasts = [⟨protoId, msg, pid :: pending⟩])
    (lookup : network.peers.lookup pid = some peer.link) :
    ∃ next, network.step deps (.advance 0) = some (next, []) ∧
      next.broadcasts = [⟨protoId, msg, pending⟩] ∧
      ∀ other ≠ pid, next.peers.lookup other = network.peers.lookup other := by
  have built := (peer.established.ends lawful.streamInit).1
  have remaining : (network.withPending 0 pending).broadcasts = [⟨protoId, msg, pending⟩] := by
    simp [Network.withPending, current]
  cases sent : peer.link.wire.send deps protoId msg with
  | error reason =>
    refine ⟨network.withPending 0 pending, ?_, remaining, fun _ _ => rfl⟩
    simp [Network.step, Network.advance, current, lookup, sent]
  | ok result =>
    cases result with
    | none => exact absurd sent (built.send_ne_wait protoId msg)
    | some wire =>
      refine ⟨(network.withPending 0 pending).withLink pid { peer.link with wire }, ?_, remaining,
        fun other different => AList.lookup_insert_ne different⟩
      simp [Network.step, Network.advance, current, lookup, sent]

/-- As long as its peers have their new connections, a broadcast passes one after another. -/
theorem broadcast_passes (lawful : deps.Lawful) {passed : List PeerID}
    (run : (networkMachine deps pool).Run (Requests requested) [] network)
    (current : network.broadcasts = [⟨protoId, msg, passed ++ pending⟩])
    (different : (passed ++ pending).Nodup)
    (present : ∀ pid ∈ passed ++ pending, (pool.lookup pid).isSome = true ∧
      network.peers.lookup pid = (pool.lookup pid).map HonestPeer.link) :
    ∃ later, (networkMachine deps pool).Run (Requests requested) [] later ∧
      later.broadcasts = [⟨protoId, msg, pending⟩] ∧
      ∀ pid ∈ pending, later.peers.lookup pid = (pool.lookup pid).map HonestPeer.link := by
  induction passed generalizing network with
  | nil => exact ⟨network, run, current, fun pid member => (present pid member).2⟩
  | cons pid rest inductionHypothesis =>
    obtain ⟨isSome, lookup⟩ := present pid List.mem_cons_self
    obtain ⟨peer, found⟩ := Option.isSome_iff_exists.mp isSome
    rw [found, Option.map_some] at lookup
    obtain ⟨next, step, remaining, unchanged⟩ :=
      Network.advance_established lawful current lookup
    have allowed : Requests requested network (.advance 0) := trivial
    refine inductionHypothesis (run.step allowed step) remaining (List.nodup_cons.mp different).2
      fun other member => ?_
    have distinct : other ≠ pid := fun same =>
      (List.nodup_cons.mp different).1 (same ▸ member)
    rw [unchanged other distinct]
    exact present other (List.mem_cons_of_mem _ member)

/-- The reader of a pipe stops at a message for a protocol it has no queue for. -/
theorem PeerLink.read_missing {connection : SingleConnection} {msg : PeerNetMsg}
    {rest : List PeerNetMsg} {protoMsg : ProtocolMsg} {length : Nat} (reading : none ∉ link.ended)
    (underway : link.transit none = msg :: rest) (remote : link.remote = .single connection)
    (command : msg.header.command = .protocol)
    (decodes : deps.protocolMsg.decode msg.payload = .ok (protoMsg, length))
    (absent : connection.recvQueues.lookup protoMsg.protocolId = none) :
    link.read deps none = some
      ((link.withTransit none rest).stop none (.unsupportedProtocol protoMsg.protocolId)) := by
  have handled : link.remote.read deps none msg =
      some (.error (.unsupportedProtocol protoMsg.protocolId)) := by
    simp only [remote, Wire.read, demuxReader, handleMsg_protocol command decodes, absent]
    rfl
  rw [PeerLink.read, if_neg reading, underway]
  simp only [handled]

/-- On a new pipe, a message for a protocol that was not negotiated is accepted and put on the
wire, and the reader of the remote stops at it. -/
theorem PeerLink.Established.breaks (lawful : deps.Lawful) (established : link.Established deps)
    (pipe : link.wire.isSingle = true) (missing : protoId ∉ link.negotiated) {payload bytes : Bytes}
    (admissible : deps.protocolMsg.encode ⟨protoId, payload⟩ = .ok bytes) :
    ∃ wire written stopped, link.wire.send deps protoId payload = .ok (some wire) ∧
      PeerLink.step deps { link with wire } (.write none) =
        some (written, [.put ⟨⟨.protocol⟩, bytes⟩]) ∧
      written.step deps (.read none) =
        some (stopped, [.stopped (.unsupportedProtocol protoId)]) := by
  obtain ⟨built, transit, ended, kind, theirs, agreed, far⟩ :=
    established.ends lawful.streamInit
  obtain ⟨negotiated, wire, _, remote, _⟩ := link
  have near : wire.Built negotiated := built
  have far : remote.Built theirs := far
  cases transit
  cases ended
  cases near with
  | mux queues => cases pipe
  | single =>
    cases far with
    | mux queues => cases kind
    | single =>
      obtain ⟨_, length, decodes, rfl⟩ := lawful.protocolMsg _ _ admissible
      have absent : (buildRecvQueues theirs).lookup protoId = none := by
        rw [lookup_buildRecvQueues, if_neg fun member => missing ((agreed protoId).mpr member)]
      have sent : (Wire.single (.fromQueued negotiated)).send deps protoId payload =
          .ok (some (.single ⟨[⟨⟨.protocol⟩, bytes⟩], buildRecvQueues negotiated⟩)) := by
        simp only [Wire.send, SingleConnection.send, PeerNetMsg.new, admissible]
        rfl
      have stops := PeerLink.read_missing
        (show none ∉ (PeerLink.mk negotiated (.single (.fromQueued negotiated))
          (Function.update (fun _ => []) none [⟨⟨.protocol⟩, bytes⟩])
          (.single (.fromQueued theirs)) []).ended from List.not_mem_nil)
        rfl rfl rfl decodes absent
      exact ⟨_, _, _, sent, rfl, stops⟩

theorem Network.step_link (network : Network) (pid : PeerID) {next : PeerLink} {action : LinkAction}
    {event : LinkEvent} (moves : link.step deps action = some (next, [event])) :
    (network.withLink pid link).step deps (.link pid action) =
      some ((network.withLink pid link).withLink pid next, [(pid, event)]) := by
  simp [Network.step, Network.withLink, moves]

/-- A requested broadcast for a protocol that a peer on a pipe did not negotiate leads to a run
in which the reader of that peer stops. -/
theorem broadcast_breaks (lawful : deps.Lawful) {bytes : Bytes} (asked : requested protoId msg)
    (admissible : deps.protocolMsg.encode ⟨protoId, msg⟩ = .ok bytes) {peer : HonestPeer deps}
    (found : pool.lookup pid = some peer) (pipe : peer.link.wire.isSingle = true)
    (missing : protoId ∉ peer.link.negotiated) :
    ∃ network, (networkMachine deps pool).Run (Requests requested)
      [(pid, .put ⟨⟨.protocol⟩, bytes⟩), (pid, .stopped (.unsupportedProtocol protoId))]
      network := by
  have member : pid ∈ pool.keys := AList.mem_keys.mp (AList.lookup_isSome.mp (by
    rw [found]
    rfl))
  obtain ⟨passed, pending, keys⟩ := List.append_of_mem member
  have called : (networkMachine deps pool).Run (Requests requested) []
      { (networkMachine deps pool).start with
        broadcasts := [⟨protoId, msg, passed ++ pid :: pending⟩] } := by
    have started : (networkMachine deps pool).start.peers.keys = passed ++ pid :: pending :=
      (HashMap.keys_mapValues _ _).trans keys
    have allowed : Requests requested (networkMachine deps pool).start (.broadcast protoId msg) :=
      asked
    exact Machine.Run.step .start allowed (by rw [← started]; rfl)
  obtain ⟨network, run, current, present⟩ := broadcast_passes lawful called rfl
    (keys ▸ pool.keys_nodup) fun other inside => by
      rw [AList.lookup_isSome, AList.mem_keys, keys]
      exact ⟨inside, lookup_start pool other⟩
  have lookup : network.peers.lookup pid = some peer.link := by
    rw [present pid List.mem_cons_self, found, Option.map_some]
  obtain ⟨wire, written, stopped, sent, writes, stops⟩ :=
    peer.established.breaks lawful pipe missing admissible
  have advances : network.step deps (.advance 0) =
      some ((network.withPending 0 pending).withLink pid { peer.link with wire }, []) := by
    simp [Network.step, Network.advance, current, lookup, sent]
  have sentRun := run.step (show Requests requested network (.advance 0) from trivial) advances
  have writtenRun := sentRun.step (show Requests requested _ (.link pid (.write none)) from trivial)
    (Network.step_link _ pid writes)
  have stoppedRun := writtenRun.step
    (show Requests requested _ (.link pid (.read none)) from trivial)
    (Network.step_link _ pid stops)
  exact ⟨_, stoppedRun⟩

end Runs

/-! ### Harmless broadcasts -/

/-- Broadcasts of admissible size put messages on the wire of a peer only for protocols that were
negotiated with it, exactly when every peer on a pipe negotiated their protocols; exactly then no
reader of a remote stops because of an unsupported protocol; and exactly then sending accepts
what was negotiated and nothing else. -/
theorem broadcast_harmless_iff (lawful : deps.Lawful) (pool : HashMap PeerID (HonestPeer deps))
    (requested : ProtocolID → Bytes → Prop)
    (admissible : ∀ protoId msg, requested protoId msg →
      ∃ bytes, deps.protocolMsg.encode ⟨protoId, msg⟩ = .ok bytes) :
    ((∀ history network,
        (networkMachine deps pool).Run (Requests requested) history network →
        ∀ pid peer msg, pool.lookup pid = some peer → (pid, .put msg) ∈ history →
          Carries deps peer.link.negotiated msg) ↔ PipesNegotiated pool requested) ∧
      ((∀ history network,
        (networkMachine deps pool).Run (Requests requested) history network →
        ∀ pid protoId, (pid, .stopped (.unsupportedProtocol protoId)) ∉ history) ↔
          PipesNegotiated pool requested) ∧
      ((∀ history network,
        (networkMachine deps pool).Run (Requests requested) history network →
        ∀ pid link, network.peers.lookup pid = some link →
          ∀ protoId msg, requested protoId msg →
            ((∃ sent, link.wire.send deps protoId msg = .ok sent) ↔
              protoId ∈ link.negotiated)) ↔ PipesNegotiated pool requested) := by
  refine ⟨⟨fun puts protoId msg asked pid peer found pipe => ?_,
      fun negotiated history network run pid peer msg found member => ?_⟩,
    ⟨fun stops protoId msg asked pid peer found pipe => ?_,
      fun negotiated history network run pid protoId member => ?_⟩,
    ⟨fun accepts protoId msg asked pid peer found pipe => ?_,
      fun negotiated history network run pid link found protoId msg asked => ?_⟩⟩
  · by_contra missing
    obtain ⟨bytes, encoded⟩ := admissible protoId msg asked
    obtain ⟨network, run⟩ := broadcast_breaks lawful asked encoded found pipe missing
    obtain ⟨_, decoded, length, decodes, member⟩ :=
      puts _ network run pid peer _ found List.mem_cons_self
    obtain ⟨_, _, same, rfl⟩ := lawful.protocolMsg _ _ encoded
    rw [same] at decodes
    cases decodes
    exact missing member
  · obtain ⟨_, known, harmless⟩ := (Network.sound_run lawful negotiated run).harmless _ _ member
    rw [found] at known
    cases known
    exact harmless
  · by_contra missing
    obtain ⟨bytes, encoded⟩ := admissible protoId msg asked
    obtain ⟨network, run⟩ := broadcast_breaks lawful asked encoded found pipe missing
    exact stops _ network run pid protoId (List.mem_cons_of_mem _ List.mem_cons_self)
  · obtain ⟨_, _, harmless⟩ := (Network.sound_run lawful negotiated run).harmless _ _ member
    exact harmless protoId rfl
  · obtain ⟨bytes, encoded⟩ := admissible protoId msg asked
    have started : (networkMachine deps pool).start.peers.lookup pid = some peer.link := by
      rw [lookup_start, found, Option.map_some]
    have sound := peer.established.sound lawful.streamInit
    exact (accepts [] _ .start pid peer.link started protoId msg asked).mp
      ((sound.send_accepts encoded).mpr (Or.inl pipe))
  · obtain ⟨bytes, encoded⟩ := admissible protoId msg asked
    obtain ⟨sound, peer, present, same, kind⟩ :=
      (Network.sound_run lawful negotiated run).links pid link found
    rw [sound.send_accepts encoded]
    refine ⟨fun either => either.elim (fun pipe => ?_) id, Or.inr⟩
    rw [same]
    exact negotiated protoId msg asked pid peer present (kind ▸ pipe)

/-- Encodings of the messages of the sample network. -/
def sampleWireDeps : WireDeps where
  protocolMsg := .ofTable [⟨"Alpha", [1]⟩, ⟨"Beta", [1]⟩]
  streamInit := .ofTable [⟨"Alpha"⟩]

theorem sampleWireDeps_lawful : sampleWireDeps.Lawful where
  protocolMsg := Bincode.ofTable_roundTrips _ fun _ => rfl
  streamInit := Bincode.ofTable_roundTrips _ fun _ => rfl

def onlyAlpha : HashSet ProtocolID := (∅ : HashSet ProtocolID).insert "Alpha" ()

def pipePeer : HonestPeer sampleWireDeps where
  link := ⟨onlyAlpha, .single (.fromQueued onlyAlpha), fun _ => [],
    .single (.fromQueued onlyAlpha), []⟩
  established := .built (fun _ => Iff.rfl) (Or.inl .pipe) rfl rfl

/-- A peer that was dialled over QUIC. -/
def quicPeer : HonestPeer sampleWireDeps where
  link := ⟨onlyAlpha, .mux ⟨openQueues ["Alpha"] ∅, buildRecvQueues onlyAlpha⟩, fun _ => [],
    .mux ⟨openQueues ["Alpha"] ∅, buildRecvQueues onlyAlpha⟩, []⟩
  established := by
    have opens : Opens sampleWireDeps onlyAlpha [[0, 0]] :=
      ⟨_, [⟨"Alpha", [0, 0]⟩], [⟨"Alpha", [0, 0]⟩], rfl, .refl _, .cons ⟨[], rfl⟩ .nil⟩
    have ends : Ends sampleWireDeps onlyAlpha ⟨.outbound, some ⟨[]⟩⟩ ⟨.inbound, some ⟨[[0, 0]]⟩⟩ :=
      .quic opens
    exact .built (fun _ => Iff.rfl) (Or.inl ends) rfl rfl

def pipePeerId : PeerID := ⟨Vector.replicate 32 1⟩
def quicPeerId : PeerID := ⟨Vector.replicate 32 2⟩

/-- Two peers that both negotiated one protocol. -/
def samplePool : HashMap PeerID (HonestPeer sampleWireDeps) :=
  ((∅ : HashMap PeerID (HonestPeer sampleWireDeps)).insert pipePeerId pipePeer).insert
    quicPeerId quicPeer

/-- The broadcasts are for one protocol and of one payload. -/
def broadcastsOnly (protoId : ProtocolID) (payload : Bytes) (_ : Network) : NetworkAction → Bool
  | .broadcast other msg => other = protoId ∧ msg = payload
  | _ => true

theorem requests_of_broadcastsOnly {protoId : ProtocolID} {payload : Bytes} (network : Network)
    (action : NetworkAction) (allowed : broadcastsOnly protoId payload network action = true) :
    Requests (fun other msg => other = protoId ∧ msg = payload) network action := by
  cases action with
  | broadcast other msg =>
    have asked : other = protoId ∧ msg = payload := of_decide_eq_true allowed
    exact asked
  | advance task | link pid action => trivial

/-- A broadcast for the protocol that both peers negotiated puts a message for it on the pipe, and
the reader goes on. -/
theorem broadcast_harmless_iff_alpha :
    ∃ history network, (networkMachine sampleWireDeps samplePool).Run
        (Requests fun protoId msg => protoId = "Alpha" ∧ msg = [1]) history network ∧
      history = [(pipePeerId, .put ⟨⟨.protocol⟩, []⟩)] ∧
      Carries sampleWireDeps onlyAlpha ⟨⟨.protocol⟩, []⟩ := by
  obtain ⟨network, taken⟩ : ∃ network,
      (networkMachine sampleWireDeps samplePool).reach (broadcastsOnly "Alpha" [1])
        [.broadcast "Alpha" [1], .advance 0, .advance 0, .link pipePeerId (.write none),
          .link pipePeerId (.read none)] = some (_, network) := ⟨_, rfl⟩
  have run := (Machine.Run.of_reach taken).mono requests_of_broadcastsOnly
  have admissible : ∀ protoId msg, protoId = "Alpha" ∧ msg = [1] →
      ∃ bytes, sampleWireDeps.protocolMsg.encode ⟨protoId, msg⟩ = .ok bytes := by
    rintro _ _ ⟨rfl, rfl⟩
    exact ⟨[], rfl⟩
  have negotiated : PipesNegotiated samplePool fun protoId msg =>
      protoId = "Alpha" ∧ msg = [1] := by
    rintro _ _ ⟨rfl, rfl⟩ pid peer found _
    rcases List.mem_cons.mp (AList.mem_lookup_iff.mp found) with same | member
    · cases same
      exact (AList.mem_insert _).mpr (Or.inl rfl)
    · cases List.mem_singleton.mp member
      exact (AList.mem_insert _).mpr (Or.inl rfl)
  have carries := (broadcast_harmless_iff sampleWireDeps_lawful samplePool _ admissible).1.mpr
    negotiated _ network run pipePeerId pipePeer _ rfl List.mem_cons_self
  exact ⟨_, network, run, rfl, carries⟩

/-- A broadcast for a protocol that the peer on the pipe did not negotiate is accepted by its
wire, is put on it, and stops the reader of that honest peer; the QUIC wire refuses it. -/
theorem broadcast_stops_reader :
    "Beta" ∉ pipePeer.link.negotiated ∧ "Beta" ∉ quicPeer.link.negotiated ∧
      (∃ sent, pipePeer.link.wire.send sampleWireDeps "Beta" [1] = .ok sent) ∧
      quicPeer.link.wire.send sampleWireDeps "Beta" [1] = .error (.unsupportedProtocol "Beta") ∧
      ∃ history network, (networkMachine sampleWireDeps samplePool).Run
          (Requests fun protoId msg => protoId = "Beta" ∧ msg = [1]) history network ∧
        history = [(pipePeerId, .put ⟨⟨.protocol⟩, [0]⟩),
          (pipePeerId, .stopped (.unsupportedProtocol "Beta"))] := by
  have taken : (networkMachine sampleWireDeps samplePool).reach (broadcastsOnly "Beta" [1])
      [.broadcast "Beta" [1], .advance 0, .advance 0, .link pipePeerId (.write none),
        .link pipePeerId (.read none)] = some (_, _) := rfl
  exact ⟨by decide, by decide, ⟨_, rfl⟩, rfl, _, _,
    (Machine.Run.of_reach taken).mono requests_of_broadcastsOnly, rfl⟩

end Karyon.P2p
