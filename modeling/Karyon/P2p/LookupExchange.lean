/-
This file models the two ends of a lookup exchange of `p2p/src/discovery/kademlia/lookup.rs`, each
against an arbitrary remote. The initiator is `handle_outbound`: it sends a ping, answers pongs with
a find-peer message, takes the peers and introduces itself. The responder is `handle_inbound`,
beside the rest of the node, which changes the table as well. Sends and receives may fail at any
time.

Neither end records how far the exchange has come. The initiator takes the peers of a remote that
sends them at once, and follows the exchange exactly if the first message that it receives is not a
peers message (`initiator_follows_iff`). The responder serves a remote that has not shown a
compatible version, unless the remote shows one before it asks (`responder_gated`).
-/

import Karyon.P2p.Lookup

namespace Karyon.P2p

open Transition

/-- A message that was sent or received on a lookup connection. -/
inductive ExchangeEvent where
  | sent (msg : KadMsg)
  | received (msg : KadMsg)
  deriving DecidableEq

def ExchangeEvent.receivedMsg : ExchangeEvent → Option KadMsg
  | .sent _ => none
  | .received msg => some msg

/-! ### The initiator -/

/-- Where `handle_outbound` waits: for one of its sends, or for a message. -/
inductive InitiatorPhase where
  | pinging
  | receiving
  | replying (msg : KadMsg)
  | introducing (peers : List PeerMsg)
  | closing (peers : List PeerMsg)
  | returned (result : Except Error (List PeerMsg))

/-- A send ends, with the bloom of the node at that time, or a message comes in; a message that
does not decode and a remote that does not answer in time are errors. -/
inductive InitiatorAction where
  | send (bloom : LocalBloom) (outcome : Except Error Unit)
  | recv (outcome : Except Error KadMsg)

section Initiator

variable {semver : Semver} (service : LookupService semver) (nonce : Nonce) (target : PeerID)

/-- What a send that has ended does to the phase, with the message that was sent. -/
def sendsOn (outcome : Except Error Unit) (msg : KadMsg) (next : InitiatorPhase) :
    Option (InitiatorPhase × List ExchangeEvent) :=
  match outcome with
  | .ok () => some (next, [.sent msg])
  | .error reason => some (.returned (.error reason), [])

/-- One step of `handle_outbound`. -/
def InitiatorPhase.step : InitiatorPhase → InitiatorAction →
    Option (InitiatorPhase × List ExchangeEvent)
  | .pinging, .send _ outcome =>
    sendsOn outcome (.ping service.config.version.v nonce) .receiving
  | .receiving, .recv (.ok msg) =>
    match LookupService.handleOutbound nonce target msg with
    | .ok (.replies reply) => some (.replying reply, [.received msg])
    | .ok (.found peers) => some (.introducing peers, [.received msg])
    | .error reason => some (.returned (.error reason), [.received msg])
  | .receiving, .recv (.error reason) => some (.returned (.error reason), [])
  | .replying reply, .send _ outcome => sendsOn outcome reply .receiving
  | .introducing peers, .send bloom outcome =>
    match service.sendPeerMsg bloom with
    | some msg => sendsOn outcome msg (.closing peers)
    | none => some (.closing peers, [])
  | .closing peers, .send _ outcome => sendsOn outcome .shutdown (.returned (.ok peers))
  | _, _ => none

def initiatorMachine : Machine InitiatorPhase InitiatorAction ExchangeEvent where
  start := .pinging
  step := InitiatorPhase.step service nonce target

/-- Pongs and the find-peer messages that answer them. -/
def rounds : Nat → List ExchangeEvent
  | 0 => []
  | count + 1 => .received (.pong nonce) :: .sent (.findPeer target) :: rounds count

theorem rounds_succ (count : Nat) :
    rounds nonce target (count + 1) =
      rounds nonce target count ++ [.received (.pong nonce), .sent (.findPeer target)] := by
  induction count with
  | zero => rfl
  | succ count inductionHypothesis =>
    exact congrArg (fun later => .received (.pong nonce) :: .sent (.findPeer target) :: later)
      inductionHypothesis

/-- What the initiator has done in each phase: the rounds of pongs, then the peers, then only
sends. -/
inductive Initiated : InitiatorPhase → List ExchangeEvent → Prop
  | pinging : Initiated .pinging []
  | receiving (count : Nat) : Initiated .receiving
      (.sent (.ping service.config.version.v nonce) :: rounds nonce target count)
  | replying (count : Nat) : Initiated (.replying (.findPeer target))
      (.sent (.ping service.config.version.v nonce) ::
        (rounds nonce target count ++ [.received (.pong nonce)]))
  | answered {phase : InitiatorPhase} {peers : List PeerMsg} (count : Nat) {raw : List PeerMsg}
      {sent : List ExchangeEvent}
      (waits : phase = .introducing peers ∨ phase = .closing peers ∨
        phase = .returned (.ok peers))
      (accepted : LookupService.acceptPeers raw = .ok peers)
      (sends : sent.filterMap ExchangeEvent.receivedMsg = []) : Initiated phase
      (.sent (.ping service.config.version.v nonce) ::
        (rounds nonce target count ++ .received (.peers raw) :: sent))
  | failed (reason : Error) (history : List ExchangeEvent) :
      Initiated (.returned (.error reason)) history

variable {service nonce target} {msg : KadMsg} {outcome : Except Error Unit}

/-- A send goes on or ends the exchange with an error. -/
theorem sendsOn_eq_some {next after : InitiatorPhase} {events : List ExchangeEvent}
    (taken : sendsOn outcome msg next = some (after, events)) :
    (after = next ∧ events = [.sent msg]) ∨ ∃ reason, after = .returned (.error reason) := by
  unfold sendsOn at taken
  split at taken
  · cases taken
    exact .inl ⟨rfl, rfl⟩
  · cases taken
    exact .inr ⟨_, rfl⟩

theorem handleOutbound_eq_ok {outbound : LookupService.Outbound}
    (handled : LookupService.handleOutbound nonce target msg = .ok outbound) :
    (msg = .pong nonce ∧ outbound = .replies (.findPeer target)) ∨
      ∃ raw peers, msg = .peers raw ∧ LookupService.acceptPeers raw = .ok peers ∧
        outbound = .found peers := by
  revert handled
  fun_cases LookupService.handleOutbound
  all_goals try rintro ⟨⟩
  next same => exact .inl ⟨by rw [not_not.mp same], rfl⟩
  next =>
    intro handled
    obtain ⟨peers, accepted, found⟩ := Fallible.bind_eq_ok.mp handled
    cases found
    exact .inr ⟨_, peers, rfl, accepted, rfl⟩

namespace Initiated

variable {phase next : InitiatorPhase} {history events : List ExchangeEvent}

theorem answered_send {peers raw : List PeerMsg} {sent : List ExchangeEvent} (count : Nat)
    (accepted : LookupService.acceptPeers raw = .ok peers)
    (sends : sent.filterMap ExchangeEvent.receivedMsg = [])
    (waits : next = .closing peers ∨ next = .returned (.ok peers)) {after : InitiatorPhase}
    (taken : sendsOn outcome msg next = some (after, events)) :
    Initiated service nonce target after
      (.sent (.ping service.config.version.v nonce) ::
        (rounds nonce target count ++ .received (.peers raw) :: sent) ++ events) := by
  rcases sendsOn_eq_some taken with ⟨rfl, rfl⟩ | ⟨reason, rfl⟩
  · rw [List.cons_append, List.append_assoc, List.cons_append]
    refine .answered count (.inr waits) accepted ?_
    rw [List.filterMap_append, sends]
    rfl
  · exact .failed reason _

theorem step {action : InitiatorAction} (initiated : Initiated service nonce target phase history)
    (taken : phase.step service nonce target action = some (next, events)) :
    Initiated service nonce target next (history ++ events) := by
  cases initiated with
  | pinging =>
    cases action with
    | send bloom outcome =>
      rcases sendsOn_eq_some taken with ⟨rfl, rfl⟩ | ⟨reason, rfl⟩
      · exact .receiving 0
      · exact .failed reason _
    | recv outcome => cases taken
  | receiving count =>
    cases action with
    | send bloom outcome => cases taken
    | recv outcome =>
      cases outcome with
      | error reason =>
        cases taken
        exact .failed reason _
      | ok msg =>
        unfold InitiatorPhase.step at taken
        dsimp only at taken
        split at taken
        · rename_i handled
          cases taken
          rcases handleOutbound_eq_ok handled with ⟨rfl, same⟩ | ⟨_, _, _, _, same⟩
          · cases same
            exact .replying count
          · cases same
        · rename_i handled
          cases taken
          rcases handleOutbound_eq_ok handled with ⟨rfl, same⟩ | ⟨raw, peers, rfl, accepted, same⟩
          · cases same
          · cases same
            exact .answered count (.inl rfl) accepted rfl
        · cases taken
          exact .failed _ _
  | replying count =>
    cases action with
    | send bloom outcome =>
      rcases sendsOn_eq_some taken with ⟨rfl, rfl⟩ | ⟨reason, rfl⟩
      · have more := @Initiated.receiving _ service nonce target (count + 1)
        rw [rounds_succ] at more
        rw [List.cons_append, List.append_assoc]
        exact more
      · exact .failed reason _
    | recv outcome => cases taken
  | answered count waits accepted sends =>
    rcases waits with rfl | rfl | rfl
    · cases action with
      | send bloom outcome =>
        unfold InitiatorPhase.step at taken
        dsimp only at taken
        split at taken
        · exact answered_send count accepted sends (.inl rfl) taken
        · cases taken
          rw [List.append_nil]
          exact .answered count (.inr (.inl rfl)) accepted sends
      | recv outcome => cases taken
    · cases action with
      | send bloom outcome => exact answered_send count accepted sends (.inr rfl) taken
      | recv outcome => cases taken
    · cases action <;> cases taken
  | failed reason history => cases action <;> cases taken

end Initiated

variable (service nonce target)

/-- The initiator sent its ping, received a pong with the nonce of the ping, sent the find-peer
message and received the peers message whose peers it returns, in this order. -/
def FollowsExchange (peers : List PeerMsg) (history : List ExchangeEvent) : Prop :=
  ∃ raw, LookupService.acceptPeers raw = .ok peers ∧
    List.Sublist [.sent (.ping service.config.version.v nonce), .received (.pong nonce),
      .sent (.findPeer target), .received (.peers raw)] history

def firstMessage (history : List ExchangeEvent) : Option KadMsg :=
  (history.filterMap ExchangeEvent.receivedMsg).head?

variable {service nonce target}

/-- The initiator returns only peers within the limits, and it has followed the exchange exactly if
the first message that it received is not a peers message. -/
theorem initiator_follows_iff {history : List ExchangeEvent} {peers : List PeerMsg}
    (run : (initiatorMachine service nonce target).Run (fun _ _ => True) history
      (.returned (.ok peers))) :
    (FollowsExchange service nonce target peers history ↔
      ∀ raw, firstMessage history ≠ some (.peers raw)) ∧
    ∀ peer ∈ peers, peer.addrs.length ≤ MAX_ADDRS_PER_PEER ∧
      peer.discoveryAddrs.length ≤ MAX_DISCOVERY_ADDRS_PER_PEER ∧
      (∀ addr ∈ peer.discoveryAddrs, addr.protocol ≠ .tls) ∧
      (peer.addrs ≠ [] ∨ peer.discoveryAddrs ≠ []) := by
  have initiated := run.invariant
    (fun history phase => Initiated service nonce target phase history) .pinging
    fun _ _ _ _ _ initiated _ taken => initiated.step taken
  cases initiated with
  | @answered phase own count raw sent waits accepted sends =>
    have same : own = peers := by
      rcases waits with same | same | same <;> cases same
      rfl
    subst same
    constructor
    · cases count with
      | zero =>
        refine iff_of_false ?_ fun other => other raw rfl
        rintro ⟨_, _, ordered⟩
        have pong := ordered.subset (List.mem_cons_of_mem _ List.mem_cons_self)
        rcases List.mem_cons.mp pong with same | pong
        · cases same
        · rcases List.mem_cons.mp pong with same | pong
          · cases same
          · have none := List.filterMap_eq_nil_iff.mp sends _ pong
            cases none
      | succ count =>
        refine iff_of_true ⟨raw, accepted, ?_⟩ ?_
        · refine .cons_cons _ (.cons_cons _ (.cons_cons _ (List.singleton_sublist.mpr ?_)))
          exact List.mem_append_right _ List.mem_cons_self
        · rintro other ⟨⟩
    · intro peer member
      have admissible := LookupService.acceptPeers_admissible accepted peer member
      refine ⟨admissible.addrs, admissible.discoveryAddrs, admissible.usable, ?_⟩
      have reachable := admissible.reachable
      rw [isReachable, Bool.or_eq_true, Bool.not_eq_true', Bool.not_eq_true',
        List.isEmpty_eq_false_iff, List.isEmpty_eq_false_iff] at reachable
      exact reachable

end Initiator

def sampleNonce : Nonce := Vector.replicate 32 5

def sampleTarget : PeerID := ⟨Vector.replicate 32 3⟩

/-- A remote that answers the ping first. -/
theorem initiator_follows_iff_pong :
    ∃ history, (initiatorMachine (listening 1 []) sampleNonce sampleTarget).Run
        (fun _ _ => True) history (.returned (.ok [(listening 2 [8000]).selfMsg .default])) ∧
      FollowsExchange (listening 1 []) sampleNonce sampleTarget
        [(listening 2 [8000]).selfMsg .default] history := by
  have taken : (initiatorMachine (listening 1 []) sampleNonce sampleTarget).trace
      [.send .default (.ok ()), .recv (.ok (.pong sampleNonce)), .send .default (.ok ()),
        .recv (.ok (.peers [(listening 2 [8000]).selfMsg .default])), .send .default (.ok ()),
        .send .default (.ok ())] = some (_, .returned (.ok _)) := rfl
  have run := Machine.Run.of_trace taken
  exact ⟨_, run, (initiator_follows_iff run).1.mpr (by rintro raw ⟨⟩)⟩

/-- The peers of a remote that never answered the ping are returned. -/
theorem initiator_follows_counterexample :
    ∃ history, (initiatorMachine (listening 1 []) sampleNonce sampleTarget).Run
        (fun _ _ => True) history (.returned (.ok [(listening 2 [8000]).selfMsg .default])) ∧
      history = [.sent (.ping ⟨1, 0, 0⟩ sampleNonce),
        .received (.peers [(listening 2 [8000]).selfMsg .default]),
        .sent (.peer ((listening 1 []).selfMsg .default)), .sent .shutdown] := by
  have taken : (initiatorMachine (listening 1 []) sampleNonce sampleTarget).trace
      [.send .default (.ok ()), .recv (.ok (.peers [(listening 2 [8000]).selfMsg .default])),
        .send .default (.ok ()), .send .default (.ok ())] = some (_, .returned (.ok _)) := rfl
  exact ⟨_, Machine.Run.of_trace taken, rfl⟩

/-! ### The responder -/

/-- What the responder did: it received or sent a message, or added an entry to the table. -/
inductive ResponderEvent where
  | exchanged (event : ExchangeEvent)
  | addEntry (entry : Entry)
  deriving DecidableEq

/-- Where `handle_inbound` waits: for a message, or for a reply to be sent. -/
inductive ResponderPhase where
  | receiving
  | replying (msg : KadMsg)
  | returned (result : Except Error Unit)

/-- The routing table of the node and one inbound connection. -/
structure Responder where
  table : RoutingTable
  phase : ResponderPhase

/-- A message comes in or the receive fails, a reply is sent or fails, the lifespan of the
connection ends, or the rest of the node changes the table. -/
inductive ResponderAction where
  | recv (outcome : Except Error KadMsg) (now : Int)
  | send (outcome : Except Error Unit)
  | expire
  | node (table : RoutingTable)

/-- The entry that a message adds to the table. -/
def addedEntry : KadMsg → Option Entry
  | .peer peer =>
    match validatePeerMsg peer with
    | .ok checked => if isReachable checked then some checked.toEntry else none
    | .error _ => none
  | _ => none

section Responder

variable {semver : Semver} (service : LookupService semver) (state : Responder)

/-- The rest of a turn after a message was handled. -/
def Responder.handled (msg : KadMsg) :
    Except Error LookupService.Inbound → Responder × List ResponderEvent
  | .error reason =>
    ({ state with phase := .returned (.error reason) }, [.exchanged (.received msg)])
  | .ok .ends => ({ state with phase := .returned (.ok ()) }, [.exchanged (.received msg)])
  | .ok (.goesOn reply table) =>
    ({ table
       phase := match reply with
         | some reply => .replying reply
         | none => .receiving },
      .exchanged (.received msg) :: (addedEntry msg).toList.map .addEntry)

def Responder.step (action : ResponderAction) : Option (Responder × List ResponderEvent) :=
  match state.phase, action with
  | _, .node table => some ({ state with table }, [])
  | .receiving, .recv (.ok msg) now =>
    some (state.handled msg (service.handleInbound state.table now msg))
  | .receiving, .recv (.error reason) _ =>
    some ({ state with phase := .returned (.error reason) }, [])
  | .replying reply, .send (.ok ()) =>
    some ({ state with phase := .receiving }, [.exchanged (.sent reply)])
  | .replying _, .send (.error reason) =>
    some ({ state with phase := .returned (.error reason) }, [])
  | .receiving, .expire | .replying _, .expire =>
    some ({ state with phase := .returned (.error (.karyonCore "Timeout Error")) }, [])
  | _, _ => none

def responderMachine (table : RoutingTable) : Machine Responder ResponderAction ResponderEvent where
  start := { table, phase := .receiving }
  step := Responder.step service

/-- The remote has shown a version that the node accepts. -/
def Shown (before : List ResponderEvent) : Prop :=
  ∃ version nonce, .exchanged (.received (.ping version nonce)) ∈ before ∧
    semver.matches service.config.version.req version = true

/-- What needs a compatible version: to send peers, and to add an entry. -/
def ResponderEvent.Gated : ResponderEvent → Prop
  | .exchanged (.sent (.peers _)) | .addEntry _ => True
  | _ => False

/-- The messages that ask for it. -/
def ResponderEvent.Asks : ResponderEvent → Prop
  | .exchanged (.received (.findPeer _)) | .exchanged (.received (.peer _)) => True
  | _ => False

variable {service}

/-- What a message that is handled does to the table, and what it is answered with. -/
theorem handleInbound_goesOn {table after : RoutingTable} {now : Int} {reply : Option KadMsg}
    (handled : service.handleInbound table now msg = .ok (.goesOn reply after)) :
    (∀ peers, reply = some (.peers peers) → ∃ target, msg = .findPeer target) ∧
      (after = table ∨ ∃ entry, addedEntry msg = some entry ∧
        after = (table.addEntry entry now).1) := by
  revert handled
  fun_cases LookupService.handleInbound
  all_goals try rintro ⟨⟩
  next =>
    refine ⟨?_, .inl rfl⟩
    rintro peers ⟨⟩
  next => exact ⟨fun _ _ => ⟨_, rfl⟩, .inl rfl⟩
  next =>
    intro handled
    obtain ⟨next, peered, ⟨⟩⟩ := Fallible.bind_eq_ok.mp handled
    refine ⟨by rintro peers ⟨⟩, ?_⟩
    rcases LookupService.handlePeer_eq_ok peered with same | ⟨checked, validated, admissible, same⟩
    · exact .inl same
    · refine .inr ⟨checked.toEntry, ?_, same⟩
      rw [addedEntry, validated]
      exact if_pos admissible.reachable

/-- Every gated event was asked for, and so was a reply that is about to be sent. -/
structure Responder.Caused (history : List ResponderEvent) : Prop where
  events : Justified (fun before event => event.Gated → ∃ asked ∈ before, asked.Asks) history
  reply : ∀ peers, state.phase = .replying (.peers peers) → ∃ asked ∈ history, asked.Asks

namespace Responder.Caused

variable {state next : Responder} {history events : List ResponderEvent}
  (caused : state.Caused history)

include caused

/-- The phase changes to one without a reply of peers, after events that are not gated. -/
theorem phase (free : ∀ event ∈ events, ¬ event.Gated)
    (other : ∀ peers, next.phase ≠ .replying (.peers peers)) : next.Caused (history ++ events) where
  events := caused.events.append fun event member _ gated => absurd gated (free event member)
  reply peers replying := absurd replying (other peers)

theorem handled {now : Int} :
    Caused (state.handled msg (service.handleInbound state.table now msg)).1
      (history ++ (state.handled msg (service.handleInbound state.table now msg)).2) := by
  have received : ∀ event ∈ [ResponderEvent.exchanged (.received msg)], ¬ event.Gated := by
    intro event member
    rw [List.mem_singleton.mp member]
    rintro ⟨⟩
  cases found : service.handleInbound state.table now msg with
  | error reason => exact caused.phase received (by rintro peers ⟨⟩)
  | ok inbound =>
    cases inbound with
    | ends => exact caused.phase received (by rintro peers ⟨⟩)
    | goesOn reply table =>
      obtain ⟨replied, _⟩ := handleInbound_goesOn found
      have base : Justified (fun before event => event.Gated → ∃ asked ∈ before, asked.Asks)
          (history ++ [.exchanged (.received msg)]) :=
        caused.events.append fun event member _ gated => absurd gated (received event member)
      constructor
      · show Justified _ (history ++ .exchanged (.received msg) ::
          (addedEntry msg).toList.map .addEntry)
        rw [List.append_cons]
        cases added : addedEntry msg with
        | none =>
          rw [Option.toList_none, List.map_nil, List.append_nil]
          exact base
        | some entry =>
          refine base.concat fun _ => ⟨_, List.mem_concat_self, ?_⟩
          cases msg with
          | peer peer => trivial
          | _ => cases added
      · intro peers replying
        refine ⟨.exchanged (.received msg), List.mem_append_right _ List.mem_cons_self, ?_⟩
        cases reply with
        | none => cases replying
        | some reply =>
          cases replying
          obtain ⟨target, rfl⟩ := replied peers rfl
          trivial

theorem step {action : ResponderAction}
    (taken : state.step service action = some (next, events)) :
    next.Caused (history ++ events) := by
  revert taken
  fun_cases Responder.step
  all_goals try rintro ⟨⟩
  -- The exchange ends and sends nothing.
  all_goals try
    exact caused.phase (fun _ member => absurd member List.not_mem_nil) (by rintro peers ⟨⟩)
  next =>
    rw [List.append_nil]
    exact ⟨caused.events, caused.reply⟩
  next =>
    intro taken
    obtain ⟨rfl, rfl⟩ := Prod.mk.inj (Option.some.inj taken).symm
    exact caused.handled
  next reply waits =>
    refine ⟨caused.events.concat fun gated => ?_, by rintro peers ⟨⟩⟩
    cases reply with
    | peers peers => exact caused.reply peers waits
    | _ => cases gated

end Responder.Caused

/-- A step of the connection changes the table only by adding the entry of an event. -/
theorem Responder.table_of_step {state next : Responder} {action : ResponderAction}
    {events : List ResponderEvent} (taken : state.step service action = some (next, events)) :
    next.table = state.table ∨ (∃ table, action = .node table) ∨
      ∃ entry now, .addEntry entry ∈ events ∧ next.table = (state.table.addEntry entry now).1 := by
  unfold Responder.step at taken
  split at taken
  · exact .inr (.inl ⟨_, rfl⟩)
  · rename_i msg now _
    obtain ⟨rfl, rfl⟩ := Prod.mk.inj (Option.some.inj taken).symm
    cases found : service.handleInbound state.table now msg with
    | error reason => exact .inl rfl
    | ok inbound =>
      cases inbound with
      | ends => exact .inl rfl
      | goesOn reply table =>
        rcases (handleInbound_goesOn found).2 with same | ⟨entry, added, same⟩
        · exact .inl same
        · refine .inr (.inr ⟨entry, now, List.mem_cons_of_mem _ ?_, same⟩)
          rw [added]
          exact List.mem_singleton_self _
  all_goals first | (cases taken; exact .inl rfl) | cases taken

/-- The responder sends peers and adds entries only for a remote that has shown a compatible
version, if the remote asks only after it has shown one. -/
theorem responder_gated {table : RoutingTable} {state : Responder}
    {history : List ResponderEvent}
    (run : (responderMachine service table).Run (fun _ _ => True) history state)
    (polite : Justified (fun before event => event.Asks → Shown service before) history) :
    Justified (fun before event => event.Gated → Shown service before) history ∧
    ∀ action next events, state.step service action = some (next, events) →
      next.table = state.table ∨ (∃ table, action = .node table) ∨
        ∃ entry now, .addEntry entry ∈ events ∧
          next.table = (state.table.addEntry entry now).1 := by
  have caused := run.invariant (fun history state => state.Caused history)
    ⟨Justified.nil, by rintro peers ⟨⟩⟩ fun _ _ _ _ _ caused _ taken => caused.step taken
  refine ⟨fun before event start gated => ?_, fun _ _ _ => Responder.table_of_step⟩
  obtain ⟨asked, member, asks⟩ := caused.events before event start gated
  have earlier := polite.of_prefix ((List.prefix_append _ _).trans start)
  obtain ⟨first, within, shown⟩ := earlier.of_mem member
  obtain ⟨version, nonce, ping, compatible⟩ := shown asks
  have sooner := (List.prefix_append _ _).trans within
  exact ⟨version, nonce, sooner.subset ping, compatible⟩

end Responder

/-- A remote that shows its version is answered then. -/
theorem responder_gated_ping :
    ∃ history state,
      (responderMachine (listening 1 []) (.new (Vector.replicate 32 1))).Run (fun _ _ => True)
        history state ∧
      history = [.exchanged (.received (.ping ⟨1, 2, 0⟩ sampleNonce)),
        .exchanged (.sent (.pong sampleNonce)),
        .exchanged (.received (.findPeer sampleTarget)), .exchanged (.sent (.peers []))] ∧
      Justified (fun before event => event.Gated → Shown (listening 1 []) before) history := by
  refine Machine.trace_run _ [.recv (.ok (.ping ⟨1, 2, 0⟩ sampleNonce)) 0, .send (.ok ()),
      .recv (.ok (.findPeer sampleTarget)) 0, .send (.ok ())] (by decide +kernel)
    fun _ _ run events => ⟨events, (responder_gated run ?_).1⟩
  cases events
  refine (((Justified.nil.concat ?_).concat ?_).concat fun _ => ?_).concat ?_
  · rintro ⟨⟩
  · rintro ⟨⟩
  · exact ⟨⟨1, 2, 0⟩, sampleNonce, List.mem_cons_self, rfl⟩
  · rintro ⟨⟩

/-- A remote that has shown no version is answered, and its entry is added. -/
theorem responder_gated_counterexample :
    ∃ history state,
      (responderMachine (listening 1 []) (.new (Vector.replicate 32 1))).Run (fun _ _ => True)
        history state ∧
      (history, state.table.containsKey (Vector.replicate 32 2)) =
        ([.exchanged (.received (.findPeer sampleTarget)), .exchanged (.sent (.peers [])),
          .exchanged (.received (.peer ((listening 2 [8000]).selfMsg .default))),
          .addEntry ((listening 2 [8000]).selfMsg .default).toEntry], true) := by
  exact Machine.trace_holds [.recv (.ok (.findPeer sampleTarget)) 0, .send (.ok ()),
    .recv (.ok (.peer ((listening 2 [8000]).selfMsg .default))) 0] (by decide +kernel)

end Karyon.P2p
