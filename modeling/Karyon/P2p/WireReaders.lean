/-
This file follows the messages that an arbitrary remote sends through the readers of the two wires
of `p2p/src/peer/connection.rs` into the receive queues of the protocols. The readers take their
turns in any order, the protocols take events out of their queues, and a shutdown puts its event
into them.

The reader of a pipe finds the queue by the protocol that a message names and stops the peer if
there is none. The reader of a QUIC stream has the queue of its protocol and does not look at what
the message names. Nothing reaches the wrong queue, and what is not expected stops the peer, exactly
if every message on a QUIC stream names the protocol of the stream (`noInjection_iff`).
-/

import Karyon.P2p.QuicStreams

namespace Karyon.P2p

open Transition

/-! ### The readers -/

/-- The wire, its readers with whether they have ended, and the channel for the reason to stop. -/
structure Reading where
  wire : Wire
  readers : List (StreamKey × Bool)
  stopReason : Option Error

/-- What became of a message: its payload was put into the queue of a protocol, or the reader left
a reason to stop and ended. -/
inductive ReadOutcome where
  | placed (protoId : ProtocolID) (payload : Bytes)
  | stopped (reason : Error)

/-- A message that a reader received, and what became of it. -/
structure ReadEvent where
  key : StreamKey
  msg : PeerNetMsg
  outcome : ReadOutcome

/-- What can happen next: a reader receives a message or an error, a protocol takes an event, or
a shutdown puts its event into a queue. -/
inductive ReadAction where
  | receive (reader : Nat) (msg : PeerNetMsg)
  | fail (reader : Nat) (reason : Error)
  | recv (protoId : ProtocolID)
  | pushShutdown (protoId : ProtocolID)

namespace Reading

variable (deps : WireDeps) (state : Reading)

/-- The reader leaves a reason and ends. A reason that is there already is kept. -/
def stop (reader : Nat) (key : StreamKey) (reason : Error) : Reading where
  wire := state.wire
  readers := state.readers.set reader (key, true)
  stopReason := state.stopReason.or (some reason)

/-- One turn of a reader with a message. It waits as long as the queue is full. -/
def receive (reader : Nat) (msg : PeerNetMsg) : Option (Reading × List ReadEvent) :=
  match state.readers[reader]? with
  | some (key, false) =>
    match state.wire.read deps key msg, routed deps key msg with
    | some (.ok (some wire)), some (protoId, payload) =>
      some ({ state with wire }, [⟨key, msg, .placed protoId payload⟩])
    | some (.error reason), _ =>
      some (state.stop reader key reason, [⟨key, msg, .stopped reason⟩])
    | _, _ => none
  | _ => none

def fail (reader : Nat) (reason : Error) : Option Reading :=
  match state.readers[reader]? with
  | some (key, false) => some (state.stop reader key reason)
  | _ => none

def recv (protoId : ProtocolID) : Option Reading :=
  match state.wire.recv protoId with
  | .ok (some (_, wire)) => some { state with wire }
  | _ => none

def pushShutdown (protoId : ProtocolID) : Option Reading := do
  let queue ← state.wire.recvQueues.lookup protoId
  let queue ← pushQueue RECV_QUEUE_SIZE queue .shutdown
  return { state with
    wire := state.wire.withRecvQueues (state.wire.recvQueues.insert protoId queue) }

def step : ReadAction → Option (Reading × List ReadEvent)
  | .receive reader msg => state.receive deps reader msg
  | .fail reader reason => (state.fail reader reason).map fun next => (next, [])
  | .recv protoId => (state.recv protoId).map fun next => (next, [])
  | .pushShutdown protoId => (state.pushShutdown protoId).map fun next => (next, [])

end Reading

variable (deps : WireDeps)

/-- The readers that are spawned for a connection: one for a pipe, one for each stream. -/
def readerKeys (queued : QueuedConn) (negotiated : HashSet ProtocolID) :
    Except Error (List StreamKey) :=
  match queued.quicConn with
  | some quicConn => do
    let (_, streams) ← setupQuicStreams deps quicConn queued.direction negotiated
    return streams.map fun stream => some stream.protoId
  | none => .ok [none]

def Reading.fromQueued (queued : QueuedConn) (negotiated : HashSet ProtocolID) :
    Except Error Reading := do
  let wire ← Wire.fromQueued deps queued negotiated
  let keys ← readerKeys deps queued negotiated
  return { wire, readers := keys.map fun key => (key, false), stopReason := none }

def readerMachine (start : Reading) : Machine Reading ReadAction ReadEvent where
  start := start
  step := Reading.step deps

/-! ### What one turn can do -/

/-- The message is a message of the protocol with the payload. -/
def PeerNetMsg.Names (msg : PeerNetMsg) (protoId : ProtocolID) (payload : Bytes) : Prop :=
  msg.header.command = .protocol ∧
    ∃ length, deps.protocolMsg.decode msg.payload = .ok (⟨protoId, payload⟩, length)

variable {msg : PeerNetMsg} {payload : Bytes}

theorem PeerNetMsg.Names.unique {deps : WireDeps} {first second : ProtocolID} {body : Bytes}
    (names : msg.Names deps first payload) (again : msg.Names deps second body) :
    first = second ∧ payload = body := by
  obtain ⟨_, length, decodes⟩ := names
  obtain ⟨_, length', decodes'⟩ := again
  rw [decodes] at decodes'
  cases decodes'
  exact ⟨rfl, rfl⟩

variable (negotiated : HashSet ProtocolID)

/-- The protocol is one that messages may name: a negotiated one on a pipe, its own on a stream. -/
def Expected : StreamKey → ProtocolID → Prop
  | none, protoId => protoId ∈ negotiated
  | some own, protoId => protoId = own

/-- What the readers do, with the queues of the negotiated protocols. -/
def ReadOutcome.Sound (key : StreamKey) (msg : PeerNetMsg) : ReadOutcome → Prop
  | .placed protoId payload => protoId ∈ negotiated ∧
      ∃ named, msg.Names deps named payload ∧ protoId = key.getD named
  | .stopped _ => ∀ named payload, msg.Names deps named payload →
      key = none ∧ named ∉ negotiated

variable {deps : WireDeps} {negotiated : HashSet ProtocolID} {protoId : ProtocolID}

theorem names_of_routed {key : StreamKey} (route : routed deps key msg = some (protoId, payload)) :
    ∃ named, msg.Names deps named payload ∧ protoId = key.getD named := by
  revert route
  fun_cases routed <;> rintro ⟨⟩
  rename_i protoMsg length decodes command
  exact ⟨protoMsg.protocolId, ⟨command, length, decodes⟩, rfl⟩

/-- The receive queues of a new wire are those of the negotiated protocols, and they are empty. -/
theorem Wire.recvQueues_fromQueued {queued : QueuedConn} {wire : Wire}
    (built : Wire.fromQueued deps queued negotiated = .ok wire) :
    wire.recvQueues = buildRecvQueues negotiated := by
  rcases fromQueued_eq_ok built with ⟨_, rfl⟩ | ⟨_, _, _, _, rfl⟩
  · rfl
  · rfl

/-! ### The invariant -/

/-- Every turn was sound, the queues are those of the negotiated protocols, and every message in
them was placed there. -/
structure Reading.Tracked (deps : WireDeps) (negotiated : HashSet ProtocolID) (state : Reading)
    (history : List ReadEvent) : Prop where
  sound : ∀ event ∈ history, event.outcome.Sound deps negotiated event.key event.msg
  served : ∀ protoId, (state.wire.recvQueues.lookup protoId).isSome = true ↔
    protoId ∈ negotiated
  placed : ∀ protoId queue payload, state.wire.recvQueues.lookup protoId = some queue →
    .message payload ∈ queue →
      ∃ key msg, (⟨key, msg, .placed protoId payload⟩ : ReadEvent) ∈ history
  stops : ∀ event ∈ history, ∀ reason, event.outcome = .stopped reason →
    state.stopReason.isSome = true

namespace Reading.Tracked

variable {state : Reading} {history : List ReadEvent} {events : List ReadEvent}

section

variable (tracked : state.Tracked deps negotiated history)

include tracked

theorem insert {queue next : List ProtocolEvent}
    (found : state.wire.recvQueues.lookup protoId = some queue)
    (contents : ∀ payload, .message payload ∈ next → .message payload ∈ queue ∨
      ∃ key msg, (⟨key, msg, .placed protoId payload⟩ : ReadEvent) ∈ events)
    (sound : ∀ event ∈ events, event.outcome.Sound deps negotiated event.key event.msg ∧
      ∀ reason, event.outcome ≠ .stopped reason) :
    Tracked deps negotiated
      { state with
        wire := state.wire.withRecvQueues (state.wire.recvQueues.insert protoId next) }
      (history ++ events) := by
  have lookup (other : ProtocolID) :
      ((state.wire.withRecvQueues (state.wire.recvQueues.insert protoId next)).recvQueues).lookup
        other = if other = protoId then some next else state.wire.recvQueues.lookup other := by
    rw [Wire.recvQueues_withRecvQueues]
    by_cases same : other = protoId
    · rw [same, if_pos rfl, AList.lookup_insert]
    · rw [if_neg same, AList.lookup_insert_ne same]
  refine ⟨fun event member => ?_, fun other => ?_, fun other after payload looked inside => ?_,
    fun event member reason same => ?_⟩
  · rcases List.mem_append.mp member with before | new
    · exact tracked.sound event before
    · exact (sound event new).1
  · rw [lookup]
    split
    · rename_i same
      rw [same, ← tracked.served, found]
      exact iff_of_true rfl rfl
    · exact tracked.served other
  · rw [lookup] at looked
    split at looked
    · rename_i same
      cases looked
      rw [same]
      rcases contents payload inside with before | ⟨key, msg, new⟩
      · obtain ⟨key, msg, earlier⟩ := tracked.placed protoId queue payload found before
        exact ⟨key, msg, List.mem_append_left _ earlier⟩
      · exact ⟨key, msg, List.mem_append_right _ new⟩
    · obtain ⟨key, msg, earlier⟩ := tracked.placed other after payload looked inside
      exact ⟨key, msg, List.mem_append_left _ earlier⟩
  · rcases List.mem_append.mp member with before | new
    · exact tracked.stops event before reason same
    · exact absurd same ((sound event new).2 reason)

theorem stop (reader : Nat) (key : StreamKey) (reason : Error)
    (sound : ∀ event ∈ events, event.outcome.Sound deps negotiated event.key event.msg) :
    Tracked deps negotiated (state.stop reader key reason) (history ++ events) where
  sound event member := by
    rcases List.mem_append.mp member with before | new
    · exact tracked.sound event before
    · exact sound event new
  served := tracked.served
  placed protoId queue payload found inside := by
    obtain ⟨key, msg, earlier⟩ := tracked.placed protoId queue payload found inside
    exact ⟨key, msg, List.mem_append_left _ earlier⟩
  stops event member other same := by
    show (state.stopReason.or (some reason)).isSome = true
    cases state.stopReason <;> rfl

theorem receive {reader : Nat} {next : Reading}
    (taken : state.receive deps reader msg = some (next, events)) :
    next.Tracked deps negotiated (history ++ events) := by
  revert taken
  fun_cases Reading.receive
  all_goals rintro ⟨⟩
  next key _ _ _ _ route read =>
    obtain ⟨name, queue, body, own, found, rfl⟩ := Wire.read_eq_ok read
    rw [route] at own
    cases own
    refine tracked.insert found (fun other inside => ?_) fun event member => ?_
    · rcases mem_concat.mp inside with before | ⟨⟨⟩⟩
      · exact .inl before
      · exact .inr ⟨key, msg, List.mem_singleton_self _⟩
    · rw [List.mem_singleton.mp member]
      refine ⟨⟨(tracked.served _).mp (by rw [found]; rfl), names_of_routed route⟩, ?_⟩
      rintro reason ⟨⟩
  next key _ reason read =>
    refine tracked.stop reader key reason fun event member => ?_
    rw [List.mem_singleton.mp member]
    rintro named payload ⟨command, length, decodes⟩
    obtain ⟨pipe, missing⟩ := Wire.read_eq_error command decodes read
    refine ⟨pipe, fun member => ?_⟩
    have some_ := (tracked.served named).mpr member
    rw [missing] at some_
    cases some_

theorem step {action : ReadAction} {next : Reading}
    (taken : state.step deps action = some (next, events)) :
    next.Tracked deps negotiated (history ++ events) := by
  cases action with
  | receive reader msg => exact tracked.receive taken
  | fail reader reason =>
    obtain ⟨after, failed, ⟨⟩⟩ := Option.map_eq_some_iff.mp taken
    unfold Reading.fail at failed
    split at failed
    · cases failed
      exact tracked.stop reader _ reason fun event member => absurd member List.not_mem_nil
    · cases failed
  | recv protoId =>
    obtain ⟨after, received, ⟨⟩⟩ := Option.map_eq_some_iff.mp taken
    unfold Reading.recv at received
    split at received
    · rename_i popped
      cases received
      obtain ⟨rest, found, rfl⟩ := Wire.recv_eq_ok popped
      exact tracked.insert found (fun _ inside => .inl (List.mem_cons_of_mem _ inside))
        fun event member => absurd member List.not_mem_nil
    · cases received
  | pushShutdown protoId =>
    obtain ⟨after, pushed, ⟨⟩⟩ := Option.map_eq_some_iff.mp taken
    obtain ⟨queue, found, rest⟩ := Option.bind_eq_some_iff.mp pushed
    obtain ⟨longer, room, ⟨⟩⟩ := Option.bind_eq_some_iff.mp rest
    rw [(pushQueue_eq_some.mp room).2]
    refine tracked.insert found (fun payload inside => .inl ?_) fun event member =>
      absurd member List.not_mem_nil
    rcases mem_concat.mp inside with before | ⟨⟨⟩⟩
    exact before

end

theorem start {queued : QueuedConn}
    (built : Reading.fromQueued deps queued negotiated = .ok state) :
    state.Tracked deps negotiated [] := by
  obtain ⟨wire, own, rest⟩ := Fallible.bind_eq_ok.mp built
  obtain ⟨keys, _, ⟨⟩⟩ := Fallible.bind_eq_ok.mp rest
  have lookup (protoId : ProtocolID) : wire.recvQueues.lookup protoId =
      if protoId ∈ negotiated then some [] else none := by
    rw [Wire.recvQueues_fromQueued own, lookup_buildRecvQueues]
  refine ⟨fun event member => absurd member List.not_mem_nil, fun protoId => ?_,
    fun protoId queue payload found inside => ?_,
    fun event member => absurd member List.not_mem_nil⟩
  · show (wire.recvQueues.lookup protoId).isSome = true ↔ _
    rw [lookup]
    split
    · rename_i member
      exact iff_of_true rfl member
    · rename_i absent
      exact iff_of_false Bool.false_ne_true absent
  · have own : wire.recvQueues.lookup protoId = some queue := found
    rw [lookup] at own
    split at own
    · cases own
      cases inside
    · cases own

end Reading.Tracked

/-! ### No injection -/

/-- What was put into the queue of a protocol are payloads of received messages that name the
protocol, and a message that names a protocol that is not expected stops the peer. -/
structure NoInjection (deps : WireDeps) (negotiated : HashSet ProtocolID) (state : Reading)
    (history : List ReadEvent) : Prop where
  placed : ∀ key msg protoId payload,
    (⟨key, msg, .placed protoId payload⟩ : ReadEvent) ∈ history → msg.Names deps protoId payload
  queued : ∀ protoId queue payload, state.wire.recvQueues.lookup protoId = some queue →
    .message payload ∈ queue → ∃ event ∈ history, event.msg.Names deps protoId payload
  stopped : ∀ event ∈ history, ∀ named payload, event.msg.Names deps named payload →
    ¬ Expected negotiated event.key named →
      (∃ reason, event.outcome = .stopped reason) ∧ state.stopReason.isSome = true

/-- On both wires nothing is injected exactly if every message that was received on the stream of a
protocol names that protocol. -/
theorem noInjection_iff {queued : QueuedConn} {start state : Reading} {history : List ReadEvent}
    (built : Reading.fromQueued deps queued negotiated = .ok start)
    (run : (readerMachine deps start).Run (fun _ _ => True) history state) :
    NoInjection deps negotiated state history ↔
      ∀ event ∈ history, ∀ own, event.key = some own →
        ∀ named payload, event.msg.Names deps named payload → named = own := by
  have tracked : state.Tracked deps negotiated history :=
    run.invariant (fun history state => state.Tracked deps negotiated history)
      (.start built) fun _ _ _ _ _ tracked _ taken => tracked.step taken
  constructor
  · intro safe event member own key named payload names
    by_contra other
    obtain ⟨⟨reason, stopped⟩, _⟩ := safe.stopped event member named payload names
      (by rw [key]; exact other)
    have sound := tracked.sound event member
    rw [stopped] at sound
    have pipe := (sound named payload names).1
    rw [key] at pipe
    cases pipe
  · intro agreed
    have placed : ∀ key msg protoId payload,
        (⟨key, msg, .placed protoId payload⟩ : ReadEvent) ∈ history →
          msg.Names deps protoId payload := by
      intro key msg protoId payload member
      obtain ⟨_, named, names, route⟩ := tracked.sound _ member
      cases key with
      | none =>
        rw [route]
        exact names
      | some own =>
        rw [route, Option.getD_some, ← agreed _ member own rfl named payload names]
        exact names
    refine ⟨placed, fun protoId queue payload found inside => ?_,
      fun event member named payload names other => ?_⟩
    · obtain ⟨key, msg, earlier⟩ := tracked.placed protoId queue payload found inside
      exact ⟨_, earlier, placed _ _ _ _ earlier⟩
    · have stopped : ∃ reason, event.outcome = .stopped reason := by
        have sound := tracked.sound event member
        obtain ⟨key, msg, outcome⟩ := event
        cases outcome with
        | stopped reason => exact ⟨reason, rfl⟩
        | placed protoId body =>
          cases key with
          | some own => exact absurd (agreed _ member own rfl named payload names) other
          | none =>
            obtain ⟨served, other', names', rfl⟩ := sound
            rw [(names.unique names').1] at other
            exact absurd served other
      obtain ⟨reason, same⟩ := stopped
      exact ⟨⟨reason, same⟩, tracked.stops event member reason same⟩

/-- The accepting end of a QUIC connection with a stream for each of two protocols. -/
def chatReading : Reading where
  wire := .mux ⟨openQueues ["Chat", "Ping"] ∅, buildRecvQueues pingAndChat⟩
  readers := [(some "Chat", false), (some "Ping", false)]
  stopReason := none

/-- A message on the stream of the protocol that it names. -/
theorem noInjection_iff_chat :
    Reading.fromQueued twoProtocolDeps ⟨.inbound, some ⟨[[1, 0, 0], [0, 0]]⟩⟩ pingAndChat =
        .ok chatReading ∧
      ∃ history state, (readerMachine twoProtocolDeps chatReading).Run (fun _ _ => True)
          history state ∧
        history = [⟨some "Chat", ⟨⟨.protocol⟩, [0]⟩, .placed "Chat" [7]⟩] ∧
        NoInjection twoProtocolDeps pingAndChat state history := by
  have built : Reading.fromQueued twoProtocolDeps ⟨.inbound, some ⟨[[1, 0, 0], [0, 0]]⟩⟩
      pingAndChat = .ok chatReading := rfl
  refine ⟨built, Machine.trace_run _ [.receive 0 ⟨⟨.protocol⟩, [0]⟩] ⟨_, rfl, rfl⟩
    fun history state run observed => ⟨observed, (noInjection_iff built run).mpr ?_⟩⟩
  rintro event member own key named payload ⟨_, length, decodes⟩
  rw [show history = _ from observed] at member
  rw [List.mem_singleton.mp member] at key decodes
  cases key
  cases decodes
  rfl

/-- A message that names one protocol is put into the queue of the other, on whose stream it comes,
and the peer goes on. -/
theorem noInjection_counterexample :
    twoProtocolDeps.protocolMsg.decode [] = .ok (⟨"Ping", [7]⟩, 0) ∧
      ∃ history state, (readerMachine twoProtocolDeps chatReading).Run (fun _ _ => True)
          history state ∧
        (history, state.wire.recvQueues.lookup "Chat", state.stopReason) =
          ([⟨some "Chat", ⟨⟨.protocol⟩, []⟩, .placed "Chat" [7]⟩], some [.message [7]], none) := by
  exact ⟨rfl, Machine.trace_holds [.receive 0 ⟨⟨.protocol⟩, []⟩] ⟨_, rfl, rfl⟩⟩

end Karyon.P2p
