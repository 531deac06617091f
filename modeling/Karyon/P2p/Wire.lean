/-
This file models the two wires of `p2p/src/peer/connection.rs`: the single pipe of a TCP or TLS
connection, and the QUIC connection with one stream for each protocol.

A wire is built after the handshake from the negotiated protocols. Every protocol has a queue for
what it receives; a single pipe has one queue for everything that is sent, a QUIC connection has one
for each stream. The queues are the bounded buffers that the asynchronous queue implements: a push
into a full queue waits, which is `none` here. The tasks of a wire are the functions that say what
one turn of their loops does.

On a QUIC connection the dialling end opens a stream for each protocol and says on it which protocol
it is for; the other end accepts as many streams. Between two ends that agree on the protocols, both
have a stream for exactly these (`Ends.built_dialled`, `Ends.built_accepted`).
-/

import Karyon.Core.QueueFifo
import Karyon.Lib.Framing
import Karyon.P2p.Message

namespace Karyon.P2p

open Framing

/-! ### Queues -/

def SEND_QUEUE_SIZE : Nat := 128
def RECV_QUEUE_SIZE : Nat := 128

/-- Push into a queue; a full queue makes the caller wait. -/
def pushQueue {Item : Type} (capacity : Nat) (queue : List Item) (item : Item) :
    Option (List Item) :=
  ((Core.boundedBuffer Item capacity).step queue (.push item)).map Prod.fst

theorem pushQueue_eq_some {Item : Type} {capacity : Nat} {queue next : List Item} {item : Item} :
    pushQueue capacity queue item = some next ↔
      queue.length < capacity ∧ next = queue ++ [item] := by
  simp only [pushQueue, Core.boundedBuffer]
  by_cases room : queue.length < capacity
  · rw [if_pos room, Option.map_some, Option.some_inj]
    exact ⟨fun same => ⟨room, same.symm⟩, fun pushed => pushed.2.symm⟩
  · rw [if_neg room, Option.map_none]
    exact ⟨fun waits => absurd waits (Option.some_ne_none next).symm,
      fun pushed => absurd pushed.1 room⟩

/-! ### The wires -/

/-- What a protocol receives. -/
inductive ProtocolEvent where
  | message (payload : Bytes)
  | shutdown
  deriving DecidableEq

/-- The first message on a QUIC stream. -/
structure StreamInit where
  protocolId : ProtocolID
  deriving DecidableEq

/-- The encodings a wire works with. -/
structure WireDeps where
  protocolMsg : Bincode ProtocolMsg
  streamInit : Bincode StreamInit

structure WireDeps.Lawful (deps : WireDeps) : Prop where
  protocolMsg : deps.protocolMsg.RoundTrips Eq
  streamInit : deps.streamInit.RoundTrips Eq

abbrev SendQueue := List PeerNetMsg
abbrev RecvQueues := HashMap ProtocolID (List ProtocolEvent)

/-- One pipe: everything is sent through one queue. -/
structure SingleConnection where
  sendQueue : SendQueue
  recvQueues : RecvQueues

/-- One stream for each protocol. -/
structure MuxConnection where
  sendQueues : HashMap ProtocolID SendQueue
  recvQueues : RecvQueues

inductive Wire where
  | single (connection : SingleConnection)
  | mux (connection : MuxConnection)

def Wire.isSingle : Wire → Bool
  | .single _ => true
  | .mux _ => false

variable (deps : WireDeps)

/-- A message for any protocol goes into the queue. -/
def SingleConnection.send (self : SingleConnection) (protoId : ProtocolID) (payload : Bytes) :
    Except Error (Option SingleConnection) := do
  let netMsg ← PeerNetMsg.new deps.protocolMsg .protocol ⟨protoId, payload⟩
  return (pushQueue SEND_QUEUE_SIZE self.sendQueue netMsg).map fun sendQueue =>
    { self with sendQueue }

/-- A message goes into the queue of the protocol's stream, if there is one. -/
def MuxConnection.send (self : MuxConnection) (protoId : ProtocolID) (payload : Bytes) :
    Except Error (Option MuxConnection) := do
  let netMsg ← PeerNetMsg.new deps.protocolMsg .protocol ⟨protoId, payload⟩
  match self.sendQueues.lookup protoId with
  | some queue =>
    return (pushQueue SEND_QUEUE_SIZE queue netMsg).map fun queue =>
      { self with sendQueues := self.sendQueues.insert protoId queue }
  | none => throw (.unsupportedProtocol protoId)

variable (self : Wire)

/-- Send a payload for a protocol. The result is an error, or the wire with the message in its
queue, or nothing as long as that queue is full. -/
def Wire.send (protoId : ProtocolID) (payload : Bytes) : Except Error (Option Wire) :=
  match self with
  | .single connection => do return (← connection.send deps protoId payload).map .single
  | .mux connection => do return (← connection.send deps protoId payload).map .mux

def Wire.recvQueues : Wire → RecvQueues
  | .single connection => connection.recvQueues
  | .mux connection => connection.recvQueues

def Wire.withRecvQueues (recvQueues : RecvQueues) : Wire :=
  match self with
  | .single connection => .single { connection with recvQueues }
  | .mux connection => .mux { connection with recvQueues }

/-- Pop the next event of a protocol; an empty queue makes the caller wait. -/
def Wire.recv (protoId : ProtocolID) : Except Error (Option (ProtocolEvent × Wire)) :=
  match self.recvQueues.lookup protoId with
  | some (event :: rest) =>
    .ok (some (event, self.withRecvQueues (self.recvQueues.insert protoId rest)))
  | some [] => .ok none
  | none => .error (.unsupportedProtocol protoId)

/-! ### The tasks of a wire -/

/-- The pipe, or the stream of one protocol. -/
abbrev StreamKey := Option ProtocolID

def Wire.sendQueue : Wire → StreamKey → Option SendQueue
  | .single connection, none => some connection.sendQueue
  | .mux connection, some protoId => connection.sendQueues.lookup protoId
  | _, _ => none

def Wire.withSendQueue : Wire → StreamKey → SendQueue → Wire
  | .single connection, none, sendQueue => .single { connection with sendQueue }
  | .mux connection, some protoId, queue =>
    .mux { connection with sendQueues := connection.sendQueues.insert protoId queue }
  | wire, _, _ => wire

variable (stream : StreamKey)

/-- One turn of a writer: it takes a message out of its queue. -/
def Wire.write : Option (PeerNetMsg × Wire) :=
  match self.sendQueue stream with
  | some (msg :: rest) => some (msg, self.withSendQueue stream rest)
  | _ => none

/-- What both readers do with a message: one for a protocol is routed, every other one is a
reason to stop. -/
def handleMsg (route : ProtocolMsg → Except Error (Option RecvQueues)) (msg : PeerNetMsg) :
    Except Error (Option RecvQueues) :=
  match msg.header.command with
  | .protocol => do
    let (protoMsg, _) ← deps.protocolMsg.decode msg.payload
    route protoMsg
  | .shutdown => .error .peerShutdown
  | command => .error (.invalidMsg ("Unexpected msg " ++ command.debug))

variable (recvQueues : RecvQueues)

def pushEvent (protoId : ProtocolID) (queue : List ProtocolEvent) (payload : Bytes) :
    Option RecvQueues :=
  (pushQueue RECV_QUEUE_SIZE queue (.message payload)).map (recvQueues.insert protoId)

/-- The reader of a pipe finds the queue by the protocol the message names. -/
def demuxReader : PeerNetMsg → Except Error (Option RecvQueues) :=
  handleMsg deps fun protoMsg =>
    match recvQueues.lookup protoMsg.protocolId with
    | some queue => .ok (pushEvent recvQueues protoMsg.protocolId queue protoMsg.payload)
    | none => .error (.unsupportedProtocol protoMsg.protocolId)

/-- The reader of a stream has the queue of the stream's protocol, whatever the message names. -/
def quicReader (protoId : ProtocolID) (queue : List ProtocolEvent) :
    PeerNetMsg → Except Error (Option RecvQueues) :=
  handleMsg deps fun protoMsg => .ok (pushEvent recvQueues protoId queue protoMsg.payload)

/-- Where a reader puts a message: the reader of a stream into the queue of its protocol, the
reader of a pipe into the one that the message names. -/
def routed (msg : PeerNetMsg) : Option (ProtocolID × Bytes) :=
  match msg.header.command, deps.protocolMsg.decode msg.payload with
  | .protocol, .ok (protoMsg, _) => some (stream.getD protoMsg.protocolId, protoMsg.payload)
  | _, _ => none

/-- One turn of the reader of a stream, if the wire has one. The result is a reason to stop, or
the wire with the event in its queue, or nothing as long as that queue is full. -/
def Wire.read (msg : PeerNetMsg) : Option (Except Error (Option Wire)) :=
  match self, stream with
  | .single connection, none =>
    some ((demuxReader deps connection.recvQueues msg).map (Option.map self.withRecvQueues))
  | .mux connection, some protoId =>
    (connection.recvQueues.lookup protoId).map fun queue =>
      (quicReader deps connection.recvQueues protoId queue msg).map
        (Option.map self.withRecvQueues)
  | _, _ => none

/-! ### What the functions of a wire do to its queues -/

variable {deps}

/-- The stream that carries the messages of a protocol. -/
def Wire.streamOf (protoId : ProtocolID) : StreamKey :=
  if self.isSingle then none else some protoId

/-- Both wires push into the queue of the protocol's stream; only a pipe always has it. -/
theorem Wire.send_eq (protoId : ProtocolID) (payload : Bytes) :
    self.send deps protoId payload =
      (PeerNetMsg.new deps.protocolMsg .protocol ⟨protoId, payload⟩).bind fun netMsg =>
        match self.sendQueue (self.streamOf protoId) with
        | some queue => .ok ((pushQueue SEND_QUEUE_SIZE queue netMsg).map
            (self.withSendQueue (self.streamOf protoId)))
        | none => .error (.unsupportedProtocol protoId) := by
  cases encoded : PeerNetMsg.new deps.protocolMsg .protocol ⟨protoId, payload⟩ with
  | error reason =>
    cases self <;>
    · simp only [Wire.send, SingleConnection.send, MuxConnection.send, encoded]
      rfl
  | ok netMsg =>
    cases self with
    | single connection =>
      simp only [Wire.send, SingleConnection.send, encoded]
      exact congrArg Except.ok (Option.map_map _ _ _)
    | mux connection =>
      have queue : (Wire.mux connection).sendQueue ((Wire.mux connection).streamOf protoId) =
        connection.sendQueues.lookup protoId := rfl
      simp only [Wire.send, MuxConnection.send, encoded, queue, Except.bind]
      cases connection.sendQueues.lookup protoId with
      | none => rfl
      | some queue => exact congrArg Except.ok (Option.map_map _ _ _)

variable {self next wire : Wire} {protoId : ProtocolID} {payload : Bytes} {stream : StreamKey}
  {msg : PeerNetMsg} {negotiated ours : HashSet ProtocolID} {queues : HashMap ProtocolID SendQueue}
  {streams : List MuxStream} {incoming : List Bytes}

theorem Wire.send_cases {result : Option Wire}
    (sent : self.send deps protoId payload = .ok result) :
    ∃ netMsg queue,
      PeerNetMsg.new deps.protocolMsg .protocol ⟨protoId, payload⟩ = .ok netMsg ∧
      self.sendQueue (self.streamOf protoId) = some queue ∧
      result = (pushQueue SEND_QUEUE_SIZE queue netMsg).map
        (self.withSendQueue (self.streamOf protoId)) := by
  rw [send_eq] at sent
  obtain ⟨netMsg, built, sent⟩ := Fallible.bind_eq_ok.mp sent
  split at sent
  · rename_i queue found
    exact ⟨netMsg, queue, built, found, (Except.ok.inj sent).symm⟩
  · cases sent

theorem Wire.sendQueue_withSendQueue {queue : SendQueue}
    (found : self.sendQueue stream = some queue) (next : SendQueue) (other : StreamKey) :
    (self.withSendQueue stream next).sendQueue other =
      if other = stream then some next else self.sendQueue other := by
  cases self with
  | single connection =>
    cases stream with
    | none => cases other <;> rfl
    | some protoId => cases found
  | mux connection =>
    cases stream with
    | none => cases found
    | some protoId =>
      cases other with
      | none => rfl
      | some name =>
        by_cases same : name = protoId
        · rw [same, if_pos rfl]
          exact AList.lookup_insert _
        · rw [if_neg (fun equal => same (Option.some_inj.mp equal))]
          exact AList.lookup_insert_ne same

@[simp]
theorem Wire.isSingle_withSendQueue (self : Wire) (stream : StreamKey) (queue : SendQueue) :
    (self.withSendQueue stream queue).isSingle = self.isSingle := by
  cases self <;> cases stream <;> rfl

@[simp]
theorem Wire.recvQueues_withRecvQueues (self : Wire) (recvQueues : RecvQueues) :
    (self.withRecvQueues recvQueues).recvQueues = recvQueues := by
  cases self <;> rfl

theorem Wire.write_eq_some (written : self.write stream = some (msg, next)) :
    ∃ rest, self.sendQueue stream = some (msg :: rest) ∧
      next = self.withSendQueue stream rest := by
  revert written
  fun_cases Wire.write <;> rintro ⟨⟩
  rename_i rest found
  exact ⟨rest, found, rfl⟩

theorem Wire.recv_eq_ok {event : ProtocolEvent}
    (received : self.recv protoId = .ok (some (event, next))) :
    ∃ rest, self.recvQueues.lookup protoId = some (event :: rest) ∧
      next = self.withRecvQueues (self.recvQueues.insert protoId rest) := by
  revert received
  fun_cases Wire.recv <;> rintro ⟨⟩
  rename_i found
  exact ⟨_, found, rfl⟩

section

variable {protoMsg : ProtocolMsg} {length : Nat} (command : msg.header.command = .protocol)
  (decodes : deps.protocolMsg.decode msg.payload = .ok (protoMsg, length))

include command decodes

theorem handleMsg_protocol {route : ProtocolMsg → Except Error (Option RecvQueues)} :
    handleMsg deps route msg = route protoMsg := by
  rw [handleMsg, command, decodes]
  rfl

theorem routed_protocol :
    routed deps stream msg = some (stream.getD protoMsg.protocolId, protoMsg.payload) := by
  rw [routed, command, decodes]

/-- A message for a protocol makes only the reader of a pipe stop, and only if the protocol has no
queue. -/
theorem Wire.read_eq_error {reason : Error}
    (read : self.read deps stream msg = some (.error reason)) :
    stream = none ∧ self.recvQueues.lookup protoMsg.protocolId = none := by
  cases self with
  | single connection =>
    cases stream with
    | none =>
      refine ⟨rfl, ?_⟩
      cases found : connection.recvQueues.lookup protoMsg.protocolId with
      | none => exact found
      | some queue =>
        simp [Wire.read, demuxReader, handleMsg_protocol command decodes, found, Except.map] at read
    | some protoId => cases read
  | mux connection =>
    cases stream with
    | none => cases read
    | some protoId =>
      simp [Wire.read, quicReader, handleMsg_protocol command decodes, Except.map] at read

end

/-- A reader goes on only with what its route gives for the message. -/
theorem handleMsg_eq_ok {route : ProtocolMsg → Except Error (Option RecvQueues)}
    {result : Option RecvQueues} (handled : handleMsg deps route msg = .ok result) :
    ∃ protoMsg length, msg.header.command = .protocol ∧
      deps.protocolMsg.decode msg.payload = .ok (protoMsg, length) ∧
      route protoMsg = .ok result := by
  unfold handleMsg at handled
  split at handled
  · rename_i command
    obtain ⟨decoded, decodes, handled⟩ := Fallible.bind_eq_ok.mp handled
    exact ⟨decoded.1, decoded.2, command, decodes, handled⟩
  · cases handled
  · cases handled

theorem pushEvent_eq_some {recvQueues next : RecvQueues} {queue : List ProtocolEvent}
    (pushed : pushEvent recvQueues protoId queue payload = some next) :
    next = recvQueues.insert protoId (queue ++ [.message payload]) := by
  obtain ⟨later, room, rfl⟩ := Option.map_eq_some_iff.mp pushed
  rw [(pushQueue_eq_some.mp room).2]

/-- A reader that goes on has put the payload into the queue to which the message is routed. -/
theorem Wire.read_eq_ok (read : self.read deps stream msg = some (.ok (some next))) :
    ∃ name queue payload, routed deps stream msg = some (name, payload) ∧
      self.recvQueues.lookup name = some queue ∧
      next =
        self.withRecvQueues (self.recvQueues.insert name (queue ++ [.message payload])) := by
  cases self with
  | single connection =>
    cases stream with
    | none =>
      obtain ⟨result, handled, goesOn⟩ := Fallible.map_eq_ok.mp (Option.some.inj read)
      obtain ⟨recvQueues, rfl, rfl⟩ := Option.map_eq_some_iff.mp goesOn
      obtain ⟨protoMsg, length, command, decodes, pushed⟩ := handleMsg_eq_ok handled
      split at pushed
      · rename_i queue found
        obtain rfl := pushEvent_eq_some (Except.ok.inj pushed)
        exact ⟨_, queue, _, routed_protocol command decodes, found, rfl⟩
      · cases pushed
    | some protoId => cases read
  | mux connection =>
    cases stream with
    | none => cases read
    | some protoId =>
      obtain ⟨queue, found, outcome⟩ := Option.map_eq_some_iff.mp read
      obtain ⟨result, handled, goesOn⟩ := Fallible.map_eq_ok.mp outcome
      obtain ⟨recvQueues, rfl, rfl⟩ := Option.map_eq_some_iff.mp goesOn
      obtain ⟨protoMsg, length, command, decodes, pushed⟩ := handleMsg_eq_ok handled
      obtain rfl := pushEvent_eq_some (Except.ok.inj pushed)
      exact ⟨_, queue, _, routed_protocol command decodes, found, rfl⟩

/-- The message is one for a protocol of the set. -/
def Carries (deps : WireDeps) (negotiated : HashSet ProtocolID) (msg : PeerNetMsg) : Prop :=
  msg.header.command = .protocol ∧
    ∃ protoMsg length, deps.protocolMsg.decode msg.payload = .ok (protoMsg, length) ∧
      protoMsg.protocolId ∈ negotiated

theorem carries_new (lawful : deps.protocolMsg.RoundTrips Eq) {netMsg : PeerNetMsg}
    (built : PeerNetMsg.new deps.protocolMsg .protocol ⟨protoId, payload⟩ = .ok netMsg)
    (member : protoId ∈ negotiated) : Carries deps negotiated netMsg := by
  obtain ⟨bytes, encoded, rfl⟩ := PeerNetMsg.new_eq_ok built
  obtain ⟨_, length, decodes, rfl⟩ := lawful _ _ encoded
  exact ⟨rfl, _, length, decodes, member⟩

/-- A reader that has a queue for every protocol of the set does not stop because of a message
for one of them. -/
theorem Wire.read_ne_error (carries : Carries deps negotiated msg)
    (served : ∀ protoId ∈ negotiated, (self.recvQueues.lookup protoId).isSome) (reason : Error) :
    self.read deps stream msg ≠ some (.error reason) := by
  obtain ⟨command, protoMsg, length, decodes, member⟩ := carries
  intro read
  have queue := served _ member
  rw [(read_eq_error command decodes read).2] at queue
  cases queue

variable (deps)

/-! ### Building a wire -/

inductive ConnDirection where
  | inbound
  | outbound
  deriving DecidableEq

/-- A QUIC connection: the streams the remote opens, in the order in which they are accepted,
each with the bytes it carries. -/
structure QuicConn where
  incoming : List Bytes

/-- A connection that finished its handshake. -/
structure QueuedConn where
  direction : ConnDirection
  quicConn : Option QuicConn

/-- A stream of a QUIC connection, with the header that was written to or read from it. -/
structure MuxStream where
  protoId : ProtocolID
  header : Bytes

def buildRecvQueues (protoIds : HashSet ProtocolID) : RecvQueues :=
  HashMap.mapValues (fun _ => []) protoIds

/-- The header of a stream: the encoded protocol after its length in two bytes. -/
def streamHeader (protoId : ProtocolID) : Except Error Bytes := do
  let encoded ← deps.streamInit.encode ⟨protoId⟩
  if encoded.length < 2 ^ 16 then
    return littleEndian 2 encoded.length ++ encoded
  else
    throw (.invalidMsg "StreamInit too large")

/-- Read the header of a stream, and exactly that. -/
def readHeader (stream : Bytes) : Except Error MuxStream := do
  if stream.length < 2 then throw (.io "unexpected end of file")
  let len := ofLittleEndian (stream.take 2)
  if stream.length < 2 + len then throw (.io "unexpected end of file")
  let (init, _) ← deps.streamInit.decode ((stream.drop 2).take len)
  return { protoId := init.protocolId, header := stream.take (2 + len) }

abbrev Streams := HashMap ProtocolID SendQueue × List MuxStream

def openStreams : List ProtocolID → Streams → Except Error Streams
  | [], opened => .ok opened
  | protoId :: rest, (queues, streams) => do
    let header ← streamHeader deps protoId
    openStreams rest (queues.insert protoId [], streams ++ [{ protoId, header }])

/-- Accept as many streams as expected, each for a negotiated protocol. The peer is given up when
the remote opens too few. -/
def acceptStreams (negotiated : HashSet ProtocolID) : Nat → List Bytes → Streams →
    Except Error Streams
  | 0, _, accepted => .ok accepted
  | _ + 1, [], _ => .error (.karyonCore "Timeout Error")
  | expected + 1, incoming :: rest, (queues, streams) => do
    let stream ← readHeader deps incoming
    if stream.protoId ∉ negotiated then throw (.unsupportedProtocol stream.protoId)
    acceptStreams negotiated expected rest
      (queues.insert stream.protoId [], streams ++ [stream])

def setupQuicStreams (quicConn : QuicConn) (direction : ConnDirection)
    (negotiated : HashSet ProtocolID) : Except Error Streams :=
  match direction with
  | .outbound => openStreams deps negotiated.keys (∅, [])
  | .inbound => acceptStreams deps negotiated negotiated.keys.length quicConn.incoming (∅, [])

def SingleConnection.fromQueued (negotiated : HashSet ProtocolID) : SingleConnection :=
  { sendQueue := [], recvQueues := buildRecvQueues negotiated }

def MuxConnection.fromQueued (queued : QueuedConn) (negotiated : HashSet ProtocolID) :
    Except Error MuxConnection :=
  match queued.quicConn with
  | none => .error (.invalidMsg "MuxConnection requires a QUIC conn")
  | some quicConn => do
    let (sendQueues, _) ← setupQuicStreams deps quicConn queued.direction negotiated
    return { sendQueues, recvQueues := buildRecvQueues negotiated }

/-- The wire of a connection: the streams of QUIC if it is in use, one pipe otherwise. -/
def Wire.fromQueued (queued : QueuedConn) (negotiated : HashSet ProtocolID) :
    Except Error Wire :=
  if queued.quicConn.isSome then do
    return .mux (← MuxConnection.fromQueued deps queued negotiated)
  else
    return .single (.fromQueued negotiated)

/-! ### The two ends of a connection -/

/-- The streams that one end opens, in some order and each followed by what is sent on it. -/
def Opens (negotiated : HashSet ProtocolID) (incoming : List Bytes) : Prop :=
  ∃ queues streams accepted, openStreams deps negotiated.keys (∅, []) = .ok (queues, streams) ∧
    accepted.Perm streams ∧
    List.Forall₂ (fun stream bytes => ∃ later, bytes = stream.header ++ later) accepted incoming

/-- The dialling end, with its negotiated protocols, and the accepting end of one connection. -/
inductive Ends (dialled : HashSet ProtocolID) : QueuedConn → QueuedConn → Prop
  | pipe : Ends dialled ⟨.outbound, none⟩ ⟨.inbound, none⟩
  | quic {quicConn : QuicConn} {incoming : List Bytes} : Opens deps dialled incoming →
      Ends dialled ⟨.outbound, some quicConn⟩ ⟨.inbound, some ⟨incoming⟩⟩

/-- A wire as it is right after it was built. -/
inductive Wire.Built (negotiated : HashSet ProtocolID) : Wire → Prop
  | single : Built negotiated (.single (.fromQueued negotiated))
  | mux {sendQueues : HashMap ProtocolID SendQueue} :
      (∀ protoId, sendQueues.lookup protoId = if protoId ∈ negotiated then some [] else none) →
      Built negotiated (.mux { sendQueues, recvQueues := buildRecvQueues negotiated })

variable {deps}

theorem lookup_buildRecvQueues (protoIds : HashSet ProtocolID) (protoId : ProtocolID) :
    (buildRecvQueues protoIds).lookup protoId = if protoId ∈ protoIds then some [] else none := by
  rw [buildRecvQueues, HashMap.lookup_mapValues]
  by_cases member : protoId ∈ protoIds
  · obtain ⟨_, found⟩ := Option.isSome_iff_exists.mp (AList.lookup_isSome.mpr member)
    rw [found, if_pos member, Option.map_some]
  · rw [AList.lookup_eq_none.mpr member, if_neg member, Option.map_none]

/-- The send queues after streams for the protocols were added. -/
def openQueues (protoIds : List ProtocolID) (queues : HashMap ProtocolID SendQueue) :
    HashMap ProtocolID SendQueue :=
  protoIds.foldl (fun queues protoId => queues.insert protoId []) queues

theorem lookup_openQueues (protoIds : List ProtocolID) (queues : HashMap ProtocolID SendQueue)
    (protoId : ProtocolID) :
    (openQueues protoIds queues).lookup protoId =
      if protoId ∈ protoIds then some [] else queues.lookup protoId := by
  induction protoIds generalizing queues with
  | nil => rfl
  | cons head rest inductionHypothesis =>
    have later := inductionHypothesis (queues.insert head [])
    rw [openQueues, List.foldl_cons, ← openQueues, later]
    by_cases member : protoId ∈ rest
    · rw [if_pos member, if_pos (List.mem_cons_of_mem head member)]
    · rw [if_neg member]
      by_cases same : protoId = head
      · rw [same, AList.lookup_insert, if_pos List.mem_cons_self]
      · rw [AList.lookup_insert_ne same, if_neg (by simp [same, member])]

/-- Opening the streams adds a queue for each protocol and writes its header. -/
theorem openStreams_eq_ok {protoIds : List ProtocolID} {result : Streams}
    (opened : openStreams deps protoIds (queues, streams) = .ok result) :
    result.1 = openQueues protoIds queues ∧
      ∃ added, result.2 = streams ++ added ∧ added.map MuxStream.protoId = protoIds ∧
        ∀ stream ∈ added, streamHeader deps stream.protoId = .ok stream.header := by
  induction protoIds generalizing queues streams with
  | nil =>
    cases opened
    exact ⟨rfl, [], (List.append_nil _).symm, rfl, nofun⟩
  | cons protoId rest inductionHypothesis =>
    obtain ⟨header, written, opened⟩ := Fallible.bind_eq_ok.mp opened
    obtain ⟨sameQueues, added, sameStreams, sameIds, headers⟩ := inductionHypothesis opened
    refine ⟨sameQueues, ⟨protoId, header⟩ :: added, ?_, ?_, ?_⟩
    · rw [sameStreams, List.append_assoc, List.singleton_append]
    · rw [List.map_cons, sameIds]
    · intro stream member
      rcases List.mem_cons.mp member with rfl | member
      · exact written
      · exact headers stream member

/-- Accepting streams takes as many as expected, each with the header that it carries and for a
negotiated protocol, and adds an empty queue for each of them. -/
theorem acceptStreams_eq_ok {expected : Nat} {result : Streams}
    (accepted : acceptStreams deps negotiated expected incoming (queues, streams) = .ok result) :
    ∃ added, result.1 = openQueues (added.map MuxStream.protoId) queues ∧
      result.2 = streams ++ added ∧ added.length = expected ∧
      (incoming.take expected).map (readHeader deps) = added.map .ok ∧
      ∀ stream ∈ added, stream.protoId ∈ negotiated := by
  induction expected generalizing incoming queues streams with
  | zero =>
    cases accepted
    exact ⟨[], rfl, (List.append_nil _).symm, rfl, rfl, nofun⟩
  | succ expected inductionHypothesis =>
    rcases incoming with _ | ⟨first, rest⟩
    · cases accepted
    · obtain ⟨stream, read, accepted⟩ := Fallible.bind_eq_ok.mp accepted
      split at accepted
      · cases accepted
      · rename_i member
        obtain ⟨added, sameQueues, sameStreams, count, headers, members⟩ :=
          inductionHypothesis accepted
        refine ⟨stream :: added, sameQueues, ?_, ?_, ?_, ?_⟩
        · rw [sameStreams, List.append_assoc, List.singleton_append]
        · rw [List.length_cons, count]
        · rw [List.take_succ_cons, List.map_cons, headers, read, List.map_cons]
        · intro other inside
          rcases List.mem_cons.mp inside with rfl | inside
          · exact not_not.mp member
          · exact members other inside

section

variable {queued : QueuedConn} (built : Wire.fromQueued deps queued negotiated = .ok wire)

include built

/-- A new wire is one pipe, or has the streams that were set up. -/
theorem Wire.fromQueued_eq_ok :
    (queued.quicConn = none ∧ wire = .single (.fromQueued negotiated)) ∨
      ∃ quicConn streams, queued.quicConn = some quicConn ∧
        setupQuicStreams deps quicConn queued.direction negotiated = .ok streams ∧
        wire = .mux ⟨streams.1, buildRecvQueues negotiated⟩ := by
  obtain ⟨direction, quicConn⟩ := queued
  rcases quicConn with _ | quicConn
  · cases built
    exact .inl ⟨rfl, rfl⟩
  · obtain ⟨mux, own, ⟨⟩⟩ := Fallible.bind_eq_ok.mp built
    obtain ⟨streams, setUp, ⟨⟩⟩ := Fallible.bind_eq_ok.mp own
    exact .inr ⟨quicConn, streams, rfl, setUp, rfl⟩

theorem Wire.sendQueue_fromQueued {queue : SendQueue} (found : wire.sendQueue stream = some queue) :
    queue = [] := by
  rcases fromQueued_eq_ok built with ⟨_, rfl⟩ | ⟨quicConn, streams, _, setUp, rfl⟩
  · rcases stream with _ | protoId
    · cases found
      rfl
    · cases found
  · obtain ⟨protoIds, queues⟩ : ∃ protoIds, streams.1 = openQueues protoIds ∅ := by
      cases direction : queued.direction with
      | outbound =>
        rw [direction] at setUp
        exact ⟨_, (openStreams_eq_ok setUp).1⟩
      | inbound =>
        rw [direction] at setUp
        obtain ⟨added, queues, _⟩ := acceptStreams_eq_ok setUp
        exact ⟨_, queues⟩
    rcases stream with _ | protoId
    · cases found
    · have lookup : (openQueues protoIds ∅).lookup protoId = some queue := queues ▸ found
      rw [lookup_openQueues] at lookup
      split at lookup
      · exact (Option.some.inj lookup).symm
      · cases lookup

end

theorem Ends.built_dialled {near far : QueuedConn} (ends : Ends deps ours near far)
    (built : Wire.fromQueued deps near ours = .ok wire) :
    wire.Built ours := by
  cases ends with
  | pipe =>
    cases built
    exact .single
  | quic _ =>
    obtain ⟨⟨⟩, _⟩ | ⟨quicConn, streams, ⟨⟩, opened, rfl⟩ := Wire.fromQueued_eq_ok built
    refine .mux fun protoId => ?_
    rw [(openStreams_eq_ok opened).1, lookup_openQueues, AList.lookup_empty]
    simp only [AList.mem_keys]

variable (lawful : deps.streamInit.RoundTrips Eq)

include lawful

theorem readHeader_streamHeader {header : Bytes} (written : streamHeader deps protoId = .ok header)
    (later : Bytes) : readHeader deps (header ++ later) = .ok { protoId, header } := by
  obtain ⟨encoded, encodes, written⟩ := Fallible.bind_eq_ok.mp written
  split at written
  · rename_i short
    cases written
    obtain ⟨_, length, decodes, rfl⟩ := lawful _ _ encodes
    have prefixed : (littleEndian 2 encoded.length ++ encoded ++ later).take 2 =
        littleEndian 2 encoded.length := by
      rw [List.append_assoc]
      exact List.take_left' (length_littleEndian _ _)
    have size : ofLittleEndian (littleEndian 2 encoded.length) = encoded.length := by
      rw [ofLittleEndian_littleEndian]
      exact Nat.mod_eq_of_lt short
    have total : (littleEndian 2 encoded.length ++ encoded).length = 2 + encoded.length := by
      rw [List.length_append, length_littleEndian]
    have body : ((littleEndian 2 encoded.length ++ encoded ++ later).drop 2).take
        encoded.length = encoded := by
      rw [List.append_assoc, List.drop_left' (length_littleEndian _ _), List.take_left' rfl]
    have whole : (littleEndian 2 encoded.length ++ encoded ++ later).length =
        2 + encoded.length + later.length := by
      rw [List.length_append, total]
    unfold readHeader
    rw [if_neg (by rw [whole]; omega), prefixed, size]
    simp only [bind, Except.bind, pure, Except.pure]
    rw [if_neg (by rw [whole]; omega), body, decodes, List.take_left' total]
  · cases written

section

variable {accepted : List MuxStream}
  (carried : List.Forall₂ (fun stream bytes => ∃ later, bytes = stream.header ++ later) accepted
    incoming)

include carried

/-- Accepting the streams that were opened adds a queue for each of their protocols. -/
theorem acceptStreams_opened (negotiated : HashSet ProtocolID)
    (headers : ∀ stream ∈ accepted, streamHeader deps stream.protoId = .ok stream.header)
    (members : ∀ stream ∈ accepted, stream.protoId ∈ negotiated)
    (queues : HashMap ProtocolID SendQueue) (streams : List MuxStream) :
    acceptStreams deps negotiated accepted.length incoming (queues, streams) =
      .ok (openQueues (accepted.map MuxStream.protoId) queues, streams ++ accepted) := by
  induction carried generalizing queues streams with
  | nil => rw [List.append_nil, List.length_nil, acceptStreams, List.map_nil, openQueues,
      List.foldl_nil]
  | @cons stream bytes accepted incoming first rest inductionHypothesis =>
    obtain ⟨later, rfl⟩ := first
    have reads := readHeader_streamHeader lawful (headers stream List.mem_cons_self) later
    have member := members stream List.mem_cons_self
    rw [List.length_cons, acceptStreams, reads]
    simp only [bind, Except.bind, if_neg (not_not_intro member)]
    refine (inductionHypothesis (fun other inside => headers other (List.mem_cons_of_mem _ inside))
      (fun other inside => members other (List.mem_cons_of_mem _ inside)) _ _).trans ?_
    rw [List.map_cons, List.append_assoc]
    rfl

/-- The accepting end accepts the streams that were opened, when the ends agree on the
protocols. -/
theorem acceptStreams_agreed {theirs : HashSet ProtocolID}
    (agreed : ∀ protoId, protoId ∈ ours ↔ protoId ∈ theirs)
    (opened : openStreams deps theirs.keys (∅, []) = .ok (queues, streams))
    (order : accepted.Perm streams) :
    acceptStreams deps ours ours.keys.length incoming (∅, []) =
        .ok (openQueues (accepted.map MuxStream.protoId) ∅, accepted) ∧
      (accepted.map MuxStream.protoId).Perm ours.keys := by
  obtain ⟨_, added, sameStreams, sameIds, headers⟩ := openStreams_eq_ok opened
  rw [List.nil_append] at sameStreams
  subst sameStreams
  have ids : (accepted.map MuxStream.protoId).Perm theirs.keys :=
    sameIds ▸ order.map MuxStream.protoId
  have sameKeys : theirs.keys.Perm ours.keys :=
    (List.perm_ext_iff_of_nodup theirs.keys_nodup ours.keys_nodup).mpr fun protoId =>
      (agreed protoId).symm
  have count : ours.keys.length = accepted.length := by
    rw [← sameKeys.length_eq, ← ids.length_eq, List.length_map]
  have setup := acceptStreams_opened lawful carried ours
    (fun stream member => headers stream (order.mem_iff.mp member))
    (fun stream member => (agreed _).mpr (AList.mem_keys.mpr
      (ids.mem_iff.mp (List.mem_map_of_mem member)))) ∅ []
  rw [count]
  exact ⟨setup, ids.trans sameKeys⟩

end

/-- The accepting end has a stream for each of its protocols when the ends agree on them. -/
theorem Ends.built_accepted {theirs : HashSet ProtocolID}
    (agreed : ∀ protoId, protoId ∈ ours ↔ protoId ∈ theirs) {near far : QueuedConn}
    (ends : Ends deps theirs far near) (built : Wire.fromQueued deps near ours = .ok wire) :
    wire.Built ours := by
  cases ends with
  | pipe =>
    cases built
    exact .single
  | @quic _ incoming opens =>
    obtain ⟨queues, streams, accepted, opened, order, carried⟩ := opens
    obtain ⟨setup, ids⟩ := acceptStreams_agreed lawful carried agreed opened order
    obtain ⟨⟨⟩, _⟩ | ⟨quicConn, both, ⟨⟩, setUp, rfl⟩ := Wire.fromQueued_eq_ok built
    cases setup.symm.trans setUp
    refine .mux fun protoId => ?_
    rw [lookup_openQueues, AList.lookup_empty]
    simp only [ids.mem_iff, AList.mem_keys]

end Karyon.P2p
