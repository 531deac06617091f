/-
This file follows the messages of a peer from `send` at one end of a connection to `recv` at the
other, through the bytes: the queues of the two wires of `p2p/src/peer/connection.rs`, their writers
and readers, and the framed streams of `net/src/framed.rs` with the codec of `p2p/src/codec.rs`.

It is one direction of a connection. The transport of a stream is a pipe of bytes. Writers write in
pieces and readers read in chunks of any size, tasks take their turns in any order, and every task
may end at any time. On a QUIC connection the dialling end writes the header of each stream before
its messages, and the accepting end reads it first. What the readers of a pipe have buffered when
the wire is built is read here by their first turns.

For every protocol the messages that `recv` returns are a prefix of those that were queued, in the
order in which they were queued (`delivery_fifo`).
-/

import Karyon.Net.FramedPipe
import Karyon.P2p.NetCodec
import Karyon.P2p.PeerShutdown

namespace Karyon.P2p

open Karyon.Net Transition

/-! ### One direction of a connection -/

/-- A stream: the key of its reader, once the receiving end knows it; the bytes; the message that
the reader has received and not handed on; whether the writer and the reader have ended. -/
structure WireStream where
  readerKey : Option StreamKey
  pipe : FramedPipe
  held : Option PeerNetMsg
  writerEnded : Bool
  readerEnded : Bool

/-- A stream on which some bytes were written when it was opened. -/
def WireStream.new (readerKey : Option StreamKey) (transit : Bytes) : WireStream where
  readerKey := readerKey
  pipe := .new transit
  held := none
  writerEnded := false
  readerEnded := false

/-- The sending wire, the streams by the keys of their writers, the receiving wire with its
negotiated protocols, and the number of streams that it still has to accept. -/
structure Delivery where
  near : Wire
  streams : StreamKey → Option WireStream
  far : Wire
  negotiated : HashSet ProtocolID
  expected : Nat

/-- A payload was put into the queue of its stream, or `recv` returned an event. -/
inductive DeliveryEvent where
  | enqueued (protoId : ProtocolID) (payload : Bytes)
  | received (protoId : ProtocolID) (event : ProtocolEvent)

/-- What can happen next: `send` at one end and `recv` at the other; `shutdown` at one end puts a
message into the queue of a pipe, at the other an event into the queue of a protocol; a writer
takes a message, writes or ends; a stream is accepted; a reader reads, decodes, hands a message on
or ends. -/
inductive DeliveryAction where
  | send (protoId : ProtocolID) (payload : Bytes)
  | sendShutdown
  | take (stream : StreamKey)
  | write (stream : StreamKey) (count : Nat)
  | endWriter (stream : StreamKey)
  | accept (stream : StreamKey)
  | read (stream : StreamKey) (count : Nat)
  | decode (stream : StreamKey)
  | deliver (stream : StreamKey)
  | endReader (stream : StreamKey)
  | recv (protoId : ProtocolID)
  | pushShutdown (protoId : ProtocolID)

namespace Delivery

variable (deps : PeerDeps) (codec : PeerNetMsgCodec) (state : Delivery) (key : StreamKey)

def withStream (stream : WireStream) : Delivery :=
  { state with streams := Function.update state.streams key (some stream) }

variable (protoId : ProtocolID)

def send (payload : Bytes) : Option (Delivery × List DeliveryEvent) :=
  match state.near.send deps.wire protoId payload with
  | .ok (some near) => some ({ state with near }, [.enqueued protoId payload])
  | _ => none

def sendShutdown : Option Delivery :=
  match PeerNetMsg.new deps.shutdownMsg .shutdown ⟨0⟩, state.near.sendQueue none with
  | .ok msg, some queue =>
    (pushQueue SEND_QUEUE_SIZE queue msg).map fun queue =>
      { state with near := state.near.withSendQueue none queue }
  | _, _ => none

/-- A writer that has written its last message takes the next one out of its queue. It ends when
the message cannot be encoded. -/
def take : Option Delivery :=
  match state.streams key, state.near.write key with
  | some stream, some (msg, near) =>
    if stream.writerEnded then none
    else
      match stream.pipe.send codec.toCodec msg with
      | some (.ok pipe) => some ({ state with near }.withStream key { stream with pipe })
      | some (.error _) =>
        some ({ state with near }.withStream key { stream with writerEnded := true })
      | none => none
  | _, _ => none

def write (count : Nat) : Option Delivery :=
  match state.streams key with
  | some stream =>
    if stream.writerEnded then none
    else
      match stream.pipe.write codec.toCodec count with
      | some (.ok pipe) => some (state.withStream key { stream with pipe })
      | some (.error _) => some (state.withStream key { stream with writerEnded := true })
      | none => none
  | none => none

/-- The receiving end reads the header of a stream and nothing behind it. A stream for a protocol
that was not negotiated ends the setup, so that nothing is read any more. -/
def accept : Option Delivery :=
  match state.streams key, state.expected with
  | some stream, expected + 1 =>
    match stream.readerKey, readHeader deps.wire stream.pipe.transit with
    | none, .ok opened =>
      if opened.protoId ∈ state.negotiated then
        some ({ state with expected }.withStream key
          { stream with
            readerKey := some (some opened.protoId)
            pipe :=
              { stream.pipe with transit := stream.pipe.transit.drop opened.header.length } })
      else none
    | _, _ => none
  | _, _ => none

/-- The stream of a reader that goes on: every stream was accepted, and the reader has not ended
and holds no message. -/
def readable : Option WireStream :=
  match state.streams key with
  | some stream =>
    if state.expected = 0 ∧ stream.readerKey.isSome ∧ stream.readerEnded = false ∧
        stream.held = none then
      some stream
    else none
  | none => none

def read (count : Nat) : Option Delivery :=
  match state.readable key with
  | some stream =>
    (stream.pipe.read codec.toCodec count).map fun pipe =>
      state.withStream key { stream with pipe }
  | none => none

def decode : Option Delivery :=
  match state.readable key with
  | some stream =>
    match stream.pipe.decode codec.toCodec with
    | some (.ok msg, pipe) => some (state.withStream key { stream with pipe, held := some msg })
    | some (.error _, _) => some (state.withStream key { stream with readerEnded := true })
    | none => none
  | none => none

/-- A reader hands its message on, when there is room in the queue, or ends because of it. -/
def deliver : Option Delivery :=
  match state.streams key with
  | some stream =>
    match stream.readerEnded, stream.readerKey, stream.held with
    | false, some readerKey, some msg =>
      match state.far.read deps.wire readerKey msg with
      | some (.ok (some far)) =>
        some ({ state with far }.withStream key { stream with held := none })
      | some (.error _) => some (state.withStream key { stream with readerEnded := true })
      | _ => none
    | _, _, _ => none
  | none => none

def endWriter : Option Delivery :=
  (state.streams key).map fun stream => state.withStream key { stream with writerEnded := true }

def endReader : Option Delivery :=
  (state.streams key).map fun stream => state.withStream key { stream with readerEnded := true }

def recv : Option (Delivery × List DeliveryEvent) :=
  match state.far.recv protoId with
  | .ok (some (event, far)) => some ({ state with far }, [.received protoId event])
  | _ => none

def pushShutdown : Option Delivery :=
  match state.far.recvQueues.lookup protoId with
  | some queue =>
    (pushQueue RECV_QUEUE_SIZE queue .shutdown).map fun queue =>
      { state with far := state.far.withRecvQueues (state.far.recvQueues.insert protoId queue) }
  | none => none

def step : DeliveryAction → Option (Delivery × List DeliveryEvent)
  | .send protoId payload => state.send deps protoId payload
  | .sendShutdown => (state.sendShutdown deps).map (·, [])
  | .take key => (state.take codec key).map (·, [])
  | .write key count => (state.write codec key count).map (·, [])
  | .endWriter key => (state.endWriter key).map (·, [])
  | .accept key => (state.accept deps key).map (·, [])
  | .read key count => (state.read codec key count).map (·, [])
  | .decode key => (state.decode codec key).map (·, [])
  | .deliver key => (state.deliver deps key).map (·, [])
  | .endReader key => (state.endReader key).map (·, [])
  | .recv protoId => state.recv protoId
  | .pushShutdown protoId => (state.pushShutdown protoId).map (·, [])

/-- The ends of a connection whose nodes have agreed on the protocols, before the first message:
a pipe; a QUIC connection that the sending end has dialled, with the headers under way; or one that
it has accepted, where the reader of a stream is that of the protocol for which the stream was
opened. -/
inductive Connected (deps : WireDeps) : Delivery → Prop
  | pipe {ours theirs : HashSet ProtocolID}
      (agreed : ∀ protoId, protoId ∈ ours ↔ protoId ∈ theirs) :
      Connected deps
        { near := .single (.fromQueued ours)
          streams := fun key => if key = none then some (.new (some none) []) else none
          far := .single (.fromQueued theirs)
          negotiated := theirs
          expected := 0 }
  | dialed {ours theirs : HashSet ProtocolID} {queues farQueues : HashMap ProtocolID SendQueue}
      {opened : List MuxStream} (agreed : ∀ protoId, protoId ∈ ours ↔ protoId ∈ theirs)
      (opens : openStreams deps ours.keys (∅, []) = .ok (queues, opened)) :
      Connected deps
        { near := .mux ⟨queues, buildRecvQueues ours⟩
          streams := fun key => key.bind fun protoId =>
            (opened.find? fun stream => stream.protoId == protoId).map fun stream =>
              .new none stream.header
          far := .mux ⟨farQueues, buildRecvQueues theirs⟩
          negotiated := theirs
          expected := theirs.keys.length }
  | accepted {ours theirs : HashSet ProtocolID} {queues farQueues : HashMap ProtocolID SendQueue}
      {opened arrived accepted : List MuxStream} {incoming : List Bytes}
      (agreed : ∀ protoId, protoId ∈ ours ↔ protoId ∈ theirs)
      (opens : openStreams deps theirs.keys (∅, []) = .ok (farQueues, opened))
      (order : arrived.Perm opened)
      (carried : List.Forall₂ (fun stream bytes => ∃ later, bytes = stream.header ++ later) arrived
        incoming)
      (accepts : acceptStreams deps ours ours.keys.length incoming (∅, []) =
        .ok (queues, accepted)) :
      Connected deps
        { near := .mux ⟨queues, buildRecvQueues ours⟩
          streams := fun key => key.bind fun protoId =>
            ((arrived.zip accepted).find? fun pair => pair.2.protoId == protoId).map fun pair =>
              .new (some (some pair.1.protoId)) []
          far := .mux ⟨farQueues, buildRecvQueues theirs⟩
          negotiated := theirs
          expected := 0 }

end Delivery

def deliveryMachine (deps : PeerDeps) (codec : PeerNetMsgCodec) (start : Delivery) :
    Machine Delivery DeliveryAction DeliveryEvent where
  start := start
  step := Delivery.step deps codec

/-! ### Which messages are for a protocol -/

variable (deps : WireDeps)

/-- The payload of a message that is for the protocol. -/
def payloadFor (key : StreamKey) (protoId : ProtocolID) (msg : PeerNetMsg) : Option Bytes :=
  (routed deps key msg).bind fun target => if target.1 = protoId then some target.2 else none

def payloadsFor (key : StreamKey) (protoId : ProtocolID) (msgs : List PeerNetMsg) : List Bytes :=
  msgs.filterMap (payloadFor deps key protoId)

variable (protoId : ProtocolID)

def DeliveryEvent.sentOn : DeliveryEvent → Option Bytes
  | .enqueued name payload => if name = protoId then some payload else none
  | .received _ _ => none

def DeliveryEvent.returnedOn : DeliveryEvent → Option ProtocolEvent
  | .enqueued _ _ => none
  | .received name event => if name = protoId then some event else none

variable (history : List DeliveryEvent)

/-- The payloads of a protocol, in the order in which they were queued. -/
def sentOn : List Bytes :=
  history.filterMap (DeliveryEvent.sentOn protoId)

def returnedOn : List ProtocolEvent :=
  history.filterMap (DeliveryEvent.returnedOn protoId)

def ProtocolEvent.message? : ProtocolEvent → Option Bytes
  | .message payload => some payload
  | .shutdown => none

def messagesOf (events : List ProtocolEvent) : List Bytes :=
  events.filterMap ProtocolEvent.message?

/-- The messages in front of the first shutdown. -/
def beforeShutdown : List ProtocolEvent → List Bytes
  | .message payload :: rest => payload :: beforeShutdown rest
  | _ => []

theorem beforeShutdown_isPrefix (events : List ProtocolEvent) :
    beforeShutdown events <+: messagesOf events := by
  induction events with
  | nil => exact List.nil_prefix
  | cons event rest inductionHypothesis =>
    rcases event with payload | _
    · exact List.cons_prefix_cons.mpr ⟨rfl, inductionHypothesis⟩
    · exact List.nil_prefix

@[simp]
theorem payloadsFor_append (key : StreamKey) (protoId : ProtocolID) (msgs others : List PeerNetMsg)
    :
    payloadsFor deps key protoId (msgs ++ others) =
      payloadsFor deps key protoId msgs ++ payloadsFor deps key protoId others :=
  List.filterMap_append

@[simp]
theorem sentOn_append (history events : List DeliveryEvent) :
    sentOn protoId (history ++ events) = sentOn protoId history ++ sentOn protoId events :=
  List.filterMap_append

@[simp]
theorem returnedOn_append (history events : List DeliveryEvent) :
    returnedOn protoId (history ++ events) =
      returnedOn protoId history ++ returnedOn protoId events :=
  List.filterMap_append

@[simp]
theorem messagesOf_append (events others : List ProtocolEvent) :
    messagesOf (events ++ others) = messagesOf events ++ messagesOf others :=
  List.filterMap_append

variable {name : ProtocolID} {payload : Bytes}

theorem payloadsFor_of_routed {deps : WireDeps} {key : StreamKey} {msg : PeerNetMsg}
    (target : routed deps key msg = some (name, payload)) (protoId : ProtocolID) :
    payloadsFor deps key protoId [msg] = if name = protoId then [payload] else [] := by
  by_cases same : name = protoId <;>
    simp [payloadsFor, payloadFor, target, same]

/-- A message that `send` queues is routed to its protocol at the other end. -/
theorem Wire.routed_new {deps : WireDeps} (lawful : deps.protocolMsg.RoundTrips Eq) (wire : Wire)
    {protoId : ProtocolID} {netMsg : PeerNetMsg}
    (built : PeerNetMsg.new deps.protocolMsg .protocol ⟨protoId, payload⟩ = .ok netMsg) :
    routed deps (wire.streamOf protoId) netMsg = some (protoId, payload) := by
  obtain ⟨bytes, encoded, rfl⟩ := PeerNetMsg.new_eq_ok built
  obtain ⟨_, length, decodes, rfl⟩ := lawful _ _ encoded
  rw [routed_protocol rfl decodes, Wire.streamOf]
  by_cases single : wire.isSingle = true
  · rw [if_pos single, Option.getD_none]
  · rw [if_neg single, Option.getD_some]

/-- A message on a stream of the kind that the wire has is routed to a protocol of the stream. -/
theorem Wire.streamOf_routed {deps : WireDeps} {wire : Wire} {key : StreamKey} {msg : PeerNetMsg}
    (kind : key.isNone = wire.isSingle) (target : routed deps key msg = some (name, payload)) :
    wire.streamOf name = key := by
  rw [Wire.streamOf, ← kind]
  rcases key with _ | protoId
  · rfl
  · unfold routed at target
    split at target
    · cases target
      rfl
    · cases target

/-! ### What a stream carries -/

def Wire.queued (self : Wire) (key : StreamKey) : List PeerNetMsg :=
  (self.sendQueue key).getD []

/-- The messages that a protocol has not yet taken out of its queue. -/
def Wire.waiting (self : Wire) (protoId : ProtocolID) : List Bytes :=
  messagesOf ((self.recvQueues.lookup protoId).getD [])

theorem Wire.waiting_insert (self : Wire) (name protoId : ProtocolID)
    (queue : List ProtocolEvent) :
    (self.withRecvQueues (self.recvQueues.insert name queue)).waiting protoId =
      if protoId = name then messagesOf queue else self.waiting protoId := by
  rw [Wire.waiting, Wire.recvQueues_withRecvQueues]
  by_cases same : protoId = name
  · rw [same, AList.lookup_insert, if_pos rfl, Option.getD_some]
  · rw [AList.lookup_insert_ne same, if_neg same, Wire.waiting]

/-- The bytes of a stream are those of the messages under way, behind the header as long as the
receiving end has not read it. -/
inductive WireStream.Carries (deps : WireDeps) (codec : PeerNetMsgCodec) (key : StreamKey)
    (stream : WireStream) (underway : List PeerNetMsg) : Prop
  | opened {protoId : ProtocolID} {header later : Bytes} (ofProtocol : key = some protoId)
      (unread : stream.readerKey = none) (nothing : stream.held = none)
      (written : streamHeader deps protoId = .ok header)
      (ahead : stream.pipe.transit = header ++ later)
      (carries : FramedPipe.Carries codec.frame { stream.pipe with transit := later } underway)
  | accepted (reader : stream.readerKey = some key)
      (carries : stream.pipe.Carries codec.frame underway)

/-- What is left of a protocol behind the queues of the receiving end is, as long as the reader
goes on, the message it holds, the messages under way and those behind them, which are the ones in
the send queue as long as the writer goes on. -/
def WireStream.Ordered (codec : PeerNetMsgCodec) (key : StreamKey) (protoId : ProtocolID)
    (queue : List PeerNetMsg) (left : List Bytes) (stream : WireStream) : Prop :=
  ∃ underway behind, stream.Carries deps codec key underway ∧
    (∀ msg ∈ underway, codec.fits msg = true) ∧
    (stream.readerEnded = false →
      left = payloadsFor deps key protoId (stream.held.toList ++ underway) ++ behind) ∧
    (stream.writerEnded = false → behind = payloadsFor deps key protoId queue)

section Streams

variable {deps : WireDeps} {codec : PeerNetMsgCodec} {key : StreamKey} {protoId : ProtocolID}
  {queue underway : List PeerNetMsg} {left : List Bytes} {stream : WireStream} {msg : PeerNetMsg}
  {pipe : FramedPipe} {count : Nat}

section

variable (carries : stream.Carries deps codec key underway)

include carries

theorem WireStream.Carries.send (frames : codec.FramesFitting) (within : codec.fits msg = true)
    (sent : stream.pipe.send codec.toCodec msg = some (.ok pipe)) :
    WireStream.Carries deps codec key { stream with pipe } (underway ++ [msg]) := by
  rcases carries with ⟨ofProtocol, unread, nothing, written, ahead, carries⟩ | ⟨reader, carries⟩
  · obtain ⟨same, elsewhere⟩ := FramedPipe.send_transit sent
    exact .opened ofProtocol unread nothing written (same.trans ahead)
      (carries.send frames within (elsewhere _))
  · exact .accepted reader (carries.send frames within sent)

theorem WireStream.Carries.write
    (written : stream.pipe.write codec.toCodec count = some (.ok pipe)) :
    WireStream.Carries deps codec key { stream with pipe } underway := by
  rcases carries with
    @⟨protoId, header, later, ofProtocol, unread, nothing, begun, ahead, carries⟩ |
      ⟨reader, carries⟩
  · obtain ⟨reading, ⟨bytes, moved⟩, same⟩ := FramedPipe.write_eq_some written
    rw [ahead, List.append_assoc] at moved
    refine .opened ofProtocol unread nothing begun moved ?_
    rw [moved, ahead, List.append_assoc header, List.append_assoc header] at same
    have behind := List.append_cancel_left same
    unfold FramedPipe.Carries at carries ⊢
    rw [reading, behind]
    exact carries
  · exact .accepted reader (carries.write written)

/-- The receiving end reads the header that was written, and the messages are left. -/
theorem WireStream.Carries.accept (lawful : deps.streamInit.RoundTrips Eq) {opened : MuxStream}
    (unread : stream.readerKey = none) (read : readHeader deps stream.pipe.transit = .ok opened) :
    WireStream.Carries deps codec key
      { stream with
        readerKey := some (some opened.protoId)
        pipe := { stream.pipe with transit := stream.pipe.transit.drop opened.header.length } }
      underway := by
  rcases carries with ⟨ofProtocol, _, _, written, ahead, carries⟩ | ⟨reader, _⟩
  · rw [ahead, readHeader_streamHeader lawful written] at read
    cases read
    refine .accepted (congrArg some ofProtocol.symm) ?_
    rw [ahead, List.drop_left]
    exact carries
  · rw [unread] at reader
    cases reader

theorem WireStream.Carries.pipe_of_accepted (accepted : stream.readerKey.isSome = true) :
    stream.readerKey = some key ∧ stream.pipe.Carries codec.frame underway := by
  rcases carries with ⟨_, unread, _, _, _, _⟩ | ⟨reader, carries⟩
  · rw [unread] at accepted
    cases accepted
  · exact ⟨reader, carries⟩

theorem WireStream.Carries.flags (writerEnded readerEnded : Bool) :
    WireStream.Carries deps codec key { stream with writerEnded, readerEnded } underway := by
  rcases carries with ⟨ofProtocol, unread, nothing, written, ahead, carries⟩ | ⟨reader, carries⟩
  · exact .opened ofProtocol unread nothing written ahead carries
  · exact .accepted reader carries

end

theorem fits_of_send {next : FramedPipe} (sent : pipe.send codec.toCodec msg = some (.ok next)) :
    codec.fits msg = true := by
  by_contra tooLong
  obtain ⟨error, refused⟩ :=
    PeerNetMsgCodec.encode_of_not_fits (Bool.eq_false_iff.mpr tooLong) pipe.writing
  have failed : FramedWriter.encodeMsg ⟨codec.toCodec, pipe.writing⟩ msg = .error error := by
    simp only [FramedWriter.encodeMsg, PeerNetMsgCodec.toCodec, refused]
    rfl
  unfold FramedPipe.send at sent
  rw [failed] at sent
  split at sent
  · cases sent
  · cases sent

/-- The writer takes the first message of its queue, and the message goes under way. -/
theorem WireStream.Ordered.take
    (ordered : stream.Ordered deps codec key protoId (msg :: queue) left)
    (frames : codec.FramesFitting) (going : stream.writerEnded = false)
    (sent : stream.pipe.send codec.toCodec msg = some (.ok pipe)) :
    WireStream.Ordered deps codec key protoId queue left { stream with pipe } := by
  obtain ⟨underway, behind, carries, fitting, ahead, queued⟩ := ordered
  have within := fits_of_send sent
  refine ⟨underway ++ [msg], payloadsFor deps key protoId queue, carries.send frames within sent,
    ?_, fun reads => ?_, fun _ => rfl⟩
  · intro other member
    rcases mem_concat.mp member with before | rfl
    · exact fitting other before
    · exact within
  · rw [ahead reads, queued going, ← List.singleton_append]
    simp only [payloadsFor_append, List.append_assoc]

section

variable (ordered : stream.Ordered deps codec key protoId queue left)

include ordered

/-- What is behind the messages under way does not matter once the writer has ended. -/
theorem WireStream.Ordered.endWriter (later : List PeerNetMsg) :
    WireStream.Ordered deps codec key protoId later left
      { stream with writerEnded := true } := by
  obtain ⟨underway, behind, carries, fitting, ahead, _⟩ := ordered
  exact ⟨underway, behind, carries.flags true stream.readerEnded, fitting, ahead, nofun⟩

theorem WireStream.Ordered.endReader :
    WireStream.Ordered deps codec key protoId queue left { stream with readerEnded := true } := by
  obtain ⟨underway, behind, carries, fitting, _, queued⟩ := ordered
  exact ⟨underway, behind, carries.flags stream.writerEnded true, fitting, nofun, queued⟩

theorem WireStream.Ordered.write
    (written : stream.pipe.write codec.toCodec count = some (.ok pipe)) :
    WireStream.Ordered deps codec key protoId queue left { stream with pipe } := by
  obtain ⟨underway, behind, carries, rest⟩ := ordered
  exact ⟨underway, behind, carries.write written, rest⟩

theorem WireStream.Ordered.accept (lawful : deps.streamInit.RoundTrips Eq) {opened : MuxStream}
    (unread : stream.readerKey = none) (read : readHeader deps stream.pipe.transit = .ok opened) :
    WireStream.Ordered deps codec key protoId queue left
      { stream with
        readerKey := some (some opened.protoId)
        pipe :=
          { stream.pipe with transit := stream.pipe.transit.drop opened.header.length } } := by
  obtain ⟨underway, behind, carries, rest⟩ := ordered
  exact ⟨underway, behind, carries.accept lawful unread read, rest⟩

theorem WireStream.Ordered.read (accepted : stream.readerKey.isSome = true)
    (taken : stream.pipe.read codec.toCodec count = some pipe) :
    WireStream.Ordered deps codec key protoId queue left { stream with pipe } := by
  obtain ⟨underway, behind, carries, rest⟩ := ordered
  obtain ⟨reader, bytes⟩ := carries.pipe_of_accepted accepted
  exact ⟨underway, behind, .accepted reader (bytes.read taken), rest⟩

/-- What a reader decodes is the first message under way, and it holds that one. -/
theorem WireStream.Ordered.decode {result : Except Net.Error PeerNetMsg}
    (frames : codec.FramesFitting) (accepted : stream.readerKey.isSome = true)
    (nothing : stream.held = none)
    (decoded : stream.pipe.decode codec.toCodec = some (result, pipe)) :
    ∃ msg, result = .ok msg ∧
      WireStream.Ordered deps codec key protoId queue left
        { stream with pipe, held := some msg } := by
  obtain ⟨underway, behind, carries, fitting, ahead, queued⟩ := ordered
  obtain ⟨reader, bytes⟩ := carries.pipe_of_accepted accepted
  obtain ⟨msg, others, rfl, rfl, later⟩ := bytes.decode frames fitting decoded
  refine ⟨msg, rfl, others, behind, .accepted reader later, ?_, fun reads => ?_, queued⟩
  · exact fun other member => fitting other (List.mem_cons_of_mem msg member)
  · rw [ahead reads, nothing]
    rfl

/-- The message that the reader holds is handed on. -/
theorem WireStream.Ordered.deliver (reads : stream.readerEnded = false)
    (accepted : stream.readerKey.isSome = true) (holds : stream.held = some msg) :
    ∃ others, left = payloadsFor deps key protoId [msg] ++ others ∧
      WireStream.Ordered deps codec key protoId queue others { stream with held := none } := by
  obtain ⟨underway, behind, carries, fitting, ahead, queued⟩ := ordered
  obtain ⟨reader, bytes⟩ := carries.pipe_of_accepted accepted
  refine ⟨payloadsFor deps key protoId underway ++ behind, ?_, underway, behind,
    .accepted reader bytes, fitting, fun _ => rfl, queued⟩
  rw [ahead reads, holds, payloadsFor_append, List.append_assoc]
  rfl

theorem WireStream.Ordered.push (msg : PeerNetMsg) :
    stream.Ordered deps codec key protoId (queue ++ [msg])
      (left ++ payloadsFor deps key protoId [msg]) := by
  obtain ⟨underway, behind, carries, fitting, ahead, queued⟩ := ordered
  refine ⟨underway, behind ++ payloadsFor deps key protoId [msg], carries, fitting,
    fun reads => ?_, fun writes => ?_⟩
  · rw [ahead reads, List.append_assoc]
  · rw [queued writes, payloadsFor_append]

end

end Streams

/-! ### The messages of a protocol are in order -/

/-- What was queued for a protocol is what was returned, then what waits in the queue of the
receiving end, then what is left on the protocol's stream. -/
structure Delivery.InOrder (deps : WireDeps) (codec : PeerNetMsgCodec)
    (history : List DeliveryEvent) (state : Delivery) : Prop where
  kinds : ∀ key stream, state.streams key = some stream → key.isNone = state.near.isSingle
  fifo : ∀ protoId, ∃ left, sentOn protoId history =
      messagesOf (returnedOn protoId history) ++ (state.far.waiting protoId ++ left) ∧
    ∀ stream, state.streams (state.near.streamOf protoId) = some stream →
      stream.Ordered deps codec (state.near.streamOf protoId) protoId
        (state.near.queued (state.near.streamOf protoId)) left

namespace Delivery

variable {deps : PeerDeps} {codec : PeerNetMsgCodec} {history : List DeliveryEvent}
  {state next : Delivery} {key : StreamKey} {later : WireStream} {events : List DeliveryEvent}
  {wireDeps : WireDeps}

theorem readable_eq_some {stream : WireStream} (reads : state.readable key = some stream) :
    state.streams key = some stream ∧ stream.readerKey.isSome = true ∧ stream.held = none := by
  revert reads
  fun_cases readable <;> rintro ⟨⟩
  rename_i found going
  exact ⟨found, going.2.1, going.2.2.2⟩

section

variable (inOrder : state.InOrder deps.wire codec history)

include inOrder

section

variable {stream : WireStream} (found : state.streams key = some stream)

include found

theorem InOrder.kinds_update {itsStream : WireStream} {other : StreamKey}
    (replaced : Function.update state.streams key (some later) other = some itsStream) :
    other.isNone = state.near.isSingle := by
  by_cases here : other = key
  · rw [here]
    exact inOrder.kinds key stream found
  · rw [Function.update_of_ne here] at replaced
    exact inOrder.kinds other itsStream replaced

/-- A step of one stream keeps the order if it does for every protocol of the stream. -/
theorem InOrder.update {near : Wire} (same : near.isSingle = state.near.isSingle)
    (others : ∀ other, other ≠ key → near.queued other = state.near.queued other)
    (kept : ∀ protoId left,
      stream.Ordered deps.wire codec key protoId (state.near.queued key) left →
      later.Ordered deps.wire codec key protoId (near.queued key) left) :
    InOrder deps.wire codec history ({ state with near }.withStream key later) where
  kinds other itsStream at_ := (inOrder.kinds_update found at_).trans same.symm
  fifo protoId := by
    obtain ⟨left, sent, ordered⟩ := inOrder.fifo protoId
    have streamOf : near.streamOf protoId = state.near.streamOf protoId := by
      rw [Wire.streamOf, Wire.streamOf, same]
    refine ⟨left, sent, fun itsStream at_ => ?_⟩
    show itsStream.Ordered deps.wire codec (near.streamOf protoId) protoId
      (near.queued (near.streamOf protoId)) left
    have placed : Function.update state.streams key (some later) (near.streamOf protoId) =
        some itsStream := at_
    rw [streamOf] at placed ⊢
    by_cases here : state.near.streamOf protoId = key
    · rw [here, Function.update_self] at placed
      cases placed
      rw [here] at ordered ⊢
      exact kept protoId left (ordered stream found)
    · rw [Function.update_of_ne here] at placed
      rw [others _ here]
      exact ordered itsStream placed

theorem InOrder.withStream (kept : ∀ protoId left,
      stream.Ordered deps.wire codec key protoId (state.near.queued key) left →
      later.Ordered deps.wire codec key protoId (state.near.queued key) left) :
    InOrder deps.wire codec history (state.withStream key later) :=
  inOrder.update found rfl (fun _ _ => rfl) kept

end

/-- A message that goes into a send queue is the last one of its protocol, if it is for one. -/
theorem InOrder.push {msg : PeerNetMsg}
    {queue : SendQueue} (found : state.near.sendQueue key = some queue)
    (nothing : ∀ protoId, returnedOn protoId events = [])
    (here : ∀ protoId, state.near.streamOf protoId = key →
      sentOn protoId events = payloadsFor deps.wire key protoId [msg])
    (elsewhere : ∀ protoId, state.near.streamOf protoId ≠ key → sentOn protoId events = []) :
    InOrder deps.wire codec (history ++ events)
      { state with near := state.near.withSendQueue key (queue ++ [msg]) } where
  kinds other stream at_ := by
    rw [Wire.isSingle_withSendQueue]
    exact inOrder.kinds other stream at_
  fifo protoId := by
    obtain ⟨left, sent, ordered⟩ := inOrder.fifo protoId
    have streamOf : (state.near.withSendQueue key (queue ++ [msg])).streamOf protoId =
        state.near.streamOf protoId := by
      rw [Wire.streamOf, Wire.streamOf, Wire.isSingle_withSendQueue]
    refine ⟨left ++ sentOn protoId events, ?_, fun stream at_ => ?_⟩
    · rw [sentOn_append, returnedOn_append, nothing, List.append_nil, sent]
      simp only [List.append_assoc]
    · simp only [streamOf] at at_ ⊢
      have before := ordered stream at_
      rw [Wire.queued, Wire.sendQueue_withSendQueue found]
      by_cases same : state.near.streamOf protoId = key
      · rw [if_pos same, here protoId same, ← same]
        rw [Wire.queued, same, found, ← same] at before
        exact before.push msg
      · rw [if_neg same, elsewhere protoId same, List.append_nil]
        exact before

theorem InOrder.send (lawful : deps.wire.Lawful)
    {protoId : ProtocolID} (taken : state.send deps protoId payload = some (next, events)) :
    next.InOrder deps.wire codec (history ++ events) := by
  revert taken
  fun_cases Delivery.send <;> rintro ⟨⟩
  rename_i near sent
  obtain ⟨netMsg, queue, built, found, pushes⟩ := Wire.send_cases sent
  obtain ⟨later, pushed, rfl⟩ := Option.map_eq_some_iff.mp pushes.symm
  obtain ⟨_, rfl⟩ := pushQueue_eq_some.mp pushed
  have target := state.near.routed_new lawful.protocolMsg built
  refine inOrder.push found (fun _ => rfl) (fun name same => ?_) (fun name other => ?_)
  · rw [payloadsFor_of_routed target]
    by_cases isName : protoId = name <;> simp [sentOn, DeliveryEvent.sentOn, isName]
  · have differs : protoId ≠ name := fun same => other (congrArg state.near.streamOf same.symm)
    simp [sentOn, DeliveryEvent.sentOn, differs]

theorem InOrder.sendShutdown (taken : state.sendShutdown deps = some next) :
    next.InOrder deps.wire codec history := by
  unfold Delivery.sendShutdown at taken
  split at taken
  · rename_i msg queue built found
    obtain ⟨later, pushed, rfl⟩ := Option.map_eq_some_iff.mp taken
    obtain ⟨bytes, encoded, rfl⟩ := PeerNetMsg.new_eq_ok built
    rw [(pushQueue_eq_some.mp pushed).2, ← List.append_nil history]
    exact inOrder.push found (fun _ => rfl) (fun _ _ => rfl) (fun _ _ => rfl)
  · cases taken

theorem InOrder.take (frames : codec.FramesFitting) (taken : state.take codec key = some next) :
    next.InOrder deps.wire codec history := by
  unfold Delivery.take at taken
  split at taken
  · rename_i stream msg near found written
    obtain ⟨rest, queue, rfl⟩ := Wire.write_eq_some written
    have full : state.near.queued key = msg :: rest := by rw [Wire.queued, queue, Option.getD_some]
    have popped : (state.near.withSendQueue key rest).queued key = rest := by
      rw [Wire.queued, Wire.sendQueue_withSendQueue queue, if_pos rfl, Option.getD_some]
    have others (other : StreamKey) (differs : other ≠ key) :
        (state.near.withSendQueue key rest).queued other = state.near.queued other := by
      rw [Wire.queued, Wire.sendQueue_withSendQueue queue, if_neg differs, Wire.queued]
    have single := state.near.isSingle_withSendQueue key rest
    obtain ⟨going, taken⟩ := Option.ite_none_left_eq_some.mp taken
    split at taken
    · rename_i pipe sent
      cases taken
      refine inOrder.update found single others fun protoId left ordered => ?_
      rw [full] at ordered
      rw [popped]
      exact ordered.take frames (Bool.eq_false_iff.mpr going) sent
    · cases taken
      exact inOrder.update found single others fun protoId left ordered => ordered.endWriter _
    · cases taken
  · cases taken

theorem InOrder.write {count : Nat} (taken : state.write codec key count = some next) :
    next.InOrder deps.wire codec history := by
  revert taken
  fun_cases Delivery.write
  all_goals rintro ⟨⟩
  next found _ _ written =>
    exact inOrder.withStream found fun protoId left ordered => ordered.write written
  next found _ _ _ => exact inOrder.withStream found fun protoId left ordered => ordered.endWriter _

theorem InOrder.accept (lawful : deps.wire.Lawful)
    (taken : state.accept deps key = some next) : next.InOrder deps.wire codec history := by
  unfold Delivery.accept at taken
  split at taken
  · rename_i stream expected found _
    split at taken
    · rename_i opened unread read
      obtain ⟨_, ⟨⟩⟩ := Option.ite_none_right_eq_some.mp taken
      have kept : InOrder deps.wire codec history { state with expected } :=
        ⟨inOrder.kinds, inOrder.fifo⟩
      exact kept.withStream found fun protoId left ordered =>
        ordered.accept lawful.streamInit unread read
    · cases taken
  · cases taken

theorem InOrder.read {count : Nat} (taken : state.read codec key count = some next) :
    next.InOrder deps.wire codec history := by
  unfold Delivery.read at taken
  split at taken
  · rename_i stream reads
    obtain ⟨found, accepted, _⟩ := readable_eq_some reads
    obtain ⟨pipe, moved, rfl⟩ := Option.map_eq_some_iff.mp taken
    exact inOrder.withStream found fun protoId left ordered => ordered.read accepted moved
  · cases taken

theorem InOrder.decode (frames : codec.FramesFitting) (taken : state.decode codec key = some next) :
    next.InOrder deps.wire codec history := by
  unfold Delivery.decode at taken
  split at taken
  · rename_i stream reads
    obtain ⟨found, accepted, nothing⟩ := readable_eq_some reads
    split at taken
    · rename_i msg pipe decoded
      cases taken
      refine inOrder.withStream found fun protoId left ordered => ?_
      obtain ⟨_, same, later⟩ := ordered.decode frames accepted nothing decoded
      cases same
      exact later
    · cases taken
      exact inOrder.withStream found fun protoId left ordered => ordered.endReader
    · cases taken
  · cases taken

section

variable {stream : WireStream} (found : state.streams key = some stream)

include found

theorem InOrder.readerKey_eq {readerKey : StreamKey} (reader : stream.readerKey = some readerKey) :
    readerKey = key := by
  have kind := inOrder.kinds key stream found
  have ofProtocol : ∃ protoId, state.near.streamOf protoId = key := by
    rcases key with _ | protoId
    · exact ⟨"", if_pos kind.symm⟩
    · exact ⟨protoId, if_neg (Bool.eq_false_iff.mp kind.symm)⟩
  obtain ⟨protoId, rfl⟩ := ofProtocol
  obtain ⟨left, _, ordered⟩ := inOrder.fifo protoId
  obtain ⟨underway, behind, carries, _⟩ := ordered stream found
  obtain ⟨same, _⟩ := carries.pipe_of_accepted (by rw [reader, Option.isSome_some])
  exact Option.some.inj (reader.symm.trans same)

/-- The message that a reader hands on goes from the stream to the queue of its protocol. -/
theorem InOrder.handOver {msg : PeerNetMsg} {queue : List ProtocolEvent}
    (reads : stream.readerEnded = false) (accepted : stream.readerKey.isSome = true)
    (holds : stream.held = some msg) (target : routed deps.wire key msg = some (name, payload))
    (lookup : state.far.recvQueues.lookup name = some queue) :
    InOrder deps.wire codec history
      (Delivery.withStream
        { state with
          far := state.far.withRecvQueues
            (state.far.recvQueues.insert name (queue ++ [.message payload])) }
        key { stream with held := none }) where
  kinds other itsStream at_ := inOrder.kinds_update found at_
  fifo protoId := by
    obtain ⟨left, sent, ordered⟩ := inOrder.fifo protoId
    have waiting : state.far.waiting protoId ++ payloadsFor deps.wire key protoId [msg] =
        (state.far.withRecvQueues (state.far.recvQueues.insert name
          (queue ++ [.message payload]))).waiting protoId := by
      rw [Wire.waiting_insert, payloadsFor_of_routed target]
      by_cases same : protoId = name
      · rw [if_pos same, if_pos same.symm, Wire.waiting, same, lookup, messagesOf_append]
        rfl
      · rw [if_neg same, if_neg (Ne.symm same), List.append_nil]
    by_cases here : state.near.streamOf protoId = key
    · rw [here] at ordered
      obtain ⟨others, rfl, later⟩ := (ordered stream found).deliver reads accepted holds
      refine ⟨others, ?_, fun itsStream at_ => ?_⟩
      · rw [sent, ← List.append_assoc (state.far.waiting protoId), waiting]
        rfl
      · have placed : Function.update state.streams key (some { stream with held := none })
            (state.near.streamOf protoId) = some itsStream := at_
        rw [here, Function.update_self] at placed
        cases placed
        show WireStream.Ordered deps.wire codec (state.near.streamOf protoId) protoId
          (state.near.queued (state.near.streamOf protoId)) others _
        rw [here]
        exact later
    · have other : protoId ≠ name := fun same => here
        (same ▸ Wire.streamOf_routed (inOrder.kinds key stream found) target)
      rw [payloadsFor_of_routed target, if_neg (Ne.symm other), List.append_nil] at waiting
      refine ⟨left, ?_, fun itsStream at_ => ?_⟩
      · rw [sent, waiting]
        rfl
      · exact ordered itsStream ((Function.update_of_ne here _ _).symm.trans at_)

end

theorem InOrder.deliver (taken : state.deliver deps key = some next) :
    next.InOrder deps.wire codec history := by
  revert taken
  fun_cases Delivery.deliver <;> rintro ⟨⟩
  next stream found readerKey msg holds reader reads far read =>
    have accepted : stream.readerKey.isSome = true := by rw [reader, Option.isSome_some]
    obtain ⟨name, queue, payload, target, lookup, rfl⟩ := Wire.read_eq_ok read
    rw [inOrder.readerKey_eq found reader] at target
    exact inOrder.handOver found reads accepted holds target lookup
  next stream found _ _ _ _ _ _ _ =>
    exact inOrder.withStream found fun protoId left ordered => ordered.endReader

theorem InOrder.endWriter (taken : state.endWriter key = some next) :
    next.InOrder deps.wire codec history := by
  obtain ⟨stream, found, rfl⟩ := Option.map_eq_some_iff.mp taken
  exact inOrder.withStream found fun protoId left ordered => ordered.endWriter _

theorem InOrder.endReader (taken : state.endReader key = some next) :
    next.InOrder deps.wire codec history := by
  obtain ⟨stream, found, rfl⟩ := Option.map_eq_some_iff.mp taken
  exact inOrder.withStream found fun protoId left ordered => ordered.endReader

/-- The queue of a protocol at the receiving end changes together with what was returned. -/
theorem InOrder.withFar {queue later : List ProtocolEvent}
    (found : state.far.recvQueues.lookup name = some queue)
    (nothing : ∀ protoId, sentOn protoId events = [])
    (elsewhere : ∀ protoId, protoId ≠ name → returnedOn protoId events = [])
    (here : messagesOf queue = messagesOf (returnedOn name events) ++ messagesOf later) :
    InOrder deps.wire codec (history ++ events)
      { state with
        far := state.far.withRecvQueues (state.far.recvQueues.insert name later) } where
  kinds := inOrder.kinds
  fifo protoId := by
    obtain ⟨left, sent, ordered⟩ := inOrder.fifo protoId
    refine ⟨left, ?_, ordered⟩
    rw [sentOn_append, returnedOn_append, messagesOf_append, nothing, List.append_nil, sent,
      Wire.waiting_insert]
    by_cases same : protoId = name
    · have whole : state.far.waiting name = messagesOf queue := by
        rw [Wire.waiting, found, Option.getD_some]
      rw [if_pos same, same, whole, here]
      simp only [List.append_assoc]
    · rw [if_neg same, elsewhere protoId same]
      simp only [messagesOf, List.filterMap_nil, List.append_nil]

theorem InOrder.recv {protoId : ProtocolID} (taken : state.recv protoId = some (next, events)) :
    next.InOrder deps.wire codec (history ++ events) := by
  revert taken
  fun_cases Delivery.recv <;> rintro ⟨⟩
  rename_i event _ received
  obtain ⟨rest, found, rfl⟩ := Wire.recv_eq_ok received
  refine inOrder.withFar found (fun _ => rfl) (fun other differs => ?_) ?_
  · simp [returnedOn, DeliveryEvent.returnedOn, Ne.symm differs]
  · have returned : returnedOn protoId [.received protoId event] = [event] := by
      simp [returnedOn, DeliveryEvent.returnedOn]
    rw [returned, ← messagesOf_append, List.singleton_append]

theorem InOrder.pushShutdown {protoId : ProtocolID}
    (taken : state.pushShutdown protoId = some next) :
    next.InOrder deps.wire codec history := by
  unfold Delivery.pushShutdown at taken
  split at taken
  · rename_i queue found
    obtain ⟨later, pushed, rfl⟩ := Option.map_eq_some_iff.mp taken
    rw [(pushQueue_eq_some.mp pushed).2, ← List.append_nil history]
    refine inOrder.withFar found (fun _ => rfl) (fun _ _ => rfl) ?_
    rw [messagesOf_append]
    exact (List.append_nil _).symm
  · cases taken

theorem InOrder.step (lawful : deps.wire.Lawful) (frames : codec.FramesFitting)
    {action : DeliveryAction} (taken : state.step deps codec action = some (next, events)) :
    next.InOrder deps.wire codec (history ++ events) := by
  have silently {result : Option Delivery} (stepped : result.map (·, []) = some (next, events))
      (kept : result = some next → next.InOrder deps.wire codec history) :
      next.InOrder deps.wire codec (history ++ events) := by
    obtain ⟨_, found, ⟨⟩⟩ := Option.map_eq_some_iff.mp stepped
    rw [List.append_nil]
    exact kept found
  cases action with
  | send protoId payload => exact inOrder.send lawful taken
  | recv protoId => exact inOrder.recv taken
  | sendShutdown => exact silently taken (inOrder.sendShutdown)
  | take key => exact silently taken (inOrder.take frames)
  | write key count => exact silently taken (inOrder.write)
  | endWriter key => exact silently taken (inOrder.endWriter)
  | accept key => exact silently taken (inOrder.accept lawful)
  | read key count => exact silently taken (inOrder.read)
  | decode key => exact silently taken (inOrder.decode frames)
  | deliver key => exact silently taken (inOrder.deliver)
  | endReader key => exact silently taken (inOrder.endReader)
  | pushShutdown protoId => exact silently taken (inOrder.pushShutdown)

end

/-- Two ends with empty queues whose streams carry no message are in order. -/
theorem InOrder.empty (theirs : HashSet ProtocolID)
    (kinds : ∀ key stream, state.streams key = some stream → key.isNone = state.near.isSingle)
    (unsent : ∀ key, state.near.queued key = [])
    (built : state.far.recvQueues = buildRecvQueues theirs)
    (fresh : ∀ key stream, state.streams key = some stream → stream.held = none ∧
      stream.Carries wireDeps codec key []) :
    state.InOrder wireDeps codec [] where
  kinds := kinds
  fifo protoId := by
    refine ⟨[], ?_, fun stream found => ?_⟩
    · have nothing : state.far.waiting protoId = [] := by
        rw [Wire.waiting, built, lookup_buildRecvQueues]
        by_cases member : protoId ∈ theirs
        · rw [if_pos member]
          rfl
        · rw [if_neg member]
          rfl
      rw [nothing]
      rfl
    · obtain ⟨nothing, carries⟩ := fresh _ stream found
      refine ⟨[], [], carries, nofun, fun _ => ?_, fun _ => ?_⟩
      · rw [nothing]
        rfl
      · rw [unsent]
        rfl

theorem carries_new_accepted (key : StreamKey) :
    (WireStream.new (some key) []).Carries wireDeps codec key [] :=
  .accepted rfl FramedPipe.carries_new

theorem queued_openQueues (protoIds : List ProtocolID) (recvQueues : RecvQueues)
    (key : StreamKey) : (Wire.mux ⟨openQueues protoIds ∅, recvQueues⟩).queued key = [] := by
  rcases key with _ | protoId
  · rfl
  · show ((openQueues protoIds ∅).lookup protoId).getD [] = []
    rw [lookup_openQueues, AList.lookup_empty]
    by_cases member : protoId ∈ protoIds
    · rw [if_pos member, Option.getD_some]
    · rw [if_neg member, Option.getD_none]

theorem Connected.inOrder (lawful : wireDeps.Lawful) (connected : Connected wireDeps state) :
    state.InOrder wireDeps codec [] := by
  cases connected with
  | @pipe ours theirs agreed =>
    have only (key : StreamKey) (stream : WireStream)
        (found : (if key = none then some (WireStream.new (some none) []) else none) =
          some stream) : key = none ∧ stream = .new (some none) [] := by
      by_cases isPipe : key = none
      · rw [if_pos isPipe] at found
        exact ⟨isPipe, (Option.some.inj found).symm⟩
      · rw [if_neg isPipe] at found
        cases found
    refine .empty theirs (fun key stream found => ?_) (fun key => ?_) rfl fun key stream found => ?_
    · rw [(only key stream found).1]
      rfl
    · rcases key with _ | protoId <;> rfl
    · obtain ⟨rfl, rfl⟩ := only key stream found
      exact ⟨rfl, carries_new_accepted none⟩
  | @dialed ours theirs queues farQueues opened agreed opens =>
    obtain ⟨sameQueues, added, sameStreams, _, headers⟩ := openStreams_eq_ok opens
    dsimp only at sameQueues sameStreams
    subst sameQueues
    rw [List.nil_append] at sameStreams
    subst sameStreams
    have only (key : StreamKey) (stream : WireStream)
        (found : (key.bind fun protoId =>
          (opened.find? fun stream => stream.protoId == protoId).map fun stream =>
            WireStream.new none stream.header) = some stream) :
        ∃ muxStream ∈ opened, key = some muxStream.protoId ∧
          stream = .new none muxStream.header := by
      obtain ⟨protoId, rfl, mapped⟩ := Option.bind_eq_some_iff.mp found
      obtain ⟨muxStream, among, rfl⟩ := Option.map_eq_some_iff.mp mapped
      refine ⟨muxStream, List.mem_of_find?_eq_some among, ?_, rfl⟩
      have named := List.find?_some among
      rw [beq_iff_eq.mp named]
    refine .empty theirs (fun key stream found => ?_) (queued_openQueues _ _) rfl
      fun key stream found => ?_
    · obtain ⟨muxStream, _, rfl, _⟩ := only key stream found
      rfl
    · obtain ⟨muxStream, member, rfl, rfl⟩ := only key stream found
      exact ⟨rfl, .opened rfl rfl rfl (headers muxStream member) (List.append_nil _).symm
        FramedPipe.carries_new⟩
  | @accepted ours theirs queues farQueues opened arrived accepted incoming agreed opens order
      carried accepts =>
    obtain ⟨setup, _⟩ := acceptStreams_agreed lawful.streamInit carried agreed opens order
    rw [accepts] at setup
    cases setup
    have only (key : StreamKey) (stream : WireStream)
        (found : (key.bind fun protoId =>
          ((arrived.zip arrived).find? fun pair => pair.2.protoId == protoId).map fun pair =>
            WireStream.new (some (some pair.1.protoId)) []) = some stream) :
        ∃ protoId, key = some protoId ∧ stream = .new (some (some protoId)) [] := by
      obtain ⟨protoId, rfl, mapped⟩ := Option.bind_eq_some_iff.mp found
      obtain ⟨⟨first, second⟩, among, rfl⟩ := Option.map_eq_some_iff.mp mapped
      have diagonal : arrived.zip arrived = arrived.map fun stream => (stream, stream) :=
        List.zipWith_self
      have member := List.mem_of_find?_eq_some among
      rw [diagonal] at member
      obtain ⟨_, _, ⟨⟩⟩ := List.mem_map.mp member
      have named := List.find?_some among
      exact ⟨protoId, rfl, by rw [beq_iff_eq.mp named]⟩
    refine .empty theirs (fun key stream found => ?_) (queued_openQueues _ _) rfl
      fun key stream found => ?_
    · obtain ⟨protoId, rfl, _⟩ := only key stream found
      rfl
    · obtain ⟨protoId, rfl, rfl⟩ := only key stream found
      exact ⟨rfl, carries_new_accepted _⟩

end Delivery

/-- Between the ends of a connection that agree on the protocols, the messages that `recv` returns
for a protocol before the shutdown are the first ones that were queued for it, in that order: on
both wires, for every schedule of the tasks and every size of the pieces that are written and
read. -/
theorem delivery_fifo {deps : PeerDeps} {bincode : Bincode PeerNetMsg} {start state : Delivery}
    {history : List DeliveryEvent} (lawful : deps.wire.Lawful)
    (envelopes : bincode.RoundTrips Eq) (connected : Delivery.Connected deps.wire start)
    (run : (deliveryMachine deps (.new bincode) start).Run (fun _ _ => True) history state)
    (protoId : ProtocolID) :
    beforeShutdown (returnedOn protoId history) <+: sentOn protoId history := by
  have representable : (PeerNetMsgCodec.new bincode).innerCodec.maxSize < 2 ^ 32 := by
    show LengthCodec.default.maxSize < 2 ^ 32
    decide
  have frames := PeerNetMsgCodec.frames representable envelopes
  have inOrder := run.invariant
    (fun history state => state.InOrder deps.wire (.new bincode) history)
    (connected.inOrder lawful)
    fun _ _ _ _ _ inOrder _ taken => inOrder.step lawful frames taken
  obtain ⟨left, sent, _⟩ := inOrder.fifo protoId
  rw [sent]
  exact (beforeShutdown_isPrefix _).trans (List.prefix_append _ _)

theorem plainDeps_lawful : plainDeps.wire.Lawful where
  protocolMsg := by
    rintro ⟨name, payload⟩ bytes encoded
    simp only [plainDeps] at encoded
    split at encoded
    · rename_i named
      cases named
      cases encoded
      exact ⟨⟨"Chat", payload⟩, payload.length, rfl, rfl⟩
    · cases encoded
  streamInit := Bincode.ofTable_roundTrips [StreamInit.mk "Chat"] fun _ => rfl

/-- The dialling end of a QUIC connection with one protocol, whose stream was opened. -/
def dialedChat : Delivery where
  near := .mux ⟨AList.singleton "Chat" [], buildRecvQueues (AList.singleton "Chat" ())⟩
  streams := fun key => key.bind fun protoId =>
    ([⟨"Chat", [0, 0]⟩].find? fun stream : MuxStream => stream.protoId == protoId).map
      fun stream => .new none stream.header
  far := .mux ⟨∅, buildRecvQueues (AList.singleton "Chat" ())⟩
  negotiated := AList.singleton "Chat" ()
  expected := 1

/-- What was queued for the protocol and what `recv` returned. -/
def observedDelivery (reached : List DeliveryEvent × Delivery) :
    List Bytes × List ProtocolEvent :=
  (sentOn "Chat" reached.1, returnedOn "Chat" reached.1)

/-- The first message is written right behind the header, before the stream is accepted, and is
read in two chunks; the second one is still queued when `recv` returns the first. -/
theorem delivery_fifo_dialed :
    ∃ history state, (deliveryMachine plainDeps (.new envelopeBincode) dialedChat).Run
        (fun _ _ => True) history state ∧
      sentOn "Chat" history = [[7], [8]] ∧ returnedOn "Chat" history = [.message [7]] ∧
      beforeShutdown (returnedOn "Chat" history) <+: sentOn "Chat" history := by
  have opened : Delivery.Connected plainDeps.wire dialedChat :=
    .dialed (fun _ => Iff.rfl) rfl
  exact Machine.trace_run
    (fun history state => observedDelivery (history, state) = ([[7], [8]], [.message [7]]))
    [.send "Chat" [7], .send "Chat" [8], .take (some "Chat"), .write (some "Chat") 3,
      .accept (some "Chat"), .read (some "Chat") 2, .write (some "Chat") 9,
      .read (some "Chat") 4, .decode (some "Chat"), .deliver (some "Chat"), .recv "Chat"]
    (by decide +kernel) fun _ _ run observed => ⟨congrArg Prod.fst observed,
      congrArg Prod.snd observed,
      delivery_fifo plainDeps_lawful envelopeBincode_roundTrips opened run "Chat"⟩

end Karyon.P2p
