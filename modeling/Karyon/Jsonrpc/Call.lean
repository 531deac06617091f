/-
This file models a call of the JSON-RPC client, `Client::call` of `client/mod.rs`, over each of its
backends, and follows it to the handler of the server and back.

The multiplexed backend reads a reply as a notification or a response and dispatches a response by
its identifier; the others read one response from a stream or a body. What becomes of a message
between the two ends is a parameter. What is relied on is that the two messages of the call arrive
as they were sent, as they do between two JSON codecs (`Link.ofCodecs_jsonCodec`).

A call returns what the handler returned, the value or the error, over every backend, but for one
value: `null` is written as a `null` result, which is read as no result, so the call fails
(`call_returns_outcome_iff`, `call_loses_null`).
-/

import Karyon.Jsonrpc.Dispatch
import Karyon.Jsonrpc.JsonCodec

namespace Karyon.Jsonrpc

open Json

/-! ### The dispatcher of the multiplexed backend -/

inductive NewMsg where
  | notification (nt : Message.Notification)
  | response (res : Message.Response)

/-- The first reading that succeeds. -/
def NewMsg.fromValue (msg : Value) : Option NewMsg :=
  match Message.Notification.fromValue msg with
  | some nt => some (.notification nt)
  | none => (Message.Response.fromValue msg).map .response

/-- The channels on which the pending requests wait for their responses. -/
structure MessageDispatcher (Chan : Type) where
  chans : HashMap RequestID Chan

namespace MessageDispatcher

variable {Chan : Type}

def new : MessageDispatcher Chan :=
  { chans := ∅ }

variable (self : MessageDispatcher Chan)

def register (id : RequestID) (chan : Chan) : MessageDispatcher Chan :=
  { chans := self.chans.insert id chan }

def unregister (id : RequestID) : MessageDispatcher Chan :=
  { chans := self.chans.erase id }

/-- The channel on which a response is sent, which is not registered any more. -/
def dispatch (res : Message.Response) : Except JsonrpcError (Chan × MessageDispatcher Chan) :=
  match res.id with
  | none => .error (.invalidMsg "Response id is none")
  | some resId =>
    match resId.toUInt32 with
    | none => .error .parseJson
    | some id =>
      match self.chans.lookup id with
      | some chan => .ok (chan, self.unregister id)
      | none => .error (.invalidMsg "Receive unknown message")

theorem dispatch_eq_ok {self next : MessageDispatcher Chan} {res : Message.Response} {chan : Chan}
    (dispatched : self.dispatch res = .ok (chan, next)) :
    ∃ id, res.id = some (.ofUInt32 id) ∧ self.chans.lookup id = some chan ∧
      next = self.unregister id := by
  revert dispatched
  fun_cases dispatch <;> rintro ⟨⟩
  rename_i identified id read found
  rw [Value.toUInt32_eq_some read] at identified
  exact ⟨id, identified, found, rfl⟩

end MessageDispatcher

/-! ### A call -/

inductive ClientBackend where
  | multiplexed
  | quicStream
  | http
  | http3
  deriving DecidableEq

/-- What arrives of a message at the other end of the connection, in the two directions. -/
structure Link where
  toServer : Value → Option Value
  toClient : Value → Option Value

/-- A message that one end encodes and the other decodes. -/
def transfer (sender receiver : Net.Codec Value) (value : Value) : Option Value :=
  match sender.encode value [] with
  | .error _ => none
  | .ok (_, encoded) =>
    match receiver.decode encoded with
    | .ok (some (_, received)) => some received
    | _ => none

def Link.ofCodecs (client server : Net.Codec Value) : Link :=
  { toServer := transfer client server, toClient := transfer server client }

variable {serde : SerdeJson Value} {isObject : Value → Prop}

/-- Between two JSON codecs a message whose text is within both limits arrives as it was sent. -/
theorem transfer_jsonCodec {sender receiver : JsonCodec} (lawful : serde.Lawful isObject)
    {value : Value} (sent : sender.Valid serde isObject value)
    (received : receiver.Valid serde isObject value) :
    transfer (sender.toCodec serde) (receiver.toCodec serde) value = some value := by
  obtain ⟨length, encoded⟩ := (sender.frames lawful).encode value sent []
  have decoded := (receiver.frames lawful).complete value [] received
    (by rw [List.append_nil]; exact received.2.2)
  rw [List.append_nil] at decoded
  rw [transfer, encoded, List.nil_append]
  simp only [decoded]

/-- A link of two JSON codecs delivers in both directions what is within the limits of both. -/
theorem Link.ofCodecs_jsonCodec {client server : JsonCodec} (lawful : serde.Lawful isObject)
    {value : Value} (atClient : client.Valid serde isObject value)
    (atServer : server.Valid serde isObject value) :
    (Link.ofCodecs (client.toCodec serde) (server.toCodec serde)).toServer value = some value ∧
      (Link.ofCodecs (client.toCodec serde) (server.toCodec serde)).toClient value = some value :=
  ⟨transfer_jsonCodec lawful atClient atServer, transfer_jsonCodec lawful atServer atClient⟩

/-- Handlers of subscriptions are not served over HTTP/1 and HTTP/2. -/
def ClientBackend.allowsPubsub : ClientBackend → Bool
  | .http => false
  | _ => true

def Server.serve {Channel : Type} (server : Server Channel) (channel : Channel) (msg : Value) :
    ClientBackend → Message.Response
  | .multiplexed => server.handleRequest (some channel) msg
  | .quicStream => server.handleStream channel msg
  | .http => server.handleRequest none msg
  | .http3 => server.handleStream channel msg

def newRequest (id : RequestID) (method : String) (params : Value) : Message.Request :=
  { jsonrpc := JSONRPC_VERSION, id := .ofUInt32 id, method, params := some params }

/-- What a waiting multiplexed request makes of its response. -/
def checkResponseId (id : RequestID) (response : Message.Response) :
    Except JsonrpcError Message.Response :=
  match response.id with
  | none => .error (.invalidMsg "Missing response id")
  | some respId =>
    if respId.asU64 = some id.toUInt64 then .ok response
    else .error (.invalidMsg "Invalid response id")

/-- What the request that registered last in the dispatcher gets of a message that the loop reads,
if it gets anything. -/
def handleMuxMsg {Chan : Type} [DecidableEq Chan] (dispatcher : MessageDispatcher Chan)
    (id : RequestID) (chan : Chan) (msg : Value) :
    Option (Except JsonrpcError Message.Response) :=
  match NewMsg.fromValue msg with
  | some (.response res) =>
    match (dispatcher.register id chan).dispatch res with
    | .ok (found, _) => if found = chan then some (checkResponseId id res) else none
    | .error _ => none
  | _ => none

def readResponse (msg : Value) : Except JsonrpcError Message.Response :=
  match Message.Response.fromValue msg with
  | some response => .ok response
  | none => .error .parseJson

def callResult (response : Message.Response) : Except JsonrpcError Value :=
  match response.error, response.result with
  | some error, _ => .error (.callError error.code error.message)
  | none, some result => .ok result
  | none, none => .error (.invalidMsg "Invalid response result")

structure Client (Chan : Type) where
  backend : ClientBackend
  messageDispatcher : MessageDispatcher Chan

namespace Client

variable {Chan : Type} [DecidableEq Chan] {Channel : Type}

/-- The response of a call in a message from the server. -/
def receive (client : Client Chan) (id : RequestID) (chan : Chan) (msg : Value) :
    Option (Except JsonrpcError Message.Response) :=
  match client.backend with
  | .multiplexed => handleMuxMsg client.messageDispatcher id chan msg
  | .quicStream => some (readResponse msg)
  | .http => some (readResponse msg)
  | .http3 => some (readResponse msg)

/-- Call a method and wait for the response. There is no result if a message is lost, or if the
call is not given the message that comes back. -/
def call (client : Client Chan) (server : Server Channel) (link : Link) (channel : Channel)
    (id : RequestID) (chan : Chan) (method : String) (params : Value) :
    Option (Except JsonrpcError Value) := do
  let request ← link.toServer (newRequest id method params).toValue
  let reply ← link.toClient (server.serve channel request client.backend).toValue
  let response ← client.receive id chan reply
  return response.bind callResult

end Client

/-! ### The way back -/

/-- What a call returns for the outcome of a handler, if it returns the outcome. -/
def returned : RPCResult Value → Except JsonrpcError Value
  | .ok value => .ok value
  | .error err => .error (.callError (err.toError none).code (err.toError none).message)

/-- A response is not read as a notification. -/
theorem newMsg_fromValue_response (response : Message.Response) :
    NewMsg.fromValue response.toValue =
      (Message.Response.fromValue response.toValue).map .response := by
  rw [NewMsg.fromValue, Message.Notification.fromValue_response]

theorem fromValue_respond (id : RequestID) (outcome : RPCResult Value) :
    ∃ response, Message.Response.fromValue (respond (some (.ofUInt32 id)) outcome).toValue =
        some response ∧
      response.id = some (.ofUInt32 id) ∧
      (callResult response = returned outcome ↔ outcome ≠ .ok .null) := by
  refine ⟨_, Message.Response.fromValue_toValue _, ?_, ?_⟩
  · cases outcome <;> rfl
  · cases outcome with
    | error err => exact ⟨nofun, fun _ => rfl⟩
    | ok value =>
      cases value with
      | null => exact ⟨nofun, fun different => absurd rfl different⟩
      | _ => exact ⟨nofun, fun _ => rfl⟩

namespace Client

variable {Chan : Type} [DecidableEq Chan] {Channel : Type}

/-- Over every backend the call gets the response that carries its identifier. -/
theorem receive_eq (client : Client Chan) {id : RequestID} {chan : Chan}
    {answer response : Message.Response}
    (read : Message.Response.fromValue answer.toValue = some response)
    (same : response.id = some (.ofUInt32 id)) :
    client.receive id chan answer.toValue = some (.ok response) := by
  have plain : readResponse answer.toValue = .ok response := by
    rw [readResponse, read]
  have dispatched : handleMuxMsg client.messageDispatcher id chan answer.toValue =
      some (.ok response) := by
    rw [handleMuxMsg, newMsg_fromValue_response, read]
    simp only [Option.map_some, MessageDispatcher.dispatch, same, Value.toUInt32_ofUInt32,
      MessageDispatcher.register, AList.lookup_insert, if_true, checkResponseId,
      Value.asU64_ofUInt32]
  unfold receive
  cases client.backend with
  | multiplexed => exact dispatched
  | quicStream | http | http3 => exact congrArg some plain

end Client

theorem Server.serve_eq {Channel : Type} {server : Server Channel} {channel : Channel}
    {id : RequestID} {method srvcName methodName : String} {params : Value}
    {backend : ClientBackend} {outcome : RPCResult Value}
    (split : splitMethod method = some (srvcName, methodName))
    (ran : (server.resolveHandler srvcName methodName backend.allowsPubsub).outcome channel method
      params = some outcome) :
    server.serve channel (newRequest id method params).toValue backend =
      respond (some (.ofUInt32 id)) outcome := by
  have given : (nonNull (newRequest id method params).params).getD .null = params :=
    getD_nonNull params
  rw [← given] at ran
  cases backend with
  | multiplexed =>
    have own : ∀ given ∈ some channel, given = channel := fun _ same => (Option.some.inj same).symm
    exact handleRequest_eq rfl split own ran
  | quicStream => exact handleStream_eq rfl split ran
  | http =>
    have own : ∀ given ∈ (none : Option Channel), given = channel := nofun
    exact handleRequest_eq rfl split own ran
  | http3 => exact handleStream_eq rfl split ran

/-- A call returns what the handler returned, a value or an error, if and only if that is not the
value `null`: over every backend, for every method with a handler, every parameters and every
outcome, when the request and the response arrive as they were sent. -/
theorem call_returns_outcome_iff {Chan Channel : Type} [DecidableEq Chan] (client : Client Chan)
    (server : Server Channel) (link : Link) (channel : Channel) (id : RequestID) (chan : Chan)
    {method srvcName methodName : String} (params : Value) {outcome : RPCResult Value}
    (split : splitMethod method = some (srvcName, methodName))
    (ran : (server.resolveHandler srvcName methodName client.backend.allowsPubsub).outcome channel
      method params = some outcome)
    (requested : link.toServer (newRequest id method params).toValue =
      some (newRequest id method params).toValue)
    (answered : link.toClient (respond (some (.ofUInt32 id)) outcome).toValue =
      some (respond (some (.ofUInt32 id)) outcome).toValue) :
    client.call server link channel id chan method params = some (returned outcome) ↔
      outcome ≠ .ok .null := by
  obtain ⟨response, read, same, result⟩ := fromValue_respond id outcome
  have called : client.call server link channel id chan method params =
      some (callResult response) := by
    unfold Client.call
    rw [requested, Option.bind_eq_bind, Option.bind_some, Server.serve_eq split ran, answered,
      Option.bind_eq_bind, Option.bind_some, client.receive_eq read same]
    rfl
  rw [called, Option.some.injEq]
  exact result

/-! ### A sample server -/

/-- A service with a method that returns its parameters, one that refuses them and one that
returns nothing. -/
def sampleService : RPCService where
  getMethod
    | "echo" => some fun params => .ok params
    | "refuse" => some fun _ => .error (.invalidParams "refused")
    | "nothing" => some fun _ => .ok .null
    | _ => none

def sampleServer : Server Unit :=
  { services := AList.singleton "Sample" sampleService, pubsubServices := ∅ }

def directLink : Link :=
  { toServer := some, toClient := some }

def sampleClient (backend : ClientBackend) : Client Unit :=
  { backend, messageDispatcher := .new }

/-- A value comes back from a multiplexed call, and an error from one over HTTP. -/
theorem call_returns_outcome_sample :
    (sampleClient .multiplexed).call sampleServer directLink () 7 () "Sample.echo" (.bool true) =
        some (.ok (.bool true)) ∧
      (sampleClient .http).call sampleServer directLink () 7 () "Sample.refuse" .null =
        some (.error (.callError (-32602) "refused")) := by
  have echoed : (sampleServer.resolveHandler "Sample" "echo" true).outcome () "Sample.echo"
      (.bool true) = some (.ok (.bool true)) := rfl
  have refused : (sampleServer.resolveHandler "Sample" "refuse" false).outcome () "Sample.refuse"
      .null = some (.error (.invalidParams "refused")) := rfl
  exact ⟨(call_returns_outcome_iff (sampleClient .multiplexed) sampleServer directLink () 7 ()
      (.bool true) rfl echoed rfl rfl).mpr nofun,
    (call_returns_outcome_iff (sampleClient .http) sampleServer directLink () 7 ()
      .null rfl refused rfl rfl).mpr nofun⟩

/-- The handler returns the value `null`, and the call fails over every backend. -/
theorem call_loses_null :
    (sampleServer.resolveHandler "Sample" "nothing" true).outcome () "Sample.nothing" .null =
        some (.ok .null) ∧
      ∀ backend,
        (sampleClient backend).call sampleServer directLink () 7 () "Sample.nothing" .null =
          some (.error (.invalidMsg "Invalid response result")) := by
  refine ⟨rfl, fun backend => ?_⟩
  cases backend <;> rfl

/-! ### Replies of an arbitrary server -/

namespace ClientBackend

variable {Chan : Type} [DecidableEq Chan]

/-- The response that decides a call: the first that it is given of the messages from the server,
each with what the dispatcher holds for other requests when it is read. -/
def decides (backend : ClientBackend) (id : RequestID) (chan : Chan)
    (replies : List (MessageDispatcher Chan × Value)) :
    Option (Except JsonrpcError Message.Response) :=
  replies.findSome? fun reply => Client.receive ⟨backend, reply.1⟩ id chan reply.2

/-- A call returns a value or the error of a call only for a response with its identifier. -/
def Matches (backend : ClientBackend) (chan : Chan) : Prop :=
  ∀ id replies outcome, (backend.decides id chan replies).map (·.bind callResult) = some outcome →
    (∃ value, outcome = .ok value) ∨ (∃ code message, outcome = .error (.callError code message)) →
    ∃ response, backend.decides id chan replies = some (.ok response) ∧
      response.id = some (.ofUInt32 id)

/-- A multiplexed request is given a response with its identifier, or refuses it. -/
theorem handleMuxMsg_eq_some {dispatcher : MessageDispatcher Chan} {id : RequestID} {chan : Chan}
    {msg : Value} {decision : Except JsonrpcError Message.Response}
    (handled : handleMuxMsg dispatcher id chan msg = some decision) :
    (∃ response, decision = .ok response ∧ response.id = some (.ofUInt32 id)) ∨
      ∃ text, decision = .error (.invalidMsg text) := by
  revert handled
  fun_cases handleMuxMsg <;> rintro ⟨⟩
  rename_i dispatched
  obtain ⟨other, identified, _⟩ := MessageDispatcher.dispatch_eq_ok dispatched
  rw [checkResponseId, identified]
  dsimp only
  split
  · rename_i same
    rw [Value.asU64_ofUInt32] at same
    refine .inl ⟨_, rfl, ?_⟩
    rw [identified, UInt32.toUInt64_inj.mp (Option.some.inj same)]
  · exact .inr ⟨_, rfl⟩

/-- A response with another identifier. -/
def strayResponse : Message.Response :=
  { jsonrpc := JSONRPC_VERSION, id := some (.ofUInt32 8), result := some (.bool true),
    error := none }

theorem strayResponse_id : strayResponse.id ≠ some (.ofUInt32 7) := by
  intro same
  exact absurd (congrArg (·.bind Value.asU64) same) (by decide)

end ClientBackend

/-- The responses are matched over the multiplexed backend and over no other. -/
theorem responses_matched_iff {Chan : Type} [DecidableEq Chan] (backend : ClientBackend)
    (chan : Chan) : backend.Matches chan ↔ backend = .multiplexed := by
  have stray (others : backend ≠ .multiplexed) : ¬ backend.Matches chan := by
    intro matched
    have decided : backend.decides 7 chan [(.new, ClientBackend.strayResponse.toValue)] =
        some (.ok ClientBackend.strayResponse) := by
      cases backend with
      | multiplexed => exact absurd rfl others
      | quicStream | http | http3 => rfl
    obtain ⟨response, same, own⟩ :=
      matched 7 _ (.ok (.bool true)) (by rw [decided]; rfl) (.inl ⟨_, rfl⟩)
    cases decided.symm.trans same
    exact ClientBackend.strayResponse_id own
  refine ⟨fun matched => not_not.mp fun others => stray others matched, ?_⟩
  rintro rfl id replies outcome returned kind
  obtain ⟨decision, decided, result⟩ := Option.map_eq_some_iff.mp returned
  obtain ⟨reply, _, received⟩ := List.exists_of_findSome?_eq_some decided
  rcases ClientBackend.handleMuxMsg_eq_some received with ⟨response, rfl, own⟩ | ⟨text, rfl⟩
  · exact ⟨response, decided, own⟩
  · cases result
    rcases kind with ⟨value, same⟩ | ⟨code, message, same⟩ <;> cases same

/-- A call over QUIC with the identifier 7 returns the result of a response to 8. -/
theorem responses_matched_counterexample :
    (ClientBackend.decides .quicStream 7 () [(.new, ClientBackend.strayResponse.toValue)]).map
        (·.bind callResult) = some (.ok (.bool true)) ∧
      ClientBackend.strayResponse.id ≠ some (.ofUInt32 7) :=
  ⟨rfl, ClientBackend.strayResponse_id⟩

end Karyon.Jsonrpc
