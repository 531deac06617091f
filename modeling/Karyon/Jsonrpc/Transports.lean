/-
This file compares the ways of a message through the JSON-RPC server: over a message connection, on
a QUIC stream, over HTTP/3 and over HTTP/1 and HTTP/2.

A handler may do more than return a value, so here it runs in any monad, and a dispatched request is
a computation in that monad. On a stream of its own the request is checked twice and written again
in between; the second check finds what the first one found (`sanityCheck_newReq`). So all ways are
the same computation, which runs the handler at most once, unless the method is one of subscriptions
(`transports_dispatch_alike`).

What is sent back always has the version and either a result or an error. It has the identifier of
the message only if the message was read as a request and the codec of the connection accepts the
response, and it is sent even to a notification (`response_conforms_iff`, `response_lacks_id`).
-/

import Karyon.Jsonrpc.Call

namespace Karyon.Jsonrpc

open Json

/-! ### Handlers that run in a monad -/

section Monadic

variable (Run : Type → Type) (Channel : Type)

abbrev RPCMethodIn := Value → Run (RPCResult Value)

abbrev PubSubRPCMethodIn := Channel → String → Value → Run (RPCResult Value)

inductive HandlerIn where
  | pubsub (method : PubSubRPCMethodIn Run Channel)
  | rpc (method : RPCMethodIn Run)
  | none

/-- The methods of the services, by the names of the service and of the method. -/
structure ServerIn where
  services : HashMap String (String → Option (RPCMethodIn Run))
  pubsubServices : HashMap String (String → Option (PubSubRPCMethodIn Run Channel))

end Monadic

namespace ServerIn

variable {Run : Type → Type} {Channel : Type}

def resolveRpc (server : ServerIn Run Channel) (srvcName methodName : String) :
    HandlerIn Run Channel :=
  match (server.services.lookup srvcName).bind (· methodName) with
  | some method => .rpc method
  | none => .none

def resolveHandler (server : ServerIn Run Channel) (srvcName methodName : String)
    (allowPubsub : Bool) : HandlerIn Run Channel :=
  if allowPubsub then
    match (server.pubsubServices.lookup srvcName).bind (· methodName) with
    | some method => .pubsub method
    | none => server.resolveRpc srvcName methodName
  else server.resolveRpc srvcName methodName

variable [Monad Run] (server : ServerIn Run Channel)

/-- Dispatch a JSON request, over a message connection with its channel, and over HTTP/1 and
HTTP/2 without one. -/
def handleRequest (channel : Option Channel) (msg : Value) : Run Message.Response :=
  match sanityCheck msg with
  | .errRes res => pure res
  | .newReq req =>
    let id := some req.msg.id
    let params := req.msg.params.getD .null
    match server.resolveHandler req.srvcName req.methodName channel.isSome, channel with
    | .pubsub method, some chan => do
      let outcome ← method chan req.msg.method params
      return respond id outcome
    | .rpc method, _ => do
      let outcome ← method params
      return respond id outcome
    | _, _ => pure (methodNotFound id)

variable (channel : Channel)

/-- The first answer on a stream that carries one request. -/
def handleStream (msg : Value) : Run Message.Response :=
  match sanityCheck msg with
  | .errRes res => pure res
  | .newReq req =>
    match server.resolveHandler req.srvcName req.methodName true with
    | .pubsub method => do
      let outcome ← method channel req.msg.method (req.msg.params.getD .null)
      return respond (some req.msg.id) outcome
    | _ => server.handleRequest none req.msg.toValue

def handleQuicStream (msg : Value) : Run Message.Response :=
  server.handleStream channel msg

def handleH3Request (msg : Value) : Run Message.Response :=
  server.handleStream channel msg

def serve (msg : Value) : ClientBackend → Run Message.Response
  | .multiplexed => server.handleRequest (some channel) msg
  | .quicStream => server.handleQuicStream channel msg
  | .http => server.handleRequest none msg
  | .http3 => server.handleH3Request channel msg

end ServerIn

/-! ### Handlers that only return a value -/

/-- The same handler, run in the monad without effects. -/
def Handler.inId {Channel : Type} : Handler Channel → HandlerIn Id Channel
  | .pubsub method => .pubsub method
  | .rpc method => .rpc method
  | .none => .none

namespace Server

variable {Channel : Type}

/-- The server as one whose handlers run in the monad without effects. -/
def inId (server : Server Channel) : ServerIn Id Channel where
  services := HashMap.mapValues RPCService.getMethod server.services
  pubsubServices := HashMap.mapValues PubSubRPCService.getPubsubMethod server.pubsubServices

section

variable (server : Server Channel)

include server

theorem resolveRpc_inId (srvcName methodName : String) :
    server.inId.resolveRpc srvcName methodName = (server.resolveRpc srvcName methodName).inId := by
  simp only [ServerIn.resolveRpc, resolveRpc, inId, HashMap.lookup_mapValues, Option.bind_map,
    Function.comp_def]
  cases (server.services.lookup srvcName).bind (·.getMethod methodName) <;> rfl

theorem resolveHandler_inId (srvcName methodName : String) (allowPubsub : Bool) :
    server.inId.resolveHandler srvcName methodName allowPubsub =
      (server.resolveHandler srvcName methodName allowPubsub).inId := by
  rw [ServerIn.resolveHandler, resolveHandler, resolveRpc_inId]
  simp only [inId, HashMap.lookup_mapValues, Option.bind_map, Function.comp_def]
  cases allowPubsub with
  | false => rfl
  | true =>
    cases (server.pubsubServices.lookup srvcName).bind (·.getPubsubMethod methodName) <;> rfl

theorem handleRequest_inId (channel : Option Channel) (msg : Value) :
    server.inId.handleRequest channel msg = server.handleRequest channel msg := by
  rw [ServerIn.handleRequest, handleRequest]
  cases sanityCheck msg with
  | errRes res => rfl
  | newReq req =>
    simp only [resolveHandler_inId]
    cases server.resolveHandler req.srvcName req.methodName channel.isSome with
    | pubsub method => cases channel <;> rfl
    | rpc method | none => rfl

theorem handleStream_inId (channel : Channel) (msg : Value) :
    server.inId.handleStream channel msg = server.handleStream channel msg := by
  rw [ServerIn.handleStream, handleStream]
  cases sanityCheck msg with
  | errRes res => rfl
  | newReq req =>
    simp only [resolveHandler_inId, handleRequest_inId]
    cases server.resolveHandler req.srvcName req.methodName true <;> rfl

/-- Where the handlers have no effects, the answers are those of the server. -/
theorem serve_inId (channel : Channel) (msg : Value) (backend : ClientBackend) :
    server.inId.serve channel msg backend = server.serve channel msg backend := by
  cases backend with
  | multiplexed => exact server.handleRequest_inId (some channel) msg
  | http => exact server.handleRequest_inId none msg
  | quicStream | http3 => exact server.handleStream_inId channel msg

end

end Server

/-! ### The same computation on every way -/

section

variable {msg : Value} {req : NewRequest} (checked : sanityCheck msg = .newReq req)

include checked

theorem sanityCheck_eq_newReq :
    Message.Request.fromValue msg = some req.msg ∧ req.msg.jsonrpc = JSONRPC_VERSION ∧
      splitMethod req.msg.method = some (req.srvcName, req.methodName) := by
  revert checked
  fun_cases sanityCheck <;> rintro ⟨⟩
  rename_i read version _ _ split
  exact ⟨read, Decidable.not_not.mp version, split⟩

/-- What the sanity check found it finds again in the request as it is written. -/
theorem sanityCheck_newReq : sanityCheck req.msg.toValue = .newReq req := by
  obtain ⟨read, version, split⟩ := sanityCheck_eq_newReq checked
  obtain ⟨fields, _, _, _, _, given⟩ := Message.Request.fromValue_eq_some.mp read
  have same : nonNull req.msg.params = req.msg.params := by
    rw [← given, nonNull_nonNull]
  rw [sanityCheck_toValue version split, same]

end

namespace ServerIn

variable {Run : Type → Type} {Channel : Type}

theorem resolveRpc_ne_pubsub (server : ServerIn Run Channel) (srvcName methodName : String)
    (method : PubSubRPCMethodIn Run Channel) :
    server.resolveRpc srvcName methodName ≠ .pubsub method := by
  unfold resolveRpc
  split <;> exact nofun

variable [Monad Run]

/-- The answer of a regular handler to a checked request. -/
def answerRpc (server : ServerIn Run Channel) (req : NewRequest) : Run Message.Response :=
  match server.resolveHandler req.srvcName req.methodName true with
  | .rpc method => do
    let outcome ← method (req.msg.params.getD .null)
    return respond (some req.msg.id) outcome
  | _ => pure (methodNotFound (some req.msg.id))

section Checked

variable {server : ServerIn Run Channel} {msg : Value} {req : NewRequest}
  (checked : sanityCheck msg = .newReq req)
  (plain : ∀ method, server.resolveHandler req.srvcName req.methodName true ≠ .pubsub method)

include checked plain

theorem handleRequest_eq_answerRpc (channel : Option Channel) :
    server.handleRequest channel msg = server.answerRpc req := by
  have either : server.resolveHandler req.srvcName req.methodName channel.isSome =
      server.resolveHandler req.srvcName req.methodName true := by
    cases channel with
    | none =>
      symm
      unfold resolveHandler at plain ⊢
      rw [if_pos rfl] at plain ⊢
      split
      · rename_i method found
        exact absurd (by rw [found]) (plain method)
      · rfl
    | some channel => rfl
  simp only [handleRequest, checked, answerRpc, either]
  cases resolved : server.resolveHandler req.srvcName req.methodName true with
  | pubsub method => exact absurd resolved (plain method)
  | rpc method | none => rfl

theorem handleStream_eq_answerRpc (channel : Channel) :
    server.handleStream channel msg = server.answerRpc req := by
  have again := handleRequest_eq_answerRpc (sanityCheck_newReq checked) plain none
  simp only [handleStream, checked]
  cases resolved : server.resolveHandler req.srvcName req.methodName true with
  | pubsub method => exact absurd resolved (plain method)
  | rpc method | none => exact again

end Checked

end ServerIn

/-- A message whose method is not one of subscriptions is dispatched alike over a message
connection, on a QUIC stream, over HTTP/3 and over HTTP/1 and HTTP/2. Its answer is fixed, or it
is the outcome of one run of the handler on the parameters. -/
theorem transports_dispatch_alike {Run : Type → Type} [Monad Run] {Channel : Type}
    (server : ServerIn Run Channel) (channel : Channel) (msg : Value)
    (plain : ∀ req method, sanityCheck msg = .newReq req →
      server.resolveHandler req.srvcName req.methodName true ≠ .pubsub method) :
    (∀ backend, server.serve channel msg backend = server.serve channel msg .multiplexed) ∧
    ((∃ response, server.serve channel msg .multiplexed = pure response) ∨
      ∃ req method, sanityCheck msg = .newReq req ∧
        server.resolveHandler req.srvcName req.methodName true = .rpc method ∧
        server.serve channel msg .multiplexed = do
          let outcome ← method (req.msg.params.getD .null)
          return respond (some req.msg.id) outcome) := by
  cases checked : sanityCheck msg with
  | errRes res =>
    have fixed (backend : ClientBackend) : server.serve channel msg backend = pure res := by
      cases backend <;> simp only [ServerIn.serve, ServerIn.handleRequest,
        ServerIn.handleQuicStream, ServerIn.handleH3Request, ServerIn.handleStream, checked]
    exact ⟨fun backend => (fixed backend).trans (fixed .multiplexed).symm,
      Or.inl ⟨res, fixed .multiplexed⟩⟩
  | newReq req =>
    have regular (method) := plain req method checked
    have answered (backend : ClientBackend) :
        server.serve channel msg backend = server.answerRpc req := by
      cases backend with
      | multiplexed => exact ServerIn.handleRequest_eq_answerRpc checked regular (some channel)
      | http => exact ServerIn.handleRequest_eq_answerRpc checked regular none
      | quicStream | http3 => exact ServerIn.handleStream_eq_answerRpc checked regular channel
    refine ⟨fun backend => (answered backend).trans (answered .multiplexed).symm, ?_⟩
    rw [answered .multiplexed, ServerIn.answerRpc]
    cases resolved : server.resolveHandler req.srvcName req.methodName true with
    | pubsub method => exact absurd resolved (regular method)
    | rpc method => exact Or.inr ⟨req, method, rfl, resolved, rfl⟩
    | none => exact Or.inl ⟨_, rfl⟩

/-- A service whose only method notes its parameters and returns them. -/
def notingServer : ServerIn (StateM (List Value)) Unit where
  services := AList.singleton "Sample" fun
    | "echo" => some fun params => do
      modify (· ++ [params])
      return .ok params
    | _ => none
  pubsubServices := ∅

/-- On a stream and without a channel the method is run once on the parameters. -/
theorem transports_dispatch_alike_echo :
    (notingServer.serve () (newRequest 7 "Sample.echo" (.bool true)).toValue .quicStream).run [] =
        (respond (some (.ofUInt32 7)) (.ok (.bool true)), [.bool true]) ∧
      (notingServer.serve () (newRequest 7 "Sample.echo" (.bool true)).toValue .http).run [] =
        (respond (some (.ofUInt32 7)) (.ok (.bool true)), [.bool true]) := by
  have alike := (transports_dispatch_alike notingServer ()
    (newRequest 7 "Sample.echo" (.bool true)).toValue fun _ method _ resolved =>
      ServerIn.resolveRpc_ne_pubsub notingServer _ _ method resolved).1
  rw [alike .quicStream, alike .http]
  exact ⟨rfl, rfl⟩

/-! ### Well-formed responses -/

/-- A response with the version, this identifier, and either a result or an error. -/
structure Message.Response.WellFormed (response : Message.Response) (id : Option Value) : Prop where
  jsonrpc : response.jsonrpc = JSONRPC_VERSION
  id : response.id = id
  outcome : response.result.isSome ≠ response.error.isSome

theorem respond_wellFormed (id : Option Value) (outcome : RPCResult Value) :
    (respond id outcome).WellFormed id := by
  cases outcome with
  | ok value | error err => exact ⟨rfl, rfl, Bool.noConfusion⟩

/-- An error of the sanity check carries the identifier of the request, if one was read. -/
theorem sanityCheck_errRes {msg : Value} {res : Message.Response}
    (checked : sanityCheck msg = .errRes res) :
    res.WellFormed ((Message.Request.fromValue msg).map Message.Request.id) := by
  revert checked
  fun_cases sanityCheck <;> rintro ⟨⟩
  all_goals
    simp only [*]
    exact ⟨rfl, rfl, Bool.noConfusion⟩

namespace Server

variable {Channel : Type} (server : Server Channel)

theorem handleRequest_wellFormed (channel : Option Channel) (msg : Value) :
    (server.handleRequest channel msg).WellFormed
      ((Message.Request.fromValue msg).map Message.Request.id) := by
  unfold handleRequest
  cases checked : sanityCheck msg with
  | errRes res => exact sanityCheck_errRes checked
  | newReq req =>
    rw [(sanityCheck_eq_newReq checked).1]
    simp only
    split
    · exact respond_wellFormed _ _
    · exact respond_wellFormed _ _
    · exact ⟨rfl, rfl, Bool.noConfusion⟩

theorem handleStream_wellFormed (channel : Channel) (msg : Value) :
    (server.handleStream channel msg).WellFormed
      ((Message.Request.fromValue msg).map Message.Request.id) := by
  unfold handleStream
  cases checked : sanityCheck msg with
  | errRes res => exact sanityCheck_errRes checked
  | newReq req =>
    have read := (sanityCheck_eq_newReq checked).1
    have again := (sanityCheck_eq_newReq (sanityCheck_newReq checked)).1
    rw [read]
    simp only
    split
    · exact respond_wellFormed _ _
    · have regular := server.handleRequest_wellFormed none req.msg.toValue
      rw [again] at regular
      exact regular

/-- On every way the answer carries the identifier of the request that was read, if any. -/
theorem serve_wellFormed (channel : Channel) (msg : Value) (backend : ClientBackend) :
    (server.serve channel msg backend).WellFormed
      ((Message.Request.fromValue msg).map Message.Request.id) := by
  cases backend with
  | multiplexed => exact server.handleRequest_wellFormed (some channel) msg
  | http => exact server.handleRequest_wellFormed none msg
  | quicStream | http3 => exact server.handleStream_wellFormed channel msg

end Server

/-! ### What is sent back -/

def encodeMsg (codec : Net.Codec Value) (msg : Value) : Except Net.Error Net.ByteBuffer :=
  (codec.encode msg []).map Prod.snd

def encodes (codec : Net.Codec Value) (resp : Message.Response) : Bool :=
  (encodeMsg codec resp.toValue).toBool

/-- The body that is sent over HTTP/1 and HTTP/2 when a response cannot be encoded. -/
def ERR_ENCODE_RESPONSE : Value :=
  .object [("jsonrpc", .string "2.0"), ("error", .object [("code", .ofInt32 (-32603)),
    ("message", .string "Failed to encode response")]), ("id", .null)]

def encodeHyperResponse (codec : Net.Codec Value) (resp : Message.Response) : Value :=
  if encodes codec resp then resp.toValue else ERR_ENCODE_RESPONSE

def parseErrorResponse : Message.Response :=
  { error := some
      { code := PARSE_ERROR_CODE, message := FAILED_TO_PARSE_ERROR_MSG, data := none } }

/-- What is sent back on a connection with the codec, for a message or for a body in which the
codec has found none. Apart from HTTP/1 and HTTP/2, nothing is sent in place of a response that
cannot be encoded. Message connections and QUIC streams end without a message. -/
def Server.answer {Channel : Type} (server : Server Channel) (codec : Net.Codec Value)
    (channel : Channel) (received : Option Value) (backend : ClientBackend) : Option Value :=
  match received, backend with
  | some msg, .http => encodeHyperResponse codec (server.serve channel msg .http)
  | none, .http => encodeHyperResponse codec parseErrorResponse
  | some msg, backend =>
    let resp := server.serve channel msg backend
    if encodes codec resp then resp.toValue else none
  | none, .http3 => if encodes codec parseErrorResponse then parseErrorResponse.toValue else none
  | none, _ => none

/-! ### The shape of JSON-RPC 2.0 -/

/-- A well-formed notification. -/
structure IsNotification (message : Value) : Prop where
  jsonrpc : message.member "jsonrpc" = some (.string "2.0")
  method : ∃ method, message.member "method" = some (.string method)
  id : message.member "id" = none

/-- The members of a response: the version, one of result and error, and the identifier of the
message, or `null` if the message is not an object with an identifier. -/
structure Shaped (message response : Value) : Prop where
  jsonrpc : response.member "jsonrpc" = some (.string "2.0")
  outcome : (response.member "result").isSome ≠ (response.member "error").isSome
  id : response.member "id" = some ((message.member "id").getD .null)

/-- A notification has no answer, and every other message has a response of the right shape. -/
structure Conforms (message : Value) (answer : Option Value) : Prop where
  silent : IsNotification message → answer = none
  shaped : ¬ IsNotification message → ∃ response, answer = some response ∧ Shaped message response

theorem member_toValue (response : Message.Response) :
    response.toValue.member "jsonrpc" = some (.string response.jsonrpc) ∧
      response.toValue.member "id" = response.id ∧
      response.toValue.member "result" = response.result ∧
      response.toValue.member "error" = response.error.map Message.Error.toValue := by
  obtain ⟨jsonrpc, id, result, error⟩ := response
  cases id <;> cases result <;> cases error <;> exact ⟨rfl, rfl, rfl, rfl⟩

variable {message : Value}

theorem shaped_iff {response : Message.Response} {id : Option Value}
    (wellFormed : response.WellFormed id) :
    Shaped message response.toValue ↔ id = some ((message.member "id").getD .null) := by
  obtain ⟨jsonrpc, identifier, result, error⟩ := member_toValue response
  rw [← wellFormed.id, ← identifier]
  refine ⟨Shaped.id, fun same => ⟨?_, ?_, same⟩⟩
  · rw [jsonrpc, wellFormed.jsonrpc]
    rfl
  · rw [result, error, Option.isSome_map]
    exact wellFormed.outcome

theorem IsNotification.unread (notification : IsNotification message) :
    Message.Request.fromValue message = none := by
  cases read : Message.Request.fromValue message with
  | none => rfl
  | some request =>
    obtain ⟨fields, found, _, identified, _⟩ := Message.Request.fromValue_eq_some.mp read
    cases message with
    | object members =>
      cases found
      have unidentified : fields.lookup "id" = none := notification.id
      rw [unidentified] at identified
      cases identified
    | _ => cases notification.jsonrpc

/-- The identifier of an object that is read as a request is its own. -/
theorem request_id_eq_iff {request : Message.Request}
    (read : Message.Request.fromValue message = some request) :
    request.id = (message.member "id").getD .null ↔
      (∃ fields, message = .object fields) ∨ request.id = .null := by
  cases message with
  | object fields =>
    obtain ⟨_, found, _, identified, _⟩ := Message.Request.fromValue_eq_some.mp read
    cases found
    rw [Value.member, identified]
    exact ⟨fun _ => Or.inl ⟨fields, rfl⟩, fun _ => rfl⟩
  | _ =>
    refine ⟨Or.inr, fun either => either.resolve_left ?_⟩
    rintro ⟨fields, ⟨⟩⟩

/-- A message gets what is sent if it is not a notification and that has the right shape. -/
theorem conforms_some {response : Value} :
    Conforms message (some response) ↔ ¬ IsNotification message ∧ Shaped message response := by
  constructor
  · intro conforms
    have spoken : ¬ IsNotification message := fun notification =>
      Option.some_ne_none _ (conforms.silent notification)
    obtain ⟨_, ⟨⟩, shaped⟩ := conforms.shaped spoken
    exact ⟨spoken, shaped⟩
  · rintro ⟨spoken, shaped⟩
    exact ⟨fun notification => absurd notification spoken, fun _ => ⟨response, rfl, shaped⟩⟩

theorem conforms_none : Conforms message none ↔ IsNotification message := by
  refine ⟨fun conforms => by_contra fun spoken => ?_,
    fun notification => ⟨fun _ => rfl, fun spoken => absurd notification spoken⟩⟩
  obtain ⟨_, ⟨⟩, _⟩ := conforms.shaped spoken

/-- A response of the server has the right shape if and only if the message is read as a request
and is an object, or an array whose identifier is `null`. -/
theorem conforms_response {response : Message.Response}
    (wellFormed : response.WellFormed
      ((Message.Request.fromValue message).map Message.Request.id)) :
    Conforms message (some response.toValue) ↔
      ∃ request, Message.Request.fromValue message = some request ∧
        ((∃ fields, message = .object fields) ∨ request.id = .null) := by
  rw [conforms_some, shaped_iff wellFormed, Option.map_eq_some_iff]
  constructor
  · rintro ⟨_, request, read, same⟩
    exact ⟨request, read, (request_id_eq_iff read).mp same⟩
  · rintro ⟨request, read, identified⟩
    refine ⟨fun notification => ?_, request, read, (request_id_eq_iff read).mpr identified⟩
    rw [notification.unread] at read
    cases read

/-- When what the server sends back has the shape of JSON-RPC 2.0, for every server, codec and
message. If the codec accepts the response: if and only if the message is read as a request and is
an object, or an array whose identifier is `null`. If it does not: over HTTP/1 and HTTP/2, if the
message is no notification and has no identifier but `null`; elsewhere, where nothing is sent, if it
is a notification. -/
theorem response_conforms_iff {Channel : Type} (server : Server Channel)
    (codec : Net.Codec Value) (channel : Channel) (message : Value) (backend : ClientBackend) :
    Conforms message (server.answer codec channel (some message) backend) ↔
      if encodes codec (server.serve channel message backend) then
        ∃ request, Message.Request.fromValue message = some request ∧
          ((∃ fields, message = .object fields) ∨ request.id = .null)
      else if backend = .http then
        ¬ IsNotification message ∧ (message.member "id").getD .null = .null
      else IsNotification message := by
  have wellFormed := server.serve_wellFormed channel message backend
  by_cases accepted : encodes codec (server.serve channel message backend) = true
  · rw [if_pos accepted, ← conforms_response wellFormed]
    cases backend <;> simp only [Server.answer, encodeHyperResponse, accepted, if_true]
  · rw [if_neg accepted]
    cases backend with
    | http =>
      simp only [Server.answer, encodeHyperResponse, accepted, if_true]
      refine conforms_some.trans (and_congr_right fun _ => ⟨fun shaped => ?_, fun same => ?_⟩)
      · exact (Option.some.inj shaped.id).symm
      · exact ⟨rfl, Bool.noConfusion, congrArg some same.symm⟩
    | _ =>
      simp only [Server.answer, accepted]
      exact conforms_none

/-- Texts of one byte, but of two for a value with a result. -/
def resultTexts : SerdeJson Value where
  toString msg := .ok (if (msg.member "result").isSome then [0, 0] else [0])
  next _ := .finished

/-- A codec for texts of one byte. -/
def errorCodec : Net.Codec Value :=
  (JsonCodec.mk 1).toCodec resultTexts

/-- An object with an identifier whose method is not a string, and a well-formed notification: both
get an error without an identifier, on every way. A body without a message gets one over HTTP. And a
request whose response the codec refuses gets an error whose identifier is `null`. -/
theorem response_lacks_id :
    (∀ backend, ∃ response,
      sampleServer.answer errorCodec () (some (.object [("jsonrpc", .string "2.0"),
        ("id", .ofUInt32 7), ("method", .null)])) backend = some response ∧
      (response.member "error").isSome = true ∧ response.member "id" = none) ∧
    (∀ backend, ∃ message response, IsNotification message ∧
      sampleServer.answer errorCodec () (some message) backend = some response ∧
      (response.member "error").isSome = true ∧ response.member "id" = none) ∧
    (∀ backend ∈ [ClientBackend.http, .http3], ∃ response,
      sampleServer.answer errorCodec () none backend = some response ∧
      (response.member "error").isSome = true ∧ response.member "id" = none) ∧
    ∃ response,
      sampleServer.answer errorCodec () (some (newRequest 7 "Sample.echo" (.bool true)).toValue)
        .http = some response ∧
      (response.member "error").isSome = true ∧ response.member "id" = some .null := by
  refine ⟨fun backend => ?_, fun backend => ?_, fun backend member => ?_, _, rfl, rfl, rfl⟩
  · cases backend <;> exact ⟨_, rfl, rfl, rfl⟩
  · refine ⟨.object [("jsonrpc", .string "2.0"), ("method", .string "Sample.echo")], ?_⟩
    cases backend <;> exact ⟨_, ⟨rfl, ⟨_, rfl⟩, rfl⟩, rfl, rfl, rfl⟩
  · cases backend with
    | http | http3 => exact ⟨_, rfl, rfl, rfl⟩
    | multiplexed | quicStream => exact absurd member (by decide)

end Karyon.Jsonrpc
