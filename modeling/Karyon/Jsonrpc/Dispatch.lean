/-
This file models the request dispatch of the JSON-RPC server, `server/dispatch.rs`, and
the first answer on a stream of its own, `handle_quic_stream` of `server/quic.rs` and
`handle_h3_request` of `server/http/h3.rs`.

A request is read, its version and its method name are checked, and the handler that
its service has for the method is run. Whatever the way of a well-formed request
through the server, the answer carries its identifier and the outcome of that handler
(`handleRequest_eq`, `handleStream_eq`).
-/

import Karyon.Lib.HashMap
import Karyon.Jsonrpc.Message

namespace Karyon.Jsonrpc

open Json

def INVALID_REQUEST_ERROR_MSG : String := "Invalid request"

def FAILED_TO_PARSE_ERROR_MSG : String := "Failed to parse"

def METHOD_NOT_FOUND_ERROR_MSG : String := "Method not found"

def UNSUPPORTED_JSONRPC_VERSION : String := "Unsupported jsonrpc version"

/-! ### The sanity check -/

structure NewRequest where
  srvcName : String
  methodName : String
  msg : Message.Request

inductive SanityCheckResult where
  | newReq (req : NewRequest)
  | errRes (res : Message.Response)

variable (id : Option Value)

def errRes (code : Int32) (message : String) : SanityCheckResult :=
  .errRes { error := some { code, message, data := none }, id }

/-- The service and the method that a method name names: what is before its first dot and what is
behind it. -/
def splitMethod (method : String) : Option (String × String) :=
  match method.toList.splitOn '.' with
  | srvcName :: first :: rest =>
    some (.ofList srvcName, .ofList (['.'].intercalate (first :: rest)))
  | _ => none

/-- Parse and validate a raw JSON-RPC request. -/
def sanityCheck (request : Value) : SanityCheckResult :=
  match Message.Request.fromValue request with
  | none => errRes none PARSE_ERROR_CODE FAILED_TO_PARSE_ERROR_MSG
  | some rpcMsg =>
    if rpcMsg.jsonrpc ≠ JSONRPC_VERSION then
      errRes (some rpcMsg.id) INVALID_REQUEST_ERROR_CODE UNSUPPORTED_JSONRPC_VERSION
    else
      match splitMethod rpcMsg.method with
      | none => errRes (some rpcMsg.id) INVALID_REQUEST_ERROR_CODE INVALID_REQUEST_ERROR_MSG
      | some (srvcName, methodName) => .newReq { srvcName, methodName, msg := rpcMsg }

/-! ### The handlers -/

abbrev RPCMethod := Value → RPCResult Value

/-- A handler of subscriptions is also given the channel of the connection and the method name. -/
abbrev PubSubRPCMethod (Channel : Type) := Channel → String → Value → RPCResult Value

structure RPCService where
  getMethod : String → Option RPCMethod

structure PubSubRPCService (Channel : Type) where
  getPubsubMethod : String → Option (PubSubRPCMethod Channel)

inductive Handler (Channel : Type) where
  | pubsub (method : PubSubRPCMethod Channel)
  | rpc (method : RPCMethod)
  | none

structure Server (Channel : Type) where
  services : HashMap String RPCService
  pubsubServices : HashMap String (PubSubRPCService Channel)

def methodNotFound : Message.Response :=
  { error := some
      { code := METHOD_NOT_FOUND_ERROR_CODE, message := METHOD_NOT_FOUND_ERROR_MSG, data := none }
    id }

def respond : RPCResult Value → Message.Response
  | .ok res => { result := some res, id }
  | .error err => err.toResponse id none

namespace Server

variable {Channel : Type} (server : Server Channel) (srvcName methodName : String)

/-- The handler that a regular service has for the method. -/
def resolveRpc : Handler Channel :=
  match (server.services.lookup srvcName).bind (·.getMethod methodName) with
  | some method => .rpc method
  | none => .none

/-- Resolve a request to its handler. Handlers of subscriptions take priority. -/
def resolveHandler (allowPubsub : Bool) : Handler Channel :=
  if allowPubsub then
    match (server.pubsubServices.lookup srvcName).bind (·.getPubsubMethod methodName) with
    | some method => .pubsub method
    | none => server.resolveRpc srvcName methodName
  else server.resolveRpc srvcName methodName

/-- Dispatch a JSON request. There is no channel over HTTP/1 and HTTP/2, and then no handler of
subscriptions is resolved. -/
def handleRequest (channel : Option Channel) (msg : Value) : Message.Response :=
  match sanityCheck msg with
  | .errRes res => res
  | .newReq req =>
    let id := some req.msg.id
    let params := req.msg.params.getD .null
    match server.resolveHandler req.srvcName req.methodName channel.isSome, channel with
    | .pubsub method, some chan => respond id (method chan req.msg.method params)
    | .rpc method, _ => respond id (method params)
    | _, _ => methodNotFound id

/-- The first answer on a stream that carries one request. A handler of subscriptions gets a
channel of its own; every other request is written again and dispatched without a channel. -/
def handleStream (channel : Channel) (msg : Value) : Message.Response :=
  match sanityCheck msg with
  | .errRes res => res
  | .newReq req =>
    match server.resolveHandler req.srvcName req.methodName true with
    | .pubsub method =>
      respond (some req.msg.id) (method channel req.msg.method (req.msg.params.getD .null))
    | _ => server.handleRequest none req.msg.toValue

end Server

/-! ### Well-formed requests -/

/-- What the handler returns, run on the parameters. -/
def Handler.outcome {Channel : Type} (channel : Channel) (method : String) (params : Value) :
    Handler Channel → Option (RPCResult Value)
  | .pubsub handler => some (handler channel method params)
  | .rpc handler => some (handler params)
  | .none => Option.none

variable {request : Message.Request}

theorem sanityCheck_toValue {srvcName methodName : String}
    (version : request.jsonrpc = JSONRPC_VERSION)
    (split : splitMethod request.method = some (srvcName, methodName)) :
    sanityCheck request.toValue = .newReq
      { srvcName, methodName, msg := { request with params := nonNull request.params } } := by
  rw [sanityCheck, Message.Request.fromValue_toValue]
  simp only [version, split]
  rfl

namespace Server

variable {Channel : Type} {server : Server Channel} {srvcName methodName : String}

theorem resolveRpc_ne_pubsub (server : Server Channel) (srvcName methodName : String)
    (method : PubSubRPCMethod Channel) :
    server.resolveRpc srvcName methodName ≠ .pubsub method := by
  unfold resolveRpc
  split <;> exact nofun

/-- A handler that is not one of subscriptions comes from a regular service. -/
theorem resolveRpc_of_resolveHandler {method : RPCMethod}
    (resolved : server.resolveHandler srvcName methodName true = .rpc method) :
    server.resolveRpc srvcName methodName = .rpc method := by
  unfold resolveHandler at resolved
  rw [if_pos rfl] at resolved
  split at resolved
  · cases resolved
  · exact resolved

variable {outcome : RPCResult Value}

/-- A well-formed request is answered with the outcome of its handler. -/
theorem handleRequest_eq {channel : Option Channel} {chan : Channel}
    (version : request.jsonrpc = JSONRPC_VERSION)
    (split : splitMethod request.method = some (srvcName, methodName))
    (own : ∀ given ∈ channel, given = chan)
    (ran : (server.resolveHandler srvcName methodName channel.isSome).outcome chan request.method
      ((nonNull request.params).getD .null) = some outcome) :
    server.handleRequest channel request.toValue = respond (some request.id) outcome := by
  rw [handleRequest, sanityCheck_toValue version split]
  cases resolved : server.resolveHandler srvcName methodName channel.isSome with
  | pubsub method =>
    cases channel with
    | none => exact absurd resolved (resolveRpc_ne_pubsub _ _ _ _)
    | some given =>
      rw [resolved] at ran
      cases own given rfl
      cases ran
      simp only [resolved]
  | rpc method =>
    rw [resolved] at ran
    cases ran
    simp only [resolved]
  | none =>
    rw [resolved] at ran
    cases ran

theorem handleStream_eq {chan : Channel} (version : request.jsonrpc = JSONRPC_VERSION)
    (split : splitMethod request.method = some (srvcName, methodName))
    (ran : (server.resolveHandler srvcName methodName true).outcome chan request.method
      ((nonNull request.params).getD .null) = some outcome) :
    server.handleStream chan request.toValue = respond (some request.id) outcome := by
  rw [handleStream, sanityCheck_toValue version split]
  cases resolved : server.resolveHandler srvcName methodName true with
  | pubsub method =>
    rw [resolved] at ran
    cases ran
    simp only [resolved]
  | rpc method =>
    rw [resolved] at ran
    simp only [resolved]
    have own : ∀ given ∈ (none : Option Channel), given = chan := nofun
    refine handleRequest_eq version split own ?_
    have regular : server.resolveHandler srvcName methodName false = .rpc method :=
      resolveRpc_of_resolveHandler resolved
    rw [Option.isSome_none, regular, nonNull_nonNull]
    exact ran
  | none =>
    rw [resolved] at ran
    cases ran

end Server

end Karyon.Jsonrpc
