/-
This file models the messages of JSON-RPC, `jsonrpc/src/message.rs`, with the errors of
`error.rs`.

Each message is written as a JSON object and read back from a JSON value, following
the field attributes of the source: an optional field is skipped if there is no value,
and read as no value if it is `null`. A request and a response therefore come back
with an optional `null` taken for no value (`Request.fromValue_toValue`,
`Response.fromValue_toValue`).
-/

import Karyon.Lib.Json

namespace Karyon.Jsonrpc

open Json

def JSONRPC_VERSION : String := "2.0"

def PARSE_ERROR_CODE : Int32 := -32700

def INVALID_REQUEST_ERROR_CODE : Int32 := -32600

def METHOD_NOT_FOUND_ERROR_CODE : Int32 := -32601

def INVALID_PARAMS_ERROR_CODE : Int32 := -32602

def INTERNAL_ERROR_CODE : Int32 := -32603

def INTERNAL_ERROR_MSG : String := "Internal error"

abbrev RequestID := UInt32

abbrev SubscriptionID := UInt32

/-! ### The messages -/

namespace Message

structure Request where
  jsonrpc : String
  id : Value
  method : String
  params : Option Value

structure Error where
  code : Int32
  message : String
  data : Option Value

structure Response where
  jsonrpc : String := JSONRPC_VERSION
  id : Option Value := none
  result : Option Value := none
  error : Option Error := none

structure Notification where
  jsonrpc : String
  method : String
  params : Option Value

structure NotificationResult where
  result : Option Value
  subscription : SubscriptionID

/-! ### Writing and reading them -/

def Request.toValue (request : Request) : Value :=
  .object ([("jsonrpc", .string request.jsonrpc), ("id", request.id),
    ("method", .string request.method)] ++ skipNone "params" request.params)

variable (value : Value)

def Request.fromValue : Option Request := do
  let fields ← value.recordFields ["jsonrpc", "id", "method", "params"]
  let jsonrpc ← (fields.lookup "jsonrpc").bind Value.asStr
  let id ← fields.lookup "id"
  let method ← (fields.lookup "method").bind Value.asStr
  some { jsonrpc, id, method, params := nonNull (fields.lookup "params") }

def Error.toValue (error : Error) : Value :=
  .object ([("code", .ofInt32 error.code), ("message", .string error.message)] ++
    skipNone "data" error.data)

def Error.fromValue : Option Error := do
  let fields ← value.recordFields ["code", "message", "data"]
  let code ← (fields.lookup "code").bind Value.toInt32
  let message ← (fields.lookup "message").bind Value.asStr
  some { code, message, data := nonNull (fields.lookup "data") }

def Response.toValue (response : Response) : Value :=
  .object ([("jsonrpc", .string response.jsonrpc)] ++ skipNone "id" response.id ++
    skipNone "result" response.result ++ skipNone "error" (response.error.map Error.toValue))

/-- A response has no other fields. -/
def Response.fromValue : Option Response := do
  let names := ["jsonrpc", "id", "result", "error"]
  let fields ← value.recordFields names
  guard (fields.all fun field => field.1 ∈ names)
  let jsonrpc ← (fields.lookup "jsonrpc").bind Value.asStr
  let error ← readOptional Error.fromValue (fields.lookup "error")
  some { jsonrpc, id := nonNull (fields.lookup "id"), result := nonNull (fields.lookup "result"),
         error }

def Notification.toValue (notification : Notification) : Value :=
  .object ([("jsonrpc", .string notification.jsonrpc), ("method", .string notification.method)] ++
    skipNone "params" notification.params)

def Notification.fromValue : Option Notification := do
  let fields ← value.recordFields ["jsonrpc", "method", "params"]
  let jsonrpc ← (fields.lookup "jsonrpc").bind Value.asStr
  let method ← (fields.lookup "method").bind Value.asStr
  some { jsonrpc, method, params := nonNull (fields.lookup "params") }

def NotificationResult.toValue (result : NotificationResult) : Value :=
  .object [("result", result.result.getD .null), ("subscription", .ofUInt32 result.subscription)]

def NotificationResult.fromValue : Option NotificationResult := do
  let fields ← value.recordFields ["result", "subscription"]
  let subscription ← (fields.lookup "subscription").bind Value.toUInt32
  some { result := nonNull (fields.lookup "result"), subscription }

theorem Request.fromValue_toValue (request : Request) :
    fromValue request.toValue = some { request with params := nonNull request.params } := by
  obtain ⟨jsonrpc, id, method, params⟩ := request
  cases params <;> rfl

theorem Request.fromValue_eq_some {value : Value} {request : Request} :
    fromValue value = some request ↔
      ∃ fields, value.recordFields ["jsonrpc", "id", "method", "params"] = some fields ∧
        (fields.lookup "jsonrpc").bind Value.asStr = some request.jsonrpc ∧
        fields.lookup "id" = some request.id ∧
        (fields.lookup "method").bind Value.asStr = some request.method ∧
        nonNull (fields.lookup "params") = request.params := by
  simp only [fromValue, Option.bind_eq_bind, Option.bind_eq_some_iff]
  constructor
  · rintro ⟨fields, found, jsonrpc, version, id, identified, method, named, same⟩
    cases same
    exact ⟨fields, found, version, identified, named, rfl⟩
  · rintro ⟨fields, found, version, identified, named, given⟩
    exact ⟨fields, found, _, version, _, identified, _, named, by rw [given]⟩

theorem Error.fromValue_toValue (error : Error) :
    fromValue error.toValue = some { error with data := nonNull error.data } := by
  obtain ⟨code, message, data⟩ := error
  have fields : fromValue (toValue ⟨code, message, data⟩) =
      (Value.ofInt32 code).toInt32.bind fun code => some ⟨code, message, nonNull data⟩ := by
    cases data <;> rfl
  rw [fields, Value.toInt32_ofInt32]
  rfl

theorem Response.fromValue_toValue (response : Response) :
    fromValue response.toValue = some
      { response with
        id := nonNull response.id
        result := nonNull response.result
        error := response.error.map fun error => { error with data := nonNull error.data } } := by
  obtain ⟨jsonrpc, id, result, error⟩ := response
  have fields : fromValue (toValue ⟨jsonrpc, id, result, error⟩) =
      (readOptional Error.fromValue (error.map Error.toValue)).bind fun error =>
        some ⟨jsonrpc, nonNull id, nonNull result, error⟩ := by
    cases id <;> cases result <;> cases error <;> rfl
  rw [fields]
  cases error with
  | none => rfl
  | some error =>
    have read : readOptional Error.fromValue (some error.toValue) =
        (Error.fromValue error.toValue).map some := rfl
    rw [Option.map_some, read, error.fromValue_toValue]
    rfl

theorem Notification.fromValue_response (response : Response) :
    Notification.fromValue response.toValue = none := by
  obtain ⟨jsonrpc, id, result, error⟩ := response
  cases id <;> cases result <;> cases error <;> rfl

end Message

/-! ### Errors -/

/-- The errors of the crate that the modelled functions return. -/
inductive JsonrpcError where
  | callError (code : Int32) (msg : String)
  | subscribeError (code : Int32) (msg : String)
  | invalidMsg (msg : String)
  | parseJson

/-- The errors that a handler returns. -/
inductive RPCError where
  | customError (code : Int32) (msg : String)
  | invalidParams (msg : String)
  | invalidRequest (msg : String)
  | parseError (msg : String)
  | internalError

abbrev RPCResult (Result : Type) := Except RPCError Result

/-- The error object of a response. -/
def RPCError.toError (self : RPCError) (data : Option Value) : Message.Error :=
  match self with
  | .parseError msg => { code := PARSE_ERROR_CODE, message := msg, data }
  | .invalidParams msg => { code := INVALID_PARAMS_ERROR_CODE, message := msg, data }
  | .invalidRequest msg => { code := INVALID_REQUEST_ERROR_CODE, message := msg, data }
  | .customError code msg => { code, message := msg, data }
  | .internalError => { code := INTERNAL_ERROR_CODE, message := INTERNAL_ERROR_MSG, data }

def RPCError.toResponse (self : RPCError) (id data : Option Value) : Message.Response :=
  { jsonrpc := JSONRPC_VERSION, error := some (self.toError data), result := none, id }

end Karyon.Jsonrpc
