/-
This file models how the STUN client waits for the response to a request over UDP,
`await_udp_response` of `stun/src/client.rs`.

Datagrams from elsewhere, those that are not messages and those with another transaction id are
skipped. So the result depends only on the first of the others that comes within the window
(`await_udp_response_first`).
-/

import Karyon.Stun.Message

namespace Karyon.Stun

inductive ClientError where
  | karyonNet (text : String)
  | invalidMsg (text : String)
  | transactionMismatch
  | noMappedAddress
  | errorResponse (code : UInt16) (reason : String)

def StunMessage.mappedAddress (self : StunMessage) : Except ClientError SocketAddr :=
  match self.attrs.findSome? fun | .xorMappedAddress addr => some addr | _ => none with
  | some addr => .ok addr
  | none =>
    match self.attrs.findSome? fun | .mappedAddress addr => some addr | _ => none with
    | some addr => .ok addr
    | none => .error .noMappedAddress

/-- Check a response against its request and extract the mapped address. -/
def validateResponse (request response : StunMessage) : Except ClientError SocketAddr :=
  if response.txnId ≠ request.txnId then .error .transactionMismatch
  else
    match response.msgType with
    | .bindingResponse => response.mappedAddress
    | .bindingError =>
      match response.attrs.findSome? fun
        | .errorCode code reason => some (code, reason)
        | _ => none with
      | some (code, reason) => .error (.errorResponse code reason)
      | none => .error (.errorResponse 0 "error response without ERROR-CODE")
    | .bindingRequest => .error (.invalidMsg "request sent as response")

/-- What the socket hands over, and when. -/
structure Arrival where
  time : Nat
  received : Except String (List UInt8 × SocketAddr)

/-- Wait up to `window` for the response to `request` from `server`. The socket fills a buffer of
1500 bytes. -/
def awaitUdpResponse (server : SocketAddr) (request : StunMessage) (window : Nat) :
    List Arrival → Option (Except ClientError SocketAddr)
  | [] => none
  | arrival :: rest =>
    if window ≤ arrival.time then none
    else
      match arrival.received with
      | .error text => some (.error (.karyonNet text))
      | .ok (datagram, source) =>
        if source ≠ server then awaitUdpResponse server request window rest
        else
          match StunMessage.decode (datagram.take 1500) with
          | .ok (some (_, msg)) =>
            match validateResponse request msg with
            | .error .transactionMismatch => awaitUdpResponse server request window rest
            | result => some result
          | _ => awaitUdpResponse server request window rest

/-- The message of a datagram that comes from the server with the transaction id of the request,
or the error of the socket. -/
def response (server : SocketAddr) (request : StunMessage) :
    Except String (List UInt8 × SocketAddr) → Option (Except ClientError StunMessage)
  | .error text => some (.error (.karyonNet text))
  | .ok (datagram, source) =>
    if source = server then
      match StunMessage.decode (datagram.take 1500) with
      | .ok (some (_, msg)) => if msg.txnId = request.txnId then some (.ok msg) else none
      | _ => none
    else none

def responses (server : SocketAddr) (request : StunMessage) (window : Nat)
    (arrivals : List Arrival) : List (Except ClientError StunMessage) :=
  (arrivals.takeWhile (·.time < window)).filterMap (response server request ·.received)

section

variable {server : SocketAddr} {request : StunMessage} {window : Nat}

theorem validateResponse_mismatch {msg : StunMessage} :
    validateResponse request msg = .error .transactionMismatch ↔ msg.txnId ≠ request.txnId := by
  rw [validateResponse]
  split
  · rename_i different
    exact iff_of_true rfl different
  · rename_i same
    refine iff_of_false (fun mismatch => ?_) same
    split at mismatch
    · rw [StunMessage.mappedAddress] at mismatch
      split at mismatch
      · cases mismatch
      · split at mismatch <;> cases mismatch
    · split at mismatch <;> cases mismatch
    · cases mismatch

/-- What does not respond is skipped. -/
theorem awaitUdpResponse_cons {arrival : Arrival} {rest : List Arrival}
    (early : ¬ window ≤ arrival.time) :
    awaitUdpResponse server request window (arrival :: rest) =
      match response server request arrival.received with
      | some result => some (result.bind (validateResponse request))
      | none => awaitUdpResponse server request window rest := by
  rw [awaitUdpResponse, if_neg early]
  cases arrival.received with
  | error text => rfl
  | ok received =>
    obtain ⟨datagram, source⟩ := received
    by_cases same : source = server
    · simp only [response, same, ne_eq, not_true, if_true, if_false]
      split
      · rename_i msg _
        by_cases own : msg.txnId = request.txnId
        · rw [if_pos own]
          split
          · rename_i mismatch
            exact absurd own (validateResponse_mismatch.mp mismatch)
          · rfl
        · simp only [own, if_false, validateResponse_mismatch.mpr own]
      · rfl
    · simp only [response, same, ne_eq, not_false_iff, if_true, if_false]

/-- The result is the one of the first response. -/
theorem awaitUdpResponse_eq (arrivals : List Arrival) :
    awaitUdpResponse server request window arrivals =
      (responses server request window arrivals).head?.map (·.bind (validateResponse request)) := by
  induction arrivals with
  | nil => rfl
  | cons arrival rest inductionHypothesis =>
    rw [responses, List.head?_filterMap] at inductionHypothesis ⊢
    by_cases early : window ≤ arrival.time
    · rw [awaitUdpResponse, if_pos early, List.takeWhile_cons_of_neg (by simpa using early)]
      rfl
    · rw [awaitUdpResponse_cons early, List.takeWhile_cons_of_pos (by simpa using early),
        List.findSome?_cons, inductionHypothesis]
      cases response server request arrival.received <;> rfl

end

/-- Arrivals with the same responses within the window have the same result, which is that of the
first response, if there is one. -/
theorem await_udp_response_first {server : SocketAddr} {request : StunMessage} {window : Nat}
    {arrivals others : List Arrival}
    (agree : responses server request window arrivals = responses server request window others) :
    awaitUdpResponse server request window arrivals =
      awaitUdpResponse server request window others ∧
    awaitUdpResponse server request window arrivals =
      (responses server request window arrivals).head?.map (·.bind (validateResponse request)) := by
  rw [awaitUdpResponse_eq, awaitUdpResponse_eq, agree]
  exact ⟨rfl, rfl⟩

/-- A datagram from elsewhere in front of an error response. -/
theorem await_udp_response_first_stray :
    awaitUdpResponse (.v4 (.replicate 4 1) 3478) (errorMessage 0) 1
        [⟨0, .ok (errorBytes 4 38, .v4 (.replicate 4 2) 3478)⟩,
          ⟨0, .ok (errorBytes 4 38, .v4 (.replicate 4 1) 3478)⟩] =
      awaitUdpResponse (.v4 (.replicate 4 1) 3478) (errorMessage 0) 1
        [⟨0, .ok (errorBytes 4 38, .v4 (.replicate 4 1) 3478)⟩] :=
  (await_udp_response_first rfl).1

end Karyon.Stun
