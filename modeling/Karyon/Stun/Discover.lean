/-
This file puts the two ends of a STUN exchange over UDP together: the loop of the server,
`udp_loop` of `stun/src/server.rs`, and the requests of the client, `discover_udp` of
`stun/src/client.rs`.

The network loses, delays, repeats and reorders datagrams, and others send what they like. As long
as only the server sends from its address, the client learns an address from which the server saw
the request, or nothing (`stun_discover_udp`).
-/

import Karyon.Stun.Client
import Karyon.Stun.Incremental

namespace Karyon.Stun

def StunMessage.bindingRequest (txnId : TransactionId) : StunMessage :=
  ⟨.bindingRequest, txnId, []⟩

def StunMessage.bindingResponse (request : StunMessage) (source : SocketAddr) : StunMessage :=
  ⟨.bindingResponse, request.txnId, [.xorMappedAddress source]⟩

def handleBinding (msg : StunMessage) (source : SocketAddr) (software : Option String) :
    StunMessage :=
  let resp := StunMessage.bindingResponse msg source
  match software with
  | some text => { resp with attrs := resp.attrs ++ [.software text] }
  | none => resp

/-- One turn of `udp_loop`: the datagram that goes back to the source, if one does. -/
def udpTurn (software : Option String) (datagram : List UInt8) (source : SocketAddr) :
    Option (List UInt8) :=
  match StunMessage.decode (datagram.take 1500) with
  | .ok (some (_, msg)) =>
    if msg.msgType ≠ .bindingRequest then none
    else (handleBinding msg source software).encode.toOption
  | _ => none

/-- The windows in which the client waits after each of its requests. -/
def UDP_RETRIES_MS : List Nat := [500, 1000, 2000]

/-- How a request is sent, and what the socket hands over until the next one. -/
structure Round where
  sent : Except String Unit
  arrivals : List Arrival

variable (server : SocketAddr)

/-- Send and wait in each of the windows. There is no result when none of them has one, which is
the error `Timeout`. -/
def discoverRounds (request : StunMessage) :
    List (Nat × Round) → Option (Except ClientError SocketAddr)
  | [] => none
  | (window, round) :: rest =>
    match round.sent with
    | .error text => some (.error (.karyonNet text))
    | .ok () =>
      match awaitUdpResponse server request window round.arrivals with
      | some result => some result
      | none => discoverRounds request rest

/-- The requests with their windows. -/
def turns (rounds : Vector Round 3) : List (Nat × Round) :=
  UDP_RETRIES_MS.zip rounds.toList

def discoverUdp (txnId : TransactionId) (rounds : Vector Round 3) :
    Option (Except ClientError SocketAddr) :=
  discoverRounds server (.bindingRequest txnId) (turns rounds)

/-- What arrives within the windows. -/
def inTime (rounds : List (Nat × Round)) : List Arrival :=
  rounds.flatMap fun (window, round) => round.arrivals.takeWhile (·.time < window)

/-- The server has seen the request coming from this address and has answered it. -/
def Answers (software : Option String) (txnId : TransactionId) (datagram : List UInt8)
    (source : SocketAddr) : Prop :=
  ∃ request, (StunMessage.bindingRequest txnId).encode = .ok request ∧
    udpTurn software request source = some datagram

variable {source : SocketAddr} {software : Option String} {txnId : TransactionId}
  {request : StunMessage} {datagram : List UInt8}

theorem encode_of_answers (answers : Answers software txnId datagram source) :
    (handleBinding (.bindingRequest txnId) source software).encode = .ok datagram := by
  obtain ⟨bytes, encoded, answered⟩ := answers
  have decoded := (StunMessage.decode_encode (List.forall_mem_nil _) encoded).2 []
  have short : bytes.length = HEADER_SIZE := by
    obtain ⟨_, _, rfl⟩ := StunMessage.encode_eq_ok.mp encoded
    rw [List.length_append, StunMessage.length_header]
    rfl
  rw [List.append_nil] at decoded
  rw [udpTurn, List.take_of_length_le (by rw [short]; decide), decoded] at answered
  replace answered : (handleBinding (.bindingRequest txnId) source software).encode.toOption =
      some datagram := answered
  cases reply : (handleBinding (.bindingRequest txnId) source software).encode with
  | error reason =>
    rw [reply] at answered
    cases answered
  | ok bytes =>
    rw [reply] at answered
    exact congrArg Except.ok (Option.some.inj answered)

/-- An answer that fits the buffer of the client responds, with the address that the server saw. -/
theorem response_of_answers (answers : Answers software txnId datagram source)
    (fits : datagram.length ≤ 1500) :
    ∃ msg, response server (.bindingRequest txnId) (.ok (datagram, server)) = some (.ok msg) ∧
      validateResponse (.bindingRequest txnId) msg = .ok (.new source.ip source.port) := by
  have unambiguous : ∀ attr ∈ (handleBinding (.bindingRequest txnId) source software).attrs,
      attr.Unambiguous := by
    cases software <;> simp [handleBinding, StunMessage.bindingResponse, Attribute.Unambiguous]
  have decoded := (StunMessage.decode_encode unambiguous (encode_of_answers answers)).2 []
  rw [List.append_nil] at decoded
  rw [response, if_pos rfl, List.take_of_length_le fits, decoded]
  cases software <;> exact ⟨_, if_pos rfl, if_neg fun other => other rfl⟩

/-- One that does not is cut off, and is skipped. -/
theorem response_of_long (answers : Answers software txnId datagram source)
    (long : ¬ datagram.length ≤ 1500) :
    response server request (.ok (datagram, server)) = none := by
  have cut : datagram.take 1500 ≠ datagram :=
    fun same => long ((List.take_eq_self_iff _).mp same)
  rw [response, if_pos rfl,
    StunMessage.decode_part (encode_of_answers answers) (List.take_prefix _ _) cut]

theorem discoverRounds_eq {server : SocketAddr} {rounds : List (Nat × Round)}
    (sent : ∀ turn ∈ rounds, turn.2.sent = .ok ()) :
    discoverRounds server request rounds =
      ((inTime rounds).findSome? (response server request ·.received)).map
        (·.bind (validateResponse request)) := by
  induction rounds with
  | nil => rfl
  | cons turn rest inductionHypothesis =>
    obtain ⟨window, round⟩ := turn
    obtain ⟨first, later⟩ := List.forall_mem_cons.mp sent
    rw [discoverRounds, show round.sent = .ok () from first, inTime, List.flatMap_cons,
      List.findSome?_append]
    dsimp only
    rw [awaitUdpResponse_eq, responses, List.head?_filterMap, inductionHypothesis later]
    cases (round.arrivals.takeWhile (·.time < window)).findSome?
      (response server request ·.received) <;> rfl

/-- If the socket works and what comes from the server are its answers, the client learns the
address of one that comes in time and fits its buffer, or there is none and it times out. -/
theorem stun_discover_udp {server : SocketAddr} {rounds : Vector Round 3}
    (sent : ∀ round ∈ rounds.toList, round.sent = .ok ())
    (works : ∀ arrival ∈ inTime (turns rounds), ∃ received, arrival.received = .ok received)
    (genuine : ∀ arrival ∈ inTime (turns rounds), ∀ datagram,
      arrival.received = .ok (datagram, server) →
        ∃ source, Answers software txnId datagram source) :
    (∃ arrival ∈ inTime (turns rounds), ∃ datagram source,
      arrival.received = .ok (datagram, server) ∧ Answers software txnId datagram source ∧
      discoverUdp server txnId rounds = some (.ok (.new source.ip source.port))) ∨
    (discoverUdp server txnId rounds = none ∧ ∀ arrival ∈ inTime (turns rounds), ∀ datagram,
      arrival.received = .ok (datagram, server) → 1500 < datagram.length) := by
  have all (turn : Nat × Round) (member : turn ∈ turns rounds) : turn.2.sent = .ok () :=
    sent _ (List.of_mem_zip member).2
  rw [discoverUdp, discoverRounds_eq all]
  cases found : (inTime (turns rounds)).findSome?
      (response server (.bindingRequest txnId) ·.received) with
  | none =>
    refine .inr ⟨rfl, fun arrival member datagram received => Nat.not_le.mp fun fits => ?_⟩
    obtain ⟨source, answers⟩ := genuine arrival member datagram received
    obtain ⟨msg, responds, _⟩ := response_of_answers _ answers fits
    have silent := List.findSome?_eq_none_iff.mp found arrival member
    rw [received, responds] at silent
    cases silent
  | some result =>
    obtain ⟨arrival, member, responds⟩ := List.exists_of_findSome?_eq_some found
    obtain ⟨⟨datagram, sender⟩, received⟩ := works arrival member
    rw [received] at responds
    by_cases own : sender = server
    · subst own
      obtain ⟨source, answers⟩ := genuine arrival member datagram received
      by_cases fits : datagram.length ≤ 1500
      · obtain ⟨msg, same, valid⟩ := response_of_answers _ answers fits
        rw [same] at responds
        cases responds
        exact .inl ⟨arrival, member, datagram, source, received, answers, congrArg some valid⟩
      · rw [response_of_long _ answers fits] at responds
        cases responds
    · rw [response, if_neg own] at responds
      cases responds

/-- The answer comes after the second request, behind a datagram from elsewhere. -/
theorem stun_discover_udp_second : ∃ rounds addr,
    discoverUdp (.v4 (.replicate 4 1) 3478) (.replicate 12 7) rounds = some (.ok addr) := by
  have answered : (udpTurn none ((StunMessage.bindingRequest (.replicate 12 7)).header 0)
      (.v4 (.replicate 4 9) 5000)).any (·.length ≤ 1500) = true := by decide +kernel
  obtain ⟨datagram, answers, fits⟩ := (Option.any_eq_true _ _).mp answered
  let stray : Arrival := ⟨3, .ok ([], .v4 (.replicate 4 2) 3478)⟩
  let answer : Arrival := ⟨4, .ok (datagram, .v4 (.replicate 4 1) 3478)⟩
  let rounds : Vector Round 3 := #v[⟨.ok (), []⟩, ⟨.ok (), [stray, answer]⟩, ⟨.ok (), []⟩]
  have arrive : inTime (turns rounds) = [stray, answer] := rfl
  have learns := @stun_discover_udp none (.replicate 12 7) (.v4 (.replicate 4 1) 3478) rounds
  rw [arrive] at learns
  rcases learns (by simp [rounds]) (by simp [stray, answer]) (by
    simp only [List.forall_mem_cons, stray, answer]
    exact ⟨by simp, by rintro _ ⟨⟩; exact ⟨_, _, rfl, answers⟩, List.forall_mem_nil _⟩) with
    ⟨_, _, _, _, _, _, learned⟩ | ⟨_, long⟩
  · exact ⟨_, _, learned⟩
  · have beyond := long answer (by simp) _ rfl
    exact absurd (of_decide_eq_true fits) (Nat.not_le.mpr beyond)

end Karyon.Stun
