/-
This file models one subscription over QUIC: the stream that `client/quic_stream.rs` opens for it,
the task of the client that reads the stream, and the task of the server that serves it
(`handle_quic_subscription` in `server/quic.rs`).

The server reads the request, runs the handler and answers; then it writes what the handler
notifies, until the unsubscribe request comes. The client takes the identifier of the subscription
from the answer and spawns a task. The task waits for the next message of the stream and for an
unsubscribe request, and prefers the message. It ends with the stream, when the subscription refuses
a value, after it has sent the request, and when the sender of the request is dropped.

What a stream promises is said for the runs in which the sender is not dropped, the subscription is
closed only once the request waits, and the request is not overtaken by a value that the
subscription refuses: every value that was notified is received, buffered or on its way, in its
order, and a request that was handed to the task is sent unless the stream fails (`Sound`).
-/

import Karyon.Jsonrpc.Notifications

namespace Karyon.Jsonrpc

open Json Transition

/-! ### The two ends of a stream -/

/-- Where the task of the server is: before the request, in the handler, which may be one of
subscriptions, in its loop, or at its end. -/
inductive Serving where
  | waiting
  | handling (id : Value) (pubsub : Bool)
  | streaming
  | finished

/-- There is a channel for subscriptions, and it is open. -/
def Serving.isOpen : Serving → Bool
  | .handling _ pubsub => pubsub
  | .streaming => true
  | .waiting | .finished => false

/-- Where the task of the client is: before it is spawned, in its loop, or at its end. -/
inductive StreamTask where
  | spawning
  | running
  | ended
  deriving DecidableEq

/-- A subscription that was answered, with the channel of its unsubscribe request and its task. -/
structure Held where
  sub : ClientSub
  unsubRx : Option Value
  task : StreamTask

/-- What `subscribe` makes of its answer. -/
def Held.ofAnswer (subId : SubscriptionID) : Held where
  sub := { id := subId, isOpen := true, buffer := [] }
  unsubRx := none
  task := .spawning

/-- The task runs and nobody has unsubscribed. -/
structure Held.Live (held : Held) : Prop where
  running : held.task = .running
  unsubRx : held.unsubRx = none

/-- What has become of the subscribe call. -/
inductive Subscribing where
  | requested
  | failed
  | held (self : Held)

structure QuicStream where
  subs : HashSet SubscriptionID
  notifications : List NewNotification
  serving : Serving
  toServer : List Value
  toClient : List Value
  client : Subscribing

/-- Why the task of the client has ended: the stream failed, the buffer was full, the subscription
was closed, the request was sent, or its sender was dropped. -/
inductive EndCause where
  | failed
  | full
  | closed
  | unsubscribed
  | abandoned

inductive StreamAction where
  | accept (pubsub : Bool)
  | newSubscription (subId : SubscriptionID)
  | notify (nt : NewNotification)
  | answer (outcome : RPCResult Value)
  | writeNotification
  | readRequest (response : Message.Response)
  | serverEnds
  | read
  | readFails
  | takeRequest
  | recv
  | receive
  | spawn
  | hand (request : Value)
  | close
  | abandon

/-- What the tasks of the stream and the holder of the subscription do. The other actions are those
of the client. -/
def StreamAction.own : StreamAction → Bool
  | .receive | .spawn | .hand _ | .close | .abandon => false
  | _ => true

/-- A request is handed to the task before or after `subscribe` has returned. -/
inductive StreamEvent where
  | notified (nt : NewNotification)
  | received (value : Value)
  | handed (returned : Bool) (request : Value)
  | sent (request : Value)
  | ended (cause : EndCause)

/-! ### What the client makes of the messages -/

/-- The identifier in the answer to a subscribe request. -/
def subscriptionId (msg : Value) : Except JsonrpcError SubscriptionID := do
  let response ← readResponse msg
  match response.error, response.result with
  | some error, _ => .error (.subscribeError error.code error.message)
  | none, some result =>
    match result.toUInt32 with
    | some subId => .ok subId
    | none => .error .parseJson
  | none, none => .error (.invalidMsg "Invalid subscription id")

def decodeNotification (msg : Value) : Except JsonrpcError Message.NotificationResult :=
  match Message.Notification.fromValue msg with
  | some nt => defaultNotificationDecoder nt
  | none => .error .parseJson

/-- The value that the subscription is notified of. -/
def notifiedValue (msg : Value) : Option Value :=
  match decodeNotification msg with
  | .ok result => some (result.result.getD (.string ""))
  | .error _ => none

/-- Put the value into the buffer of the subscription. -/
def Held.notify (self : Held) (size : Nat) (value : Value) : Except EndCause Held :=
  if size ≤ self.sub.buffer.length then .error .full
  else if self.sub.isOpen then
    .ok { self with sub := { self.sub with buffer := self.sub.buffer ++ [value] } }
  else .error .closed

/-! ### The steps -/

namespace QuicStream

/-- A stream on which the subscribe request was sent. -/
def opened (request : Value) : QuicStream where
  subs := ∅
  notifications := []
  serving := .waiting
  toServer := [request]
  toClient := []
  client := .requested

def deliver (self : QuicStream) (size : Nat) (held : Held) (msg : Value) (rest : List Value) :
    QuicStream × List StreamEvent :=
  match notifiedValue msg with
  | none => ({ self with toClient := rest }, [])
  | some value =>
    match held.notify size value with
    | .ok after => ({ self with toClient := rest, client := .held after }, [])
    | .error cause =>
      ({ self with toClient := rest, client := .held { held with task := .ended } },
        [.ended cause])

/-- A message under way may not have arrived, so the task of the client may take the request before
it; the server reads the request only when there is nothing to notify. -/
def step (size : Nat) (self : QuicStream) : StreamAction → Option (QuicStream × List StreamEvent)
  | .accept pubsub =>
    match self.serving, self.toServer with
    | .waiting, msg :: rest =>
      match sanityCheck msg with
      | .newReq req =>
        some ({ self with toServer := rest, serving := .handling req.msg.id pubsub }, [])
      | .errRes res =>
        some ({ self with
                toServer := rest
                toClient := self.toClient ++ [res.toValue]
                serving := .finished }, [])
    | _, _ => none
  | .newSubscription subId =>
    if self.serving.isOpen ∧ subId ∉ self.subs then
      some ({ self with subs := self.subs.insert subId () }, [])
    else none
  | .notify nt =>
    if self.serving.isOpen ∧ nt.subId ∈ self.subs ∧
        self.notifications.length < CHANNEL_SUBSCRIPTION_BUFFER_SIZE then
      some ({ self with notifications := self.notifications ++ [nt] }, [.notified nt])
    else none
  | .answer outcome =>
    match self.serving with
    | .handling id pubsub =>
      some ({ self with
              toClient := self.toClient ++ [(respond (some id) outcome).toValue]
              serving := if pubsub && outcome.isOk then .streaming else .finished }, [])
    | _ => none
  | .writeNotification =>
    match self.serving, self.notifications with
    | .streaming, nt :: rest =>
      some ({ self with
              notifications := rest
              toClient := self.toClient ++ [(defaultNotificationEncoder nt).toValue] }, [])
    | _, _ => none
  | .readRequest response =>
    match self.serving, self.notifications, self.toServer with
    | .streaming, [], _ :: rest =>
      some ({ self with
              toServer := rest
              toClient := self.toClient ++ [response.toValue]
              serving := .finished }, [])
    | _, _, _ => none
  | .serverEnds => some ({ self with serving := .finished }, [])
  | .read =>
    match self.client, self.toClient with
    | .held held, msg :: rest =>
      if held.task = .running then some (self.deliver size held msg rest) else none
    | _, _ => none
  | .readFails =>
    match self.client with
    | .requested => some ({ self with client := .failed }, [])
    | .failed => none
    | .held held =>
      if held.task = .running then
        some ({ self with client := .held { held with task := .ended } }, [.ended .failed])
      else none
  | .takeRequest =>
    match self.client with
    | .held held =>
      match held.task, held.unsubRx with
      | .running, some request =>
        some ({ self with
                toServer := self.toServer ++ [request]
                client := .held { held with unsubRx := none, task := .ended } },
          [.sent request, .ended .unsubscribed])
      | _, _ => none
    | _ => none
  | .recv =>
    match self.client with
    | .held held =>
      match held.sub.buffer with
      | value :: rest =>
        some ({ self with client := .held { held with sub := { held.sub with buffer := rest } } },
          [.received value])
      | [] => none
    | _ => none
  | .receive =>
    match self.client, self.toClient with
    | .requested, msg :: rest =>
      match subscriptionId msg with
      | .ok subId =>
        some ({ self with toClient := rest, client := .held (.ofAnswer subId) }, [])
      | .error _ => some ({ self with toClient := rest, client := .failed }, [])
    | _, _ => none
  | .spawn =>
    match self.client with
    | .held held =>
      if held.task = .spawning then
        some ({ self with client := .held { held with task := .running } }, [])
      else none
    | _ => none
  | .hand request =>
    match self.client with
    | .held held =>
      if held.task = .ended then some (self, [])
      else if held.unsubRx.isNone then
        some ({ self with client := .held { held with unsubRx := some request } },
          [.handed (held.task = .running) request])
      else none
    | _ => none
  | .close =>
    match self.client with
    | .held held => some ({ self with client := .held { held with sub := held.sub.close } }, [])
    | _ => none
  | .abandon =>
    match self.client with
    | .held held =>
      if held.task = .running ∧ held.unsubRx.isNone then
        some ({ self with client := .held { held with task := .ended } }, [.ended .abandoned])
      else none
    | _ => none

end QuicStream

def streamMachine (size : Nat) (request : Value) :
    Machine QuicStream StreamAction StreamEvent where
  start := .opened request
  step := QuicStream.step size

/-! ### What the messages are read as -/

/-- The value of a notification as it is received: an empty string in place of `null`. -/
def NewNotification.value (self : NewNotification) : Value :=
  (nonNull (some self.result)).getD (.string "")

theorem notifiedValue_notification (nt : NewNotification) :
    notifiedValue (defaultNotificationEncoder nt).toValue = some nt.value := by
  have written : Message.Notification.fromValue (defaultNotificationEncoder nt).toValue =
      some (defaultNotificationEncoder nt) := rfl
  simp only [notifiedValue, decodeNotification, written, defaultNotificationDecoder_encoder,
    NewNotification.value]

theorem notifiedValue_response (response : Message.Response) :
    notifiedValue response.toValue = none := by
  simp only [notifiedValue, decodeNotification, Message.Notification.fromValue_response]

/-! ### What one step can do -/

variable (events : List StreamEvent)

def notifiedValues : List Value :=
  events.filterMap fun
    | .notified nt => some nt.value
    | _ => none

def receivedValues : List Value :=
  events.filterMap fun
    | .received value => some value
    | _ => none

namespace Subscribing

/-- The client still reads the stream. -/
def Reading : Subscribing → Prop
  | .requested => True
  | .failed => False
  | .held self => self.task ≠ .ended

def buffer : Subscribing → List Value
  | .held self => self.sub.buffer
  | _ => []

end Subscribing

namespace QuicStream

/-- The values on their way to the client. -/
def unread (self : QuicStream) : List Value :=
  self.toClient.filterMap notifiedValue ++ self.notifications.map NewNotification.value

/-- The first message to the client is a response. -/
def Starts (self : QuicStream) : Prop :=
  (self.toClient = [] ∧ self.serving ≠ .streaming) ∨
    ∃ (response : Message.Response) (rest : List Value),
      self.toClient = response.toValue :: rest

/-- What the server and its handlers do: they leave the client as it is, and write what was
notified. -/
structure Served (stream next : QuicStream) (events : List StreamEvent) : Prop where
  client : next.client = stream.client
  quiet : ∀ event ∈ events, ∃ nt, event = .notified nt
  starts : stream.Starts → next.Starts
  unread : next.serving ≠ .finished →
    stream.serving ≠ .finished ∧ next.unread = stream.unread ++ notifiedValues events

/-- The steps of a stream. -/
inductive Effect (size : Nat) (self : QuicStream) :
    StreamAction → QuicStream → List StreamEvent → Prop
  | serves {action : StreamAction} {next : QuicStream} {events : List StreamEvent}
      (own : action.own = true) (served : self.Served next events) :
      Effect size self action next events
  | skips {held : Held} {msg : Value} {rest : List Value} (client : self.client = .held held)
      (incoming : self.toClient = msg :: rest) (skipped : notifiedValue msg = none) :
      Effect size self .read { self with toClient := rest } []
  | delivers {held : Held} {msg value : Value} {rest : List Value}
      (client : self.client = .held held) (incoming : self.toClient = msg :: rest)
      (found : notifiedValue msg = some value) :
      Effect size self .read
        { self with
          toClient := rest
          client := .held
            { held with sub := { held.sub with buffer := held.sub.buffer ++ [value] } } } []
  | refuses {held : Held} {msg value : Value} {rest : List Value} {cause : EndCause}
      (client : self.client = .held held) (running : held.task = .running)
      (incoming : self.toClient = msg :: rest) (found : notifiedValue msg = some value)
      (refused : held.notify size value = .error cause) :
      Effect size self .read
        { self with toClient := rest, client := .held { held with task := .ended } }
        [.ended cause]
  | fails {action : StreamAction} {toClient : List Value} (client : self.client = .requested) :
      Effect size self action { self with toClient, client := .failed } []
  | breaks {held : Held} (client : self.client = .held held) (running : held.task = .running) :
      Effect size self .readFails { self with client := .held { held with task := .ended } }
        [.ended .failed]
  | sends {held : Held} {request : Value} (client : self.client = .held held)
      (running : held.task = .running) (waiting : held.unsubRx = some request) :
      Effect size self .takeRequest
        { self with
          toServer := self.toServer ++ [request]
          client := .held { held with unsubRx := none, task := .ended } }
        [.sent request, .ended .unsubscribed]
  | receives {held : Held} {value : Value} {rest : List Value} (client : self.client = .held held)
      (buffer : held.sub.buffer = value :: rest) :
      Effect size self .recv
        { self with client := .held { held with sub := { held.sub with buffer := rest } } }
        [.received value]
  | answers {msg : Value} {rest : List Value} {subId : SubscriptionID}
      (client : self.client = .requested) (incoming : self.toClient = msg :: rest)
      (answered : subscriptionId msg = .ok subId) :
      Effect size self .receive { self with toClient := rest, client := .held (.ofAnswer subId) } []
  | spawns {held : Held} (client : self.client = .held held) (spawning : held.task = .spawning) :
      Effect size self .spawn { self with client := .held { held with task := .running } } []
  | hands {held : Held} {request : Value} (client : self.client = .held held)
      (reading : held.task ≠ .ended) (empty : held.unsubRx = none) :
      Effect size self (.hand request)
        { self with client := .held { held with unsubRx := some request } }
        [.handed (held.task = .running) request]
  | drops {held : Held} {request : Value} (client : self.client = .held held)
      (ended : held.task = .ended) : Effect size self (.hand request) self []
  | closes {held : Held} (client : self.client = .held held) :
      Effect size self .close { self with client := .held { held with sub := held.sub.close } } []
  | abandons {held : Held} (client : self.client = .held held) (running : held.task = .running)
      (empty : held.unsubRx = none) :
      Effect size self .abandon { self with client := .held { held with task := .ended } }
        [.ended .abandoned]

variable {size : Nat} {self next : QuicStream} {action : StreamAction}
  {history events : List StreamEvent}

theorem Starts.append (starts : self.Starts) (response : Message.Response) (serving : Serving)
    (toServer : List Value) :
    Starts { self with toServer, toClient := self.toClient ++ [response.toValue], serving } := by
  rcases starts with ⟨empty, _⟩ | ⟨first, rest, incoming⟩
  · exact Or.inr ⟨response, [], by rw [empty, List.nil_append]⟩
  · exact Or.inr ⟨first, rest ++ [response.toValue], by rw [incoming, List.cons_append]⟩

theorem Served.respond {response : Message.Response} {serving : Serving} {toServer : List Value}
    (streams : serving ≠ .finished → self.serving ≠ .finished) :
    self.Served
      { self with toServer, toClient := self.toClient ++ [response.toValue], serving } [] where
  client := rfl
  quiet _ member := absurd member List.not_mem_nil
  starts starts := starts.append response serving toServer
  unread goesOn := by
    refine ⟨streams goesOn, ?_⟩
    simp only [QuicStream.unread, List.filterMap_append, List.filterMap_cons, List.filterMap_nil,
      notifiedValue_response, List.append_nil, notifiedValues]

theorem deliver_effect {held : Held} {msg : Value} {rest : List Value}
    (client : self.client = .held held) (incoming : self.toClient = msg :: rest)
    (running : held.task = .running) (read : self.deliver size held msg rest = (next, events)) :
    Effect size self .read next events := by
  revert read
  fun_cases deliver self size held msg rest
  next value =>
    rintro ⟨⟩
    exact .skips client incoming value
  next value found after notified =>
    rintro ⟨⟩
    revert notified
    fun_cases Held.notify held size value <;> rintro ⟨⟩
    exact .delivers client incoming found
  next value found cause refused =>
    rintro ⟨⟩
    exact .refuses client running incoming found refused

theorem step_effect (taken : self.step size action = some (next, events)) :
    Effect size self action next events := by
  revert taken
  fun_cases step size self action
  all_goals try rintro ⟨⟩
  next serving request _ =>
    refine .serves rfl ⟨rfl, fun _ member => absurd member List.not_mem_nil, fun starts => ?_,
      fun _ => ⟨by rw [serving]; rintro ⟨⟩, (List.append_nil _).symm⟩⟩
    exact starts.imp (fun empty => ⟨empty.1, by rintro ⟨⟩⟩) id
  next => exact .serves rfl (.respond fun finished => absurd rfl finished)
  next =>
    exact .serves rfl ⟨rfl, fun _ member => absurd member List.not_mem_nil, id,
      fun streams => ⟨streams, (List.append_nil _).symm⟩⟩
  next nt _ =>
    refine .serves rfl ⟨rfl, fun event member => ⟨nt, List.mem_singleton.mp member⟩, id,
      fun streams => ⟨streams, ?_⟩⟩
    simp only [unread, List.map_append, List.map_cons, List.map_nil, List.append_assoc]
    rfl
  next serving => exact .serves rfl (.respond fun _ => by rw [serving]; rintro ⟨⟩)
  next found serving =>
    refine .serves rfl ⟨rfl, fun _ member => absurd member List.not_mem_nil, fun starts => ?_,
      fun streams => ⟨streams, ?_⟩⟩
    · rcases starts with ⟨_, quiet⟩ | ⟨first, rest, incoming⟩
      · exact absurd serving quiet
      · exact Or.inr ⟨first, _, by rw [incoming, List.cons_append]⟩
    · simp only [unread, found, List.filterMap_append, List.filterMap_cons, List.filterMap_nil,
        notifiedValue_notification, List.map_cons, List.append_assoc, List.cons_append,
        List.nil_append, notifiedValues, List.append_nil]
  next => exact .serves rfl (.respond fun finished => absurd rfl finished)
  next =>
    refine .serves rfl ⟨rfl, fun _ member => absurd member List.not_mem_nil, fun starts => ?_,
      fun finished => absurd rfl finished⟩
    exact starts.imp (fun empty => ⟨empty.1, by rintro ⟨⟩⟩) id
  next incoming client running =>
    exact fun taken => deliver_effect client incoming running (Option.some.inj taken)
  next client => exact .fails client
  next client running => exact .breaks client running
  next client _ waiting running => exact .sends client running waiting
  next client _ _ buffer => exact .receives client buffer
  next incoming client _ answered => exact .answers client incoming answered
  next client _ _ => exact .fails client
  next client spawning => exact .spawns client spawning
  next client ended => exact .drops client ended
  next client reading empty =>
    exact .hands client reading (Option.isNone_iff_eq_none.mp empty)
  next client => exact .closes client
  next client runs => exact .abandons client runs.1 (Option.isNone_iff_eq_none.mp runs.2)

/-! ### Requests that are not overtaken -/

/-- While an unsubscribe request waits, the task reads no value that the subscription refuses. -/
def requestPasses (size : Nat) (self : QuicStream) : Bool :=
  match self.client, self.toClient with
  | .held held, msg :: _ =>
    match held.unsubRx, notifiedValue msg with
    | some _, some value => (held.notify size value).isOk
    | _, _ => true
  | _, _ => true

/-- The sender of the request is not dropped, the subscription is closed only once the request
waits or the task has ended, and the request is not overtaken. -/
def permitted (size : Nat) (self : QuicStream) : StreamAction → Bool
  | .read => self.requestPasses size
  | .close =>
    match self.client with
    | .held held => held.unsubRx.isSome || held.task = .ended
    | _ => true
  | .abandon => false
  | _ => true

end QuicStream

/-- An event that is not about the request or the end of the task. -/
def StreamEvent.isValue : StreamEvent → Bool
  | .notified _ | .received _ => true
  | _ => false

/-- What a permitted step makes of the client. -/
inductive Subscribing.Move : Subscribing → List StreamEvent → Subscribing → Prop
  | stays {client : Subscribing} {events : List StreamEvent}
      (values : ∀ event ∈ events, event.isValue = true) : Move client events client
  | buffers {held : Held} {buffer : List Value} {events : List StreamEvent}
      (values : ∀ event ∈ events, event.isValue = true) :
      Move (.held held) events (.held { held with sub := { held.sub with buffer } })
  | fails : Move .requested [] .failed
  | answers {subId : SubscriptionID} : Move .requested [] (.held (.ofAnswer subId))
  | spawns {held : Held} (spawning : held.task = .spawning) :
      Move (.held held) [] (.held { held with task := .running })
  | hands {held : Held} {request : Value} (reading : held.task ≠ .ended)
      (empty : held.unsubRx = none) :
      Move (.held held) [.handed (held.task = .running) request]
        (.held { held with unsubRx := some request })
  | closes {held : Held} (unsubscribed : held.task = .ended ∨ held.unsubRx.isSome = true) :
      Move (.held held) [] (.held { held with sub := held.sub.close })
  | sends {held : Held} {request : Value} (waiting : held.unsubRx = some request) :
      Move (.held held) [.sent request, .ended .unsubscribed]
        (.held { held with unsubRx := none, task := .ended })
  | ends {held : Held} {cause : EndCause}
      (own : cause = .failed ∨ cause = .full ∧ held.unsubRx = none) :
      Move (.held held) [.ended cause] (.held { held with task := .ended })

/-- What has become of the unsubscribe requests: one that was handed to the task waits or was sent,
unless the stream failed; nothing else was sent; and the task has not ended for another reason. -/
structure Requests (history : List StreamEvent) (client : Subscribing) : Prop where
  handed : ∀ returned request, .handed returned request ∈ history →
    ∃ held, client = .held held ∧ (returned = true → held.task ≠ .spawning) ∧
      (held.task ≠ .ended ∧ held.unsubRx = some request ∨
        held.task = .ended ∧ (.sent request ∈ history ∨ .ended .failed ∈ history))
  sent : ∀ request, .sent request ∈ history → ∃ returned, .handed returned request ∈ history
  waiting : ∀ held request, client = .held held → held.unsubRx = some request →
    ∃ returned, .handed returned request ∈ history
  ended : ∀ held, client = .held held → held.task = .ended →
    .ended .failed ∈ history ∨ .ended .full ∈ history ∨ ∃ request, .sent request ∈ history
  closed : ∀ held, client = .held held → held.sub.isOpen = false →
    held.task = .ended ∨ held.unsubRx.isSome = true

namespace Requests

variable {history events : List StreamEvent} {client next : Subscribing}

theorem start : Requests [] .requested where
  handed _ _ member := absurd member List.not_mem_nil
  sent _ member := absurd member List.not_mem_nil
  waiting _ _ same := by cases same
  ended _ same := by cases same
  closed _ same := by cases same

theorem mem_append_values {event : StreamEvent}
    (values : ∀ event ∈ events, event.isValue = true) (other : event.isValue = false) :
    event ∈ history ++ events ↔ event ∈ history := by
  refine List.mem_append.trans ⟨fun member => member.resolve_right fun new => ?_, Or.inl⟩
  exact Bool.false_ne_true (other.symm.trans (values event new))

theorem values (requests : Requests history client)
    (values : ∀ event ∈ events, event.isValue = true) : Requests (history ++ events) client where
  handed returned request member := by
    rw [mem_append_values values rfl] at member
    obtain ⟨held, same, entered, either⟩ := requests.handed returned request member
    refine ⟨held, same, entered, either.imp_right fun ended => ⟨ended.1, ?_⟩⟩
    exact ended.2.imp (List.mem_append_left _) (List.mem_append_left _)
  sent request member := by
    rw [mem_append_values values rfl] at member
    exact (requests.sent request member).imp fun _ => List.mem_append_left _
  waiting held request same waits :=
    (requests.waiting held request same waits).imp fun _ => List.mem_append_left _
  ended held same ended :=
    (requests.ended held same ended).imp (List.mem_append_left _)
      (Or.imp (List.mem_append_left _) (Exists.imp fun _ => List.mem_append_left _))
  closed := requests.closed

theorem fails (requests : Requests history .requested) : Requests history .failed where
  handed returned request member := by
    obtain ⟨_, ⟨⟩, _⟩ := requests.handed returned request member
  sent := requests.sent
  waiting _ _ same := by cases same
  ended _ same := by cases same
  closed _ same := by cases same

theorem answers {subId : SubscriptionID} (requests : Requests history .requested) :
    Requests history (.held (.ofAnswer subId)) where
  handed returned request member := by
    obtain ⟨_, ⟨⟩, _⟩ := requests.handed returned request member
  sent := requests.sent
  waiting := by rintro _ _ ⟨⟩ ⟨⟩
  ended := by rintro _ ⟨⟩ ⟨⟩
  closed := by rintro _ ⟨⟩ ⟨⟩

section

variable {held : Held} (requests : Requests history (.held held))

include requests

/-- Of the subscription itself it only matters when it is closed. -/
theorem withSub {sub : ClientSub}
    (closed : sub.isOpen = false → held.task = .ended ∨ held.unsubRx.isSome = true) :
    Requests history (.held { held with sub }) where
  handed returned request member := by
    obtain ⟨_, ⟨⟩, promised⟩ := requests.handed returned request member
    exact ⟨_, rfl, promised⟩
  sent := requests.sent
  waiting := by
    rintro _ request ⟨⟩ waits
    exact requests.waiting held request rfl waits
  ended := by
    rintro _ ⟨⟩ ended
    exact requests.ended held rfl ended
  closed := by
    rintro _ ⟨⟩ shut
    exact closed shut

theorem spawns (spawning : held.task = .spawning) :
    Requests history (.held { held with task := .running }) where
  handed returned request member := by
    obtain ⟨_, ⟨⟩, _, either⟩ := requests.handed returned request member
    refine ⟨_, rfl, fun _ => by rintro ⟨⟩, Or.inl ⟨by rintro ⟨⟩, ?_⟩⟩
    rcases either with waits | ended
    · exact waits.2
    · cases spawning.symm.trans ended.1
  sent := requests.sent
  waiting := by
    rintro _ request ⟨⟩ waits
    exact requests.waiting held request rfl waits
  ended := by rintro _ ⟨⟩ ⟨⟩
  closed := by
    rintro _ ⟨⟩ closed
    refine (requests.closed held rfl closed).imp_left fun ended => ?_
    cases spawning.symm.trans ended

/-- A request is handed to the task. There was none before it, as it would be waiting. -/
theorem hands {request : Value}
    (reading : held.task ≠ .ended) (empty : held.unsubRx = none) :
    Requests (history ++ [.handed (held.task = .running) request])
      (.held { held with unsubRx := some request }) where
  handed returned other member := by
    refine ⟨_, rfl, ?_⟩
    rcases mem_concat.mp member with earlier | ⟨⟨⟩⟩
    · obtain ⟨_, ⟨⟩, _, waits | ended⟩ := requests.handed returned other earlier
      · cases empty.symm.trans waits.2
      · exact absurd ended.1 reading
    · refine ⟨fun running spawning => ?_, Or.inl ⟨reading, rfl⟩⟩
      cases (of_decide_eq_true running).symm.trans spawning
  sent other member := by
    rcases mem_concat.mp member with earlier | ⟨⟨⟩⟩
    exact (requests.sent other earlier).imp fun _ => List.mem_append_left _
  waiting := by
    rintro _ _ ⟨⟩ ⟨⟩
    exact ⟨_, List.mem_concat_self⟩
  ended := by
    rintro _ ⟨⟩ ended
    exact absurd ended reading
  closed := by
    rintro _ ⟨⟩ _
    exact Or.inr rfl

theorem sends {request : Value} (waits : held.unsubRx = some request) :
    Requests (history ++ [.sent request, .ended .unsubscribed])
      (.held { held with unsubRx := none, task := .ended }) where
  handed returned other member := by
    refine ⟨_, rfl, fun _ => by rintro ⟨⟩, Or.inr ⟨rfl, ?_⟩⟩
    rcases List.mem_append.mp member with earlier | new
    · obtain ⟨_, ⟨⟩, _, ⟨_, its⟩ | ⟨_, settled⟩⟩ := requests.handed returned other earlier
      · cases waits.symm.trans its
        exact Or.inl (List.mem_append_right _ List.mem_cons_self)
      · exact settled.imp (List.mem_append_left _) (List.mem_append_left _)
    · simp at new
  sent other member := by
    have handed : ∃ returned, .handed returned other ∈ history := by
      rcases List.mem_append.mp member with earlier | new
      · exact requests.sent other earlier
      · have same : other = request := by simpa using new
        rw [same]
        exact requests.waiting held request rfl waits
    exact handed.imp fun _ => List.mem_append_left _
  waiting := by rintro _ _ ⟨⟩ ⟨⟩
  ended _ _ _ := Or.inr (Or.inr ⟨request, List.mem_append_right _ List.mem_cons_self⟩)
  closed := by
    rintro _ ⟨⟩ _
    exact Or.inl rfl

/-- The task ends because the stream failed, or because the buffer was full and no request
waited. -/
theorem ends {cause : EndCause}
    (own : cause = .failed ∨ cause = .full ∧ held.unsubRx = none) :
    Requests (history ++ [.ended cause]) (.held { held with task := .ended }) where
  handed returned request member := by
    refine ⟨_, rfl, fun _ => by rintro ⟨⟩, Or.inr ⟨rfl, ?_⟩⟩
    rcases mem_concat.mp member with earlier | ⟨⟨⟩⟩
    obtain ⟨_, ⟨⟩, _, ⟨_, waits⟩ | ⟨_, settled⟩⟩ := requests.handed returned request earlier
    · rcases own with rfl | ⟨_, empty⟩
      · exact Or.inr List.mem_concat_self
      · cases empty.symm.trans waits
    · exact settled.imp (List.mem_append_left _) (List.mem_append_left _)
  sent request member := by
    rcases mem_concat.mp member with earlier | ⟨⟨⟩⟩
    exact (requests.sent request earlier).imp fun _ => List.mem_append_left _
  waiting := by
    rintro _ request ⟨⟩ waits
    exact (requests.waiting held request rfl waits).imp fun _ => List.mem_append_left _
  ended _ _ _ := by
    rcases own with rfl | ⟨rfl, _⟩
    · exact Or.inl List.mem_concat_self
    · exact Or.inr (Or.inl List.mem_concat_self)
  closed := by
    rintro _ ⟨⟩ _
    exact Or.inl rfl

end

theorem move (requests : Requests history client) (moved : client.Move events next) :
    Requests (history ++ events) next := by
  cases moved with
  | stays values => exact requests.values values
  | buffers values => exact (requests.values values).withSub (requests.closed _ rfl)
  | fails => rw [List.append_nil]; exact requests.fails
  | answers => rw [List.append_nil]; exact requests.answers
  | spawns spawning => rw [List.append_nil]; exact requests.spawns spawning
  | hands reading empty => exact requests.hands reading empty
  | closes unsubscribed =>
    rw [List.append_nil]
    exact requests.withSub fun _ => unsubscribed
  | sends waits => exact requests.sends waits
  | ends own => exact requests.ends own

end Requests

namespace QuicStream

variable {size : Nat} {self next : QuicStream} {action : StreamAction}
  {history events : List StreamEvent}

theorem Effect.move (effect : Effect size self action next events)
    (allowed : self.permitted size action = true) (requests : Requests history self.client) :
    self.client.Move events next.client := by
  cases effect with
  | serves _ served =>
    rw [served.client]
    refine .stays fun event member => ?_
    obtain ⟨nt, rfl⟩ := served.quiet event member
    rfl
  | skips | drops => exact .stays fun _ member => absurd member List.not_mem_nil
  | delivers client =>
    rw [client]
    exact .buffers fun _ member => absurd member List.not_mem_nil
  | @refuses held msg value rest cause client running incoming found refused =>
    rw [client]
    -- A closed subscription has a waiting request, which the value would overtake.
    have empty : held.unsubRx = none := by
      cases waits : held.unsubRx with
      | none => rfl
      | some request =>
        simp only [permitted, requestPasses, client, incoming, waits, found, refused] at allowed
        cases allowed
    refine .ends (Or.inr ⟨?_, empty⟩)
    unfold Held.notify at refused
    split at refused
    · cases refused
      rfl
    · split at refused
      · cases refused
      · rename_i closed
        rcases requests.closed held client (Bool.eq_false_iff.mpr closed) with ended | waits
        · cases running.symm.trans ended
        · rw [empty] at waits
          cases waits
  | fails client =>
    rw [client]
    exact .fails
  | breaks client =>
    rw [client]
    exact .ends (Or.inl rfl)
  | sends client _ waits =>
    rw [client]
    exact .sends waits
  | receives client =>
    rw [client]
    refine .buffers fun event member => ?_
    cases List.mem_singleton.mp member
    rfl
  | answers client =>
    rw [client]
    exact .answers
  | spawns client spawning =>
    rw [client]
    exact .spawns spawning
  | hands client reading empty =>
    rw [client]
    exact .hands reading empty
  | closes client =>
    rw [client]
    simp only [permitted, client, Bool.or_eq_true, decide_eq_true_eq] at allowed
    exact .closes allowed.symm
  | abandons => cases allowed

/-! ### Values that are carried -/

theorem notifiedValues_append (history events : List StreamEvent) :
    notifiedValues (history ++ events) = notifiedValues history ++ notifiedValues events :=
  List.filterMap_append

theorem receivedValues_append (history events : List StreamEvent) :
    receivedValues (history ++ events) = receivedValues history ++ receivedValues events :=
  List.filterMap_append

/-- While the server serves the stream and the client reads it, every value that was notified was
received, is buffered or is on its way. -/
structure Carried (history : List StreamEvent) (stream : QuicStream) : Prop where
  starts : stream.client = .requested → stream.Starts
  accounted : stream.serving ≠ .finished → stream.client.Reading →
    receivedValues history ++ stream.client.buffer ++ stream.unread = notifiedValues history

theorem Carried.start (request : Value) : Carried [] (.opened request) where
  starts _ := Or.inl ⟨rfl, by rintro ⟨⟩⟩
  accounted _ _ := rfl

theorem Served.receivedValues (served : self.Served next events) : receivedValues events = [] := by
  refine List.filterMap_eq_nil_iff.mpr fun event member => ?_
  obtain ⟨nt, rfl⟩ := served.quiet event member
  rfl

theorem unread_skip {msg : Value} {rest : List Value} (incoming : self.toClient = msg :: rest)
    (skipped : notifiedValue msg = none) (client : Subscribing) :
    unread { self with toClient := rest, client } = self.unread := by
  simp only [unread, incoming, List.filterMap_cons, skipped]

/-- The values of a subscription that the client still reads. -/
theorem Carried.held {held : Held} (carried : Carried history self)
    (client : self.client = .held held) (serving : self.serving ≠ .finished)
    (reading : held.task ≠ .ended) :
    receivedValues history ++ held.sub.buffer ++ self.unread = notifiedValues history := by
  have accounted := carried.accounted serving
  rw [client] at accounted
  exact accounted reading

theorem Carried.of_held {held : Held} (client : self.client = .held held)
    (accounted : self.serving ≠ .finished → held.task ≠ .ended →
      receivedValues history ++ held.sub.buffer ++ self.unread = notifiedValues history) :
    Carried history self where
  starts requested := by cases client.symm.trans requested
  accounted serving reading := by
    rw [client] at reading ⊢
    exact accounted serving reading

theorem Carried.step (carried : Carried history self) (effect : Effect size self action next events)
    (allowed : self.permitted size action = true) : Carried (history ++ events) next := by
  cases effect with
  | serves _ served =>
    refine ⟨fun requested => served.starts (carried.starts (served.client ▸ requested)),
      fun serving reading => ?_⟩
    obtain ⟨before, unread⟩ := served.unread serving
    rw [served.client] at reading ⊢
    rw [receivedValues_append, notifiedValues_append, served.receivedValues, List.append_nil,
      unread, ← List.append_assoc, carried.accounted before reading]
  | skips client incoming skipped =>
    refine .of_held client fun serving reading => ?_
    rw [List.append_nil, ← carried.held client serving reading]
    exact congrArg _ (unread_skip incoming skipped _)
  | delivers client incoming found =>
    refine .of_held rfl fun serving reading => ?_
    rw [List.append_nil, ← carried.held client serving reading]
    simp only [unread, incoming, List.filterMap_cons, found, List.append_assoc, List.cons_append,
      List.nil_append]
  | receives client buffer =>
    refine .of_held rfl fun serving reading => ?_
    rw [receivedValues_append, notifiedValues_append, ← carried.held client serving reading, buffer]
    simp only [receivedValues, notifiedValues, List.filterMap_cons, List.filterMap_nil,
      List.append_assoc, List.cons_append, List.nil_append, List.append_nil]
    rfl
  | @answers msg _ _ client incoming =>
    refine .of_held rfl fun serving _ => ?_
    have before := carried.accounted serving
    rw [client] at before
    -- The answer is the first message, so it is no notification.
    have skipped : notifiedValue msg = none := by
      rcases carried.starts client with ⟨empty, _⟩ | ⟨response, rest, first⟩
      · cases incoming.symm.trans empty
      · cases incoming.symm.trans first
        exact notifiedValue_response response
    rw [unread_skip incoming skipped, history.append_nil]
    exact before trivial
  | @spawns held client spawning =>
    refine .of_held rfl fun serving _ => ?_
    have reading : held.task ≠ .ended := by
      rw [spawning]
      rintro ⟨⟩
    rw [List.append_nil, ← carried.held client serving reading]
    rfl
  | hands client reading =>
    refine .of_held rfl fun serving _ => ?_
    rw [receivedValues_append, notifiedValues_append, ← carried.held client serving reading]
    simp only [receivedValues, notifiedValues, List.filterMap_cons, List.filterMap_nil,
      List.append_nil]
    rfl
  | drops =>
    rw [List.append_nil]
    exact carried
  | closes client =>
    refine .of_held rfl fun serving reading => ?_
    rw [List.append_nil, ← carried.held client serving reading]
    rfl
  | fails =>
    refine ⟨fun requested => ?_, fun _ reading => absurd reading id⟩
    cases requested
  | refuses | breaks | sends => exact .of_held rfl fun _ reading => absurd rfl reading
  | abandons => cases allowed

/-- What a stream promises. -/
structure Sound (history : List StreamEvent) (stream : QuicStream) : Prop where
  requests : Requests history stream.client
  carried : Carried history stream

/-- Every run of a stream in which its request is not overtaken keeps the promises. -/
theorem sound_of_run {request : Value}
    (run : (streamMachine size request).Run (fun self action => self.permitted size action = true)
      history self) : Sound history self := by
  refine run.invariant Sound ⟨.start, .start request⟩ ?_
  intro history self action next events sound allowed taken
  have effect := step_effect taken
  exact ⟨sound.requests.move (effect.move allowed sound.requests),
    sound.carried.step effect allowed⟩

end QuicStream

/-! ### The value of a notification -/

/-- A subscription that is open and has room receives the value that was notified: from the loop of
a multiplexed connection and from the task of its stream. -/
structure NewNotification.RoundTrips (nt : NewNotification) : Prop where
  multiplexed : ∀ (config : ClientConfig) (state : MuxClient) (sub : Nat) (entry : ClientSub),
    state.subscriptions.lookup nt.subId = some sub → state.subs[sub]? = some entry →
    entry.isOpen = true → entry.buffer.length < config.subscriptionBufferSize →
    state.handleMessage config (defaultNotificationEncoder nt).toValue =
      ({ state with
         subs := state.subs.set sub { entry with buffer := entry.buffer ++ [nt.result] } },
        [.delivered nt.subId nt.result])
  stream : ∀ (self : QuicStream) (size : Nat) (held : Held) (rest : List Value),
    held.sub.isOpen = true → held.sub.buffer.length < size →
    self.deliver size held (defaultNotificationEncoder nt).toValue rest =
      ({ self with
         toClient := rest
         client := .held
           { held with sub := { held.sub with buffer := held.sub.buffer ++ [nt.result] } } }, [])

/-- Every value comes back but `null`, for which an empty string is received. -/
theorem notification_roundTrips_iff (nt : NewNotification) :
    nt.RoundTrips ↔ nt.result ≠ .null := by
  constructor
  · intro roundTrips null
    have delivered := roundTrips.stream (.opened .null) 1 (.ofAnswer nt.subId) [] rfl Nat.one_pos
    rw [QuicStream.deliver, notifiedValue_notification, NewNotification.value, null] at delivered
    cases delivered
  · intro value
    have same : nt.value = nt.result := by
      rw [NewNotification.value, nonNull_some value, Option.getD_some]
    constructor
    case multiplexed =>
      intro config state sub entry registered found isOpen room
      have read : NewMsg.fromValue (defaultNotificationEncoder nt).toValue =
          some (.notification (defaultNotificationEncoder nt)) := rfl
      simp only [MuxClient.handleMessage, read, defaultNotificationDecoder_encoder,
        nonNull_some value, Option.getD_some, MuxClient.notify, registered, found,
        if_neg (Nat.not_le.mpr room), isOpen, if_true]
    case stream =>
      intro self size held rest isOpen room
      simp only [QuicStream.deliver, notifiedValue_notification, same, Held.notify,
        if_neg (Nat.not_le.mpr room), isOpen, if_true]

/-- A notification of `null`. -/
theorem notification_roundTrips_counterexample :
    received (defaultNotificationEncoder ⟨7, .null, "tick"⟩).toValue = some (7, .string "") ∧
      notifiedValue (defaultNotificationEncoder ⟨7, .null, "tick"⟩).toValue = some (.string "") ∧
      ¬ NewNotification.RoundTrips ⟨7, .null, "tick"⟩ := by
  refine ⟨?_, notifiedValue_notification _, fun roundTrips => ?_⟩
  · have read : NewMsg.fromValue (defaultNotificationEncoder ⟨7, .null, "tick"⟩).toValue =
        some (.notification (defaultNotificationEncoder ⟨7, .null, "tick"⟩)) := rfl
    rw [received, read]
    simp only [defaultNotificationDecoder_encoder]
    rfl
  · have delivered := roundTrips.stream (.opened .null) 1 (.ofAnswer 7) [] rfl Nat.one_pos
    rw [QuicStream.deliver, notifiedValue_notification] at delivered
    cases delivered

end Karyon.Jsonrpc
