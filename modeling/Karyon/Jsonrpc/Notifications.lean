/-
This file models the notifications on a multiplexed connection: the message connection of the
server, the multiplexed client, and the messages on their way between them.

On the server a subscription is entered into the set of its channel, and `notify` puts a value into
the channel if it is there. The writer sends responses and notifications from two queues. On the
client the io loop handles what it reads, whether or not the caller that subscribed has run since
its response was dispatched.

So a notification may be handled before its subscription is in the map of the client, and is then
dropped; and the value `null` is delivered as an empty string (`notifications_lost`). For all
subscriptions that are there first, and while the values are not `null`, every value that was
notified is delivered once and in order, or is on its way (`notifications_delivered`).
-/

import Karyon.Jsonrpc.MuxClient
import Karyon.Jsonrpc.ServerConn

namespace Karyon.Jsonrpc

open Json Transition

/-! ### The format of a notification -/

def defaultNotificationEncoder (nt : NewNotification) : Message.Notification :=
  { jsonrpc := JSONRPC_VERSION
    method := nt.method
    params := some (Message.NotificationResult.toValue
      { result := some nt.result, subscription := nt.subId }) }

/-- The subscription and the value of a message that the client takes for a notification. -/
def received (msg : Value) : Option (SubscriptionID × Value) :=
  match NewMsg.fromValue msg with
  | some (.notification nt) =>
    match defaultNotificationDecoder nt with
    | .ok result => some (result.subscription, result.result.getD (.string ""))
    | .error _ => none
  | _ => none

theorem received_response (response : Message.Response) : received response.toValue = none := by
  rw [received, newMsg_fromValue_response, Message.Response.fromValue_toValue]
  rfl

/-- A notification is read as it was encoded, with no value in place of `null`. -/
theorem defaultNotificationDecoder_encoder (nt : NewNotification) :
    defaultNotificationDecoder (defaultNotificationEncoder nt) =
      .ok { result := nonNull (some nt.result), subscription := nt.subId } := by
  have read : Message.NotificationResult.fromValue
      (Message.NotificationResult.toValue ⟨some nt.result, nt.subId⟩) =
      (Value.ofUInt32 nt.subId).toUInt32.bind fun subId =>
        some ⟨nonNull (some nt.result), subId⟩ := rfl
  rw [Value.toUInt32_ofUInt32, Option.bind_some] at read
  simp only [defaultNotificationDecoder, defaultNotificationEncoder, read]

theorem received_notification {nt : NewNotification} (value : nt.result ≠ .null) :
    received (defaultNotificationEncoder nt).toValue = some (nt.subId, nt.result) := by
  have written : NewMsg.fromValue (defaultNotificationEncoder nt).toValue =
      some (.notification (defaultNotificationEncoder nt)) := rfl
  rw [received, written]
  simp only [defaultNotificationDecoder_encoder, nonNull_some value, Option.getD_some]

/-! ### The two ends of a connection -/

/-- The server with the subscriptions of the channel, the client, and the messages between
them. -/
structure PubSub where
  server : ServerConn
  subs : HashSet SubscriptionID
  toServer : List Value
  toClient : List Value
  client : MuxClient

inductive PubSubAction where
  | server (action : ConnAction)
  | newSubscription (subId : SubscriptionID)
  | notify (nt : NewNotification)
  | serverReads
  | client (action : ClientAction)
  | clientReads

inductive PubSubEvent where
  | server (event : ConnEvent)
  | client (event : ClientEvent)

def written (events : List ConnEvent) : List Value :=
  events.filterMap fun
    | .response _ msg => some msg
    | .notification nt => some (defaultNotificationEncoder nt).toValue
    | .notified _ => none

def sent (events : List ClientEvent) : List Value :=
  events.filterMap fun
    | .sent msg => some msg
    | .delivered _ _ => none

namespace PubSub

def new : PubSub where
  server := .new
  subs := ∅
  toServer := []
  toClient := []
  client := .new

variable (handle : Nat → Value → Message.Response) (config : ClientConfig) (state : PubSub)

def serve (action : ConnAction) : Option (PubSub × List PubSubEvent) :=
  (state.server.step handle action).map fun reached =>
    ({ state with server := reached.1, toClient := state.toClient ++ written reached.2 },
      reached.2.map .server)

def run (action : ClientAction) : Option (PubSub × List PubSubEvent) :=
  (state.client.step config action).map fun reached =>
    ({ state with client := reached.1, toServer := state.toServer ++ sent reached.2 },
      reached.2.map .client)

/-- The reads of the two ends take the messages on their way, and only subscriptions of the channel
are notified. -/
def step : PubSubAction → Option (PubSub × List PubSubEvent)
  | .server (.recv _) => none
  | .server (.notify _) => none
  | .server action => state.serve handle action
  | .newSubscription subId =>
    if subId ∈ state.subs then none
    else some ({ state with subs := state.subs.insert subId () }, [])
  | .notify nt => if nt.subId ∈ state.subs then state.serve handle (.notify nt) else none
  | .serverReads =>
    match state.toServer with
    | msg :: rest => { state with toServer := rest }.serve handle (.recv msg)
    | [] => none
  | .client (.message _) => none
  | .client action => state.run config action
  | .clientReads =>
    match state.toClient with
    | msg :: rest => { state with toClient := rest }.run config (.message msg)
    | [] => none

end PubSub

/-- A multiplexed connection between a server whose handlers have these results and a client. -/
def pubsubMachine (handle : Nat → Value → Message.Response) (config : ClientConfig) :
    Machine PubSub PubSubAction PubSubEvent where
  start := .new
  step := PubSub.step handle config

/-! ### What was notified, what was delivered and what is on its way -/

def notifiedOf (events : List ConnEvent) : List NewNotification :=
  events.filterMap fun
    | .notified nt => some nt
    | _ => none

def notificationsOf (events : List ConnEvent) : List NewNotification :=
  events.filterMap fun
    | .notification nt => some nt
    | _ => none

def deliveredOf (events : List ClientEvent) : List (SubscriptionID × Value) :=
  events.filterMap fun
    | .delivered subId value => some (subId, value)
    | .sent _ => none

def NewNotification.entry (self : NewNotification) : SubscriptionID × Value :=
  (self.subId, self.result)

variable (history : List PubSubEvent)

def serverEvents : List ConnEvent :=
  history.filterMap fun
    | .server event => some event
    | .client _ => none

def clientEvents : List ClientEvent :=
  history.filterMap fun
    | .server _ => none
    | .client event => some event

/-- The values that were notified, each with its subscription, in the order of the calls. -/
def notified : List (SubscriptionID × Value) :=
  (notifiedOf (serverEvents history)).map NewNotification.entry

/-- The values that were delivered, each with its subscription. -/
def delivered : List (SubscriptionID × Value) :=
  deliveredOf (clientEvents history)

def WriterPhase.notification : WriterPhase → List NewNotification
  | .sendingNotification nt => [nt]
  | _ => []

/-- The notifications that the writer has not written yet. -/
def ServerConn.unwritten (state : ServerConn) : List NewNotification :=
  state.writer.notification ++ state.notifications

/-- The values on their way: what the client has not read and what the server has not written. -/
def PubSub.pending (state : PubSub) : List (SubscriptionID × Value) :=
  state.toClient.filterMap received ++ state.server.unwritten.map NewNotification.entry

variable {action : ConnAction} {events : List ConnEvent} {msg : Value}

theorem ServerConn.Effect.unwritten {handle : Nat → Value → Message.Response}
    {state next : ServerConn} (effect : Effect handle state action next events)
    (writes : action ≠ .wrote false) :
    notificationsOf events ++ next.unwritten = state.unwritten ++ notifiedOf events := by
  cases effect with
  | notify => rw [ServerConn.unwritten, ServerConn.unwritten, List.append_assoc]; rfl
  | takeNotification selects found =>
    simp only [ServerConn.unwritten, selects, found, WriterPhase.notification, List.nil_append,
      List.cons_append, notificationsOf, notifiedOf, List.filterMap_nil, List.append_nil]
  | takeResponse selects | writerEnds selects | writerCloses selects | writerDone selects =>
    simp only [ServerConn.unwritten, selects, WriterPhase.notification, List.nil_append,
      notificationsOf, notifiedOf, List.filterMap_nil, List.append_nil]
  | wroteResponse sends | wroteNotification sends =>
    simp only [ServerConn.unwritten, sends, WriterPhase.notification, List.nil_append,
      List.cons_append, notificationsOf, notifiedOf, List.filterMap_cons, List.filterMap_nil,
      List.append_nil]
  | writeFails => exact absurd rfl writes
  | _ => exact (List.append_nil _).symm

theorem notified_append (history events : List PubSubEvent) :
    notified (history ++ events) = notified history ++ notified events := by
  simp only [notified, serverEvents, notifiedOf, List.filterMap_append, List.map_append]

theorem delivered_append (history events : List PubSubEvent) :
    delivered (history ++ events) = delivered history ++ delivered events := by
  simp only [delivered, clientEvents, deliveredOf, List.filterMap_append]

theorem notified_server (events : List ConnEvent) :
    notified (events.map .server) = (notifiedOf events).map NewNotification.entry := by
  rw [notified, serverEvents, List.filterMap_map]
  exact congrArg (fun list => (notifiedOf list).map _) List.filterMap_some

theorem delivered_server (events : List ConnEvent) : delivered (events.map .server) = [] := by
  rw [delivered, clientEvents, List.filterMap_map]
  exact congrArg deliveredOf (List.filterMap_eq_nil_iff.mpr fun _ _ => rfl)

theorem notified_client (events : List ClientEvent) : notified (events.map .client) = [] := by
  rw [notified, serverEvents, List.filterMap_map]
  exact congrArg (fun list => (notifiedOf list).map _)
    (List.filterMap_eq_nil_iff.mpr fun _ _ => rfl)

theorem delivered_client (events : List ClientEvent) :
    delivered (events.map .client) = deliveredOf events := by
  rw [delivered, clientEvents, List.filterMap_map]
  exact congrArg deliveredOf List.filterMap_some

/-! ### The subscriptions of the client -/

/-- Every subscription in the map is open. -/
def MuxClient.Entered (state : MuxClient) : Prop :=
  ∀ (subId : SubscriptionID) (index : Nat), state.subscriptions.lookup subId = some index →
    ∃ sub, state.subs[index]? = some sub ∧ sub.id = subId ∧ sub.isOpen = true

theorem MuxClient.Entered.set {state : MuxClient} {index : Nat} {self : ClientSub}
    (entered : state.Entered) (found : state.subs[index]? = some self) (buffer : List Value) :
    MuxClient.Entered { state with subs := state.subs.set index { self with buffer } } := by
  intro subId other registered
  obtain ⟨sub, its, id, isOpen⟩ := entered subId other registered
  by_cases same : other = index
  · rw [same] at its
    cases found.symm.trans its
    exact ⟨{ self with buffer }, (Indexed.set_eq_some found).mpr (Or.inl ⟨same, rfl⟩), id, isOpen⟩
  · exact ⟨sub, (Indexed.set_eq_some found).mpr (Or.inr ⟨same, its⟩), id, isOpen⟩

theorem MuxClient.Steps.entered {config : ClientConfig} {state next : MuxClient}
    {action : ClientAction} {events : List ClientEvent}
    (steps : Steps config state action next events) (entered : state.Entered) : next.Entered := by
  cases steps with
  | @subscribes call self subId found phase =>
    intro other index registered
    rcases HashMap.lookup_insert_eq_some.mp registered with ⟨rfl, rfl⟩ | ⟨_, before⟩
    · exact ⟨_, List.getElem?_concat_length, rfl, rfl⟩
    · obtain ⟨sub, its, id, isOpen⟩ := entered other index before
      exact ⟨sub, Indexed.concat_eq_some.mpr (Or.inl its), id, isOpen⟩
  | @unsubscribes call self subId found =>
    intro other index registered
    obtain ⟨same, before⟩ := HashMap.lookup_erase_eq_some.mp registered
    obtain ⟨sub, its, id, isOpen⟩ := entered other index before
    refine ⟨sub, ?_, id, isOpen⟩
    cases removed : state.subscriptions.lookup subId with
    | none => simpa only [removed] using its
    | some position =>
      obtain ⟨closed, there, own, _⟩ := entered subId position removed
      have different : position ≠ index := by
        rintro rfl
        cases there.symm.trans its
        exact same (id.symm.trans own)
      simp only [List.getElem?_modify, its, if_neg different]
      rfl
  | recvs found => exact entered.set found _
  | handles _ _ outcome =>
    cases outcome with
    | delivers found => exact entered.set found _
    | _ => exact entered
  | clearsSubscriptions _ => exact fun _ _ registered => nomatch registered
  | _ => exact entered

/-! ### A connection that stays up -/

/-- The reader and the writer are in their loops, and the channel is open. -/
structure ServerConn.Open (state : ServerConn) : Prop where
  reader : state.reader = .acquiring ∨ state.reader = .reading
  channel : state.channelClosed = false
  writer : state.writer.stopped = false

theorem ServerConn.Effect.isOpen {handle : Nat → Value → Message.Response} {state next : ServerConn}
    (effect : Effect handle state action next events) (writes : action ≠ .wrote false)
    (reads : action ≠ .readerEnds) (serving : state.Open) : next.Open := by
  obtain ⟨reader, channel, writer⟩ := serving
  cases effect with
  | acquire => exact ⟨Or.inr rfl, channel, writer⟩
  | recv => exact ⟨Or.inl rfl, channel, writer⟩
  | readerEnds => exact absurd rfl reads
  | readerCloses ended =>
    rw [ended] at reader
    rcases reader with reader | reader <;> cases reader
  | writeFails => exact absurd rfl writes
  | writerEnds _ closed =>
    rw [channel] at closed
    cases closed
  | readerSeesDone _ stopped | writerCloses stopped | writerDone stopped =>
    rw [stopped] at writer
    cases writer
  | takeResponse | takeNotification | wroteResponse | wroteNotification =>
    exact ⟨reader, channel, rfl⟩
  | _ => exact ⟨reader, channel, writer⟩

/-- The io loop goes on at every step but its end and the messages that it handles. -/
theorem MuxClient.Steps.running {config : ClientConfig} {state next : MuxClient}
    {action : ClientAction} {events : List ClientEvent}
    (steps : Steps config state action next events)
    (other : ∀ msg, action ≠ .message msg) (stays : action ≠ .loopEnds)
    (running : state.loop = .running) : next.loop = .running := by
  cases steps with
  | handles => exact absurd rfl (other _)
  | ends => exact absurd rfl stays
  | flags phase | clearsSubscriptions phase | clearsDispatcher phase =>
    rw [phase] at running
    cases running
  | _ => exact running

variable {config : ClientConfig}

/-- The buffer of the subscription that a message notifies has room, if it is in the map. -/
def MuxClient.hasRoom (config : ClientConfig) (state : MuxClient) (msg : Value) : Bool :=
  match received msg with
  | some (subId, _) => ((state.subscriptions.lookup subId).bind (state.subs[·]?)).all fun sub =>
      sub.buffer.length < config.subscriptionBufferSize
  | none => true

theorem MuxClient.handleMessage_none {state : MuxClient} (other : received msg = none) :
    (state.handleMessage config msg).1.loop = state.loop ∧
      deliveredOf (state.handleMessage config msg).2 = [] := by
  unfold received at other
  unfold handleMessage
  split
  · split <;> exact ⟨rfl, rfl⟩
  · rename_i nt read
    rw [read] at other
    split
    · rename_i result decoded
      simp only [decoded] at other
      cases other
    · exact ⟨rfl, rfl⟩
  · exact ⟨rfl, rfl⟩

section

variable {subId : SubscriptionID} {value : Value} (its : received msg = some (subId, value))

include its

theorem MuxClient.handleMessage_received (config : ClientConfig) (state : MuxClient) :
    ∃ result, state.handleMessage config msg = state.notify config result ∧
      result.subscription = subId ∧ result.result.getD (.string "") = value := by
  unfold received at its
  split at its
  · rename_i nt read
    split at its
    · rename_i result decoded
      cases its
      exact ⟨result, by simp only [handleMessage, read, decoded], rfl, rfl⟩
    · cases its
  · cases its

/-- A message delivers only to the subscription that it notifies. -/
theorem MuxClient.handleMessage_subId {state : MuxClient} :
    ∀ entry ∈ deliveredOf (state.handleMessage config msg).2, entry.1 = subId := by
  obtain ⟨result, notifies, rfl, _⟩ := handleMessage_received its config state
  rw [notifies]
  fun_cases notify
  case case4 =>
    intro entry member
    cases List.mem_singleton.mp member
    rfl
  all_goals exact fun _ member => absurd member List.not_mem_nil

/-- A notification for an open subscription with room in its buffer is delivered. -/
theorem MuxClient.handleMessage_some {state : MuxClient} {index : Nat} {sub : ClientSub}
    (registered : state.subscriptions.lookup subId = some index)
    (found : state.subs[index]? = some sub) (isOpen : sub.isOpen = true)
    (room : sub.buffer.length < config.subscriptionBufferSize) :
    deliveredOf (state.handleMessage config msg).2 = [(subId, value)] := by
  obtain ⟨result, notifies, rfl, rfl⟩ := handleMessage_received its config state
  rw [notifies]
  simp only [notify, registered, found, if_neg (Nat.not_le.mpr room), isOpen, if_true]
  rfl

end

/-- The loop goes on after a message, if its subscription has room. -/
theorem MuxClient.handleMessage_running {state : MuxClient} (running : state.loop = .running)
    (room : state.hasRoom config msg = true) :
    (state.handleMessage config msg).1.loop = .running := by
  cases its : received msg with
  | none => exact (handleMessage_none its).1.trans running
  | some entry =>
    obtain ⟨subId, value⟩ := entry
    obtain ⟨result, notifies, rfl, _⟩ := handleMessage_received its config state
    rw [notifies]
    simp only [hasRoom, its] at room
    fun_cases notify
    case case3 registered _ found full =>
      simp only [registered, Option.bind_some, found, Option.all_some, decide_eq_true_eq] at room
      exact absurd room (Nat.not_lt.mpr full)
    all_goals exact running

/-! ### Subscriptions that are there first -/

namespace PubSub

/-- The connection stays up, and the buffer of the subscription is not full when the client handles
a notification. -/
def up (config : ClientConfig) (state : PubSub) : PubSubAction → Bool
  | .server .readerEnds => false
  | .server action => action.writes
  | .client .loopEnds => false
  | .clientReads => state.toClient.head?.all (state.client.hasRoom config)
  | _ => true

/-- No `null` is notified, and the client handles a notification of a watched subscription only
when it is in the map. -/
def subscribedFirst (watched : SubscriptionID → Bool) (state : PubSub) : PubSubAction → Bool
  | .notify nt => !nt.result.isNull
  | .clientReads =>
    match state.toClient.head?.bind received with
    | some (subId, _) => !watched subId || (state.client.subscriptions.lookup subId).isSome
    | none => true
  | _ => true

variable {watched : SubscriptionID → Bool} {handle : Nat → Value → Message.Response}
  {config : ClientConfig} {state next : PubSub} {history : List PubSubEvent}

/-- What was notified to watched subscriptions was delivered or is on its way. No `null` is among
it, the responses are not taken for notifications, the subscriptions of the client are open, and
both ends are in their loops. -/
structure Carried (watched : SubscriptionID → Bool) (history : List PubSubEvent)
    (state : PubSub) : Prop where
  accounted : (notified history).filter (watched ·.1) =
    (delivered history ++ state.pending).filter (watched ·.1)
  values : ∀ nt ∈ state.server.unwritten, nt.result ≠ .null
  responses : ∀ answer ∈ state.server.outbound, received answer.2 = none
  entered : state.client.Entered
  serving : state.server.Open
  running : state.client.loop = .running

theorem Carried.new : Carried watched [] .new where
  accounted := rfl
  values _ member := absurd member List.not_mem_nil
  responses _ member := absurd member List.not_mem_nil
  entered _ _ registered := nomatch registered
  serving := ⟨Or.inl rfl, rfl, rfl⟩
  running := rfl

section

variable {server : ServerConn} (carried : Carried watched history state)
  (effect : state.server.Effect handle action server events)

include carried effect

/-- What the server writes is received as what it was. -/
theorem Carried.received_written :
    (written events).filterMap received =
      (notificationsOf events).map NewNotification.entry := by
  cases effect with
  | @wroteResponse task msg sends =>
    have member : (task, msg) ∈ state.server.outbound := by
      rw [ServerConn.outbound, sends]
      exact List.mem_cons_self
    have response := carried.responses _ member
    simp only [written, notificationsOf, List.filterMap_cons, List.filterMap_nil, response,
      List.map_nil]
  | @wroteNotification nt sends =>
    have member : nt ∈ state.server.unwritten := by
      rw [ServerConn.unwritten, sends]
      exact List.mem_cons_self
    have value := received_notification (carried.values _ member)
    simp only [written, notificationsOf, List.filterMap_cons, List.filterMap_nil, value,
      List.map_cons, List.map_nil, NewNotification.entry]
  | _ => rfl

theorem Carried.serve (writes : action ≠ .wrote false) (reads : action ≠ .readerEnds)
    (value : ∀ nt, action = .notify nt → nt.result ≠ .null) (toServer : List Value) :
    Carried watched (history ++ events.map .server)
      { state with server, toServer, toClient := state.toClient ++ written events } where
  accounted := by
    have unwritten := effect.unwritten writes
    have onItsWay : delivered history ++ state.pending ++
        (notifiedOf events).map NewNotification.entry =
        delivered (history ++ events.map .server) ++ ((state.toClient ++ written events).filterMap
          received ++ server.unwritten.map NewNotification.entry) := by
      rw [delivered_append, delivered_server, List.append_nil, List.filterMap_append,
        carried.received_written effect, pending, List.append_assoc, List.append_assoc,
        ← List.map_append, ← unwritten, List.map_append, List.append_assoc]
    rw [notified_append, notified_server, List.filter_append, carried.accounted,
      ← List.filter_append, onItsWay]
    rfl
  values nt member := by
    have either : nt ∈ state.server.unwritten ++ notifiedOf events := by
      rw [← effect.unwritten writes]
      exact List.mem_append_right _ member
    rcases List.mem_append.mp either with before | newest
    · exact carried.values nt before
    · cases effect with
      | notify =>
        cases List.mem_singleton.mp newest
        exact value nt rfl
      | _ => cases newest
  responses answer member := by
    have either : answer ∈ state.server.outbound ++ state.server.pushes handle action := by
      rw [← effect.outbound writes]
      exact List.mem_append_right _ member
    rcases List.mem_append.mp either with before | newest
    · exact carried.responses answer before
    · unfold ServerConn.pushes at newest
      split at newest
      · split at newest
        · rw [List.mem_singleton.mp newest]
          exact received_response _
        · cases newest
      · cases newest
  entered := carried.entered
  serving := effect.isOpen writes reads carried.serving
  running := carried.running

end

theorem Carried.run (carried : Carried watched history state) {action : ClientAction}
    {client : MuxClient} {events : List ClientEvent}
    (steps : state.client.Steps config action client events)
    (other : ∀ msg, action ≠ .message msg) (stays : action ≠ .loopEnds) (toServer : List Value) :
    Carried watched (history ++ events.map .client) { state with client, toServer } where
  accounted := by
    have undelivered : deliveredOf events = [] := by
      cases steps with
      | handles => exact absurd rfl (other _)
      | _ => rfl
    rw [notified_append, notified_client, delivered_append, delivered_client, undelivered,
      List.append_nil, List.append_nil, carried.accounted]
    rfl
  values := carried.values
  responses := carried.responses
  entered := steps.entered carried.entered
  serving := carried.serving
  running := steps.running other stays carried.running

theorem Carried.read (carried : Carried watched history state) {rest : List Value}
    (waiting : state.toClient = msg :: rest) {client : MuxClient} {events : List ClientEvent}
    (steps : state.client.Steps config (.message msg) client events)
    (handled : state.client.handleMessage config msg = (client, events))
    (room : state.client.hasRoom config msg = true)
    (first : state.subscribedFirst watched .clientReads = true) (toServer : List Value) :
    Carried watched (history ++ events.map .client)
      { state with client, toServer, toClient := rest } where
  accounted := by
    have outcome : (deliveredOf events).filter (watched ·.1) =
        (received msg).toList.filter (watched ·.1) := by
      have deliveredEvents : events = (state.client.handleMessage config msg).2 := by rw [handled]
      rw [deliveredEvents]
      cases its : received msg with
      | none => rw [(MuxClient.handleMessage_none its).2, Option.toList_none]
      | some entry =>
        obtain ⟨subId, value⟩ := entry
        simp only [subscribedFirst, waiting, List.head?_cons, Option.bind_some, its] at first
        rcases Bool.or_eq_true_iff.mp first with other | present
        · -- Whatever becomes of a value that is not watched, it has its own subscription.
          have unwatched := Bool.not_eq_true' _ ▸ other
          rw [Option.toList_some, List.filter_cons_of_neg (by simp [unwatched]), List.filter_nil]
          refine List.filter_eq_nil_iff.mpr fun entry member => ?_
          rw [MuxClient.handleMessage_subId its entry member, unwatched]
          exact Bool.false_ne_true
        · obtain ⟨index, registered⟩ := Option.isSome_iff_exists.mp present
          obtain ⟨sub, found, _, isOpen⟩ := carried.entered subId index registered
          simp only [MuxClient.hasRoom, its, registered, Option.bind_some, found, Option.all_some,
            decide_eq_true_eq] at room
          rw [MuxClient.handleMessage_some its registered found isOpen room]
          rfl
    have taken : state.pending = (received msg).toList ++
        pending { state with client, toServer, toClient := rest } := by
      rw [pending, pending, waiting, List.filterMap_cons]
      cases received msg <;> rfl
    rw [notified_append, notified_client, List.append_nil, delivered_append, delivered_client,
      carried.accounted, taken]
    simp only [List.filter_append, outcome, List.append_assoc]
  values := carried.values
  responses := carried.responses
  entered := steps.entered carried.entered
  serving := carried.serving
  running := by
    have goesOn := MuxClient.handleMessage_running carried.running room
    rw [handled] at goesOn
    exact goesOn

theorem Carried.step (carried : Carried watched history state) {action : PubSubAction}
    {events : List PubSubEvent} (up : state.up config action = true)
    (first : state.subscribedFirst watched action = true)
    (stepped : state.step handle config action = some (next, events)) :
    Carried watched (history ++ events) next := by
  unfold PubSub.step at stepped
  split at stepped
  case h_1 | h_2 | h_7 => cases stepped
  case h_3 action _ other =>
    obtain ⟨⟨server, written⟩, reached, ⟨⟩⟩ := Option.map_eq_some_iff.mp stepped
    have writes : action ≠ .wrote false := by
      rintro rfl
      cases up
    have reads : action ≠ .readerEnds := by
      rintro rfl
      cases up
    exact carried.serve (ServerConn.step_effect reached) writes reads
      (fun nt same => absurd same (other nt)) _
  case h_4 subId =>
    obtain ⟨_, ⟨⟩⟩ := Option.ite_none_left_eq_some.mp stepped
    rw [List.append_nil]
    exact ⟨carried.accounted, carried.values, carried.responses, carried.entered,
      carried.serving, carried.running⟩
  case h_5 nt =>
    obtain ⟨_, stepped⟩ := Option.ite_none_right_eq_some.mp stepped
    obtain ⟨⟨server, written⟩, reached, ⟨⟩⟩ := Option.map_eq_some_iff.mp stepped
    refine carried.serve (ServerConn.step_effect reached) nofun nofun (fun other same => ?_) _
    cases same
    intro null
    rw [subscribedFirst, null] at first
    cases first
  case h_6 =>
    split at stepped
    · obtain ⟨⟨server, written⟩, reached, ⟨⟩⟩ := Option.map_eq_some_iff.mp stepped
      exact carried.serve (ServerConn.step_effect reached) nofun nofun nofun _
    · cases stepped
  case h_8 action other =>
    obtain ⟨⟨client, sent⟩, reached, ⟨⟩⟩ := Option.map_eq_some_iff.mp stepped
    have stays : action ≠ .loopEnds := by
      rintro rfl
      cases up
    exact carried.run (MuxClient.steps_of_step reached) (fun msg same => other msg same) stays _
  case h_9 =>
    split at stepped
    · rename_i msg rest waiting
      obtain ⟨⟨client, sent⟩, reached, ⟨⟩⟩ := Option.map_eq_some_iff.mp stepped
      have steps := MuxClient.steps_of_step reached
      obtain ⟨_, reached⟩ := Option.ite_none_right_eq_some.mp reached
      rw [PubSub.up, waiting] at up
      exact carried.read waiting steps (Option.some.inj reached) up first _
    · cases stepped

/-- The writer of the server has nothing to send, and the io loop nothing to read. -/
def Settled (handle : Nat → Value → Message.Response) (config : ClientConfig) (state : PubSub) :
    Prop :=
  (∀ action : ConnAction, action.sends = true →
    state.step handle config (.server action) = none) ∧
    state.step handle config .clientReads = none

theorem Carried.settled (carried : Carried watched history state)
    (settled : state.Settled handle config) : state.pending = [] := by
  have idle (action : ConnAction) (sends : action.sends = true) :
      state.server.step handle action = none := by
    have none := settled.1 action sends
    unfold ConnAction.sends at sends
    split at sends
    · exact Option.map_eq_none_iff.mp none
    · exact Option.map_eq_none_iff.mp none
    · exact Option.map_eq_none_iff.mp none
    · cases sends
  obtain ⟨selects, _, empty⟩ := ServerConn.drained_of_idle carried.serving.writer idle
  have read : state.toClient = [] := by
    have none := settled.2
    cases waiting : state.toClient with
    | nil => rfl
    | cons msg rest =>
      simp only [PubSub.step, waiting, PubSub.run, MuxClient.step, carried.running] at none
      cases none
  rw [pending, read, ServerConn.unwritten, selects, empty]
  rfl

end PubSub

/-- What was notified to the watched subscriptions, which may be any, was delivered, in the same
order, or is on its way, in every run in which the connection stays up and the client handles a
notification of one of them only when it is there; all of it was delivered once the writer and the
io loop have nothing to do. -/
theorem notifications_delivered (watched : SubscriptionID → Bool)
    {handle : Nat → Value → Message.Response} {config : ClientConfig}
    {history : List PubSubEvent} {state : PubSub}
    (run : (pubsubMachine handle config).Run
      (fun state action => (state.up config action && state.subscribedFirst watched action) = true)
      history state) :
    (notified history).filter (watched ·.1) =
        (delivered history ++ state.pending).filter (watched ·.1) ∧
      (state.Settled handle config →
        (notified history).filter (watched ·.1) = (delivered history).filter (watched ·.1)) := by
  have carried : state.Carried watched history := by
    refine run.invariant (fun history state => state.Carried watched history) ?_ ?_
    · exact .new
    · intro _ _ _ _ _ carried allowed stepped
      obtain ⟨up, first⟩ := Bool.and_eq_true_iff.mp allowed
      exact carried.step up first stepped
  refine ⟨carried.accounted, fun settled => ?_⟩
  rw [carried.accounted, carried.settled settled, List.append_nil]

/-! ### A subscription that comes too late -/

def watchHandle : Nat → Value → Message.Response :=
  fun _ _ => respond (some (.ofUInt32 7)) (.ok (.ofUInt32 5))

/-- A client subscribes, and its loop dispatches the response of the server. -/
def watches : List PubSubAction :=
  [.client (.request 7 "Sample.watch" .null .subscribe), .client (.register 0), .client (.send 0),
    .client .takeOutbound, .server .acquire, .serverReads, .newSubscription 5,
    .server (.handled 0), .server (.push 0), .server .takeResponse, .server (.wrote true),
    .clientReads]

/-- The caller receives the response and enters the subscription. -/
def enters : List PubSubAction :=
  [.client (.receive 0), .client (.subscribe 0)]

/-- The server notifies the subscription and writes the notification. -/
def notifies (value : Value) : List PubSubAction :=
  [.notify ⟨5, value, "Sample.watch"⟩, .server .takeNotification, .server (.wrote true)]

def observedValues (reached : List PubSubEvent × PubSub) :
    List (SubscriptionID × Value) × List (SubscriptionID × Value) × List (SubscriptionID × Value) :=
  (notified reached.1, delivered reached.1, reached.2.pending)

/-- One value is delivered and another is on its way, while a value of another subscription is
lost. -/
theorem notifications_delivered_watch :
    ∃ history state, (pubsubMachine watchHandle sampleConfig).Run (fun state action =>
        (state.up sampleConfig action && state.subscribedFirst (· == 5) action) = true)
        history state ∧
      notified history = [(6, .bool true), (5, .bool true), (5, .bool false)] ∧
      delivered history = [(5, .bool true)] ∧ state.pending = [(5, .bool false)] ∧
      (notified history).filter (·.1 == 5) =
        (delivered history ++ state.pending).filter (·.1 == 5) := by
  exact Machine.reach_run (fun history state => observedValues (history, state) =
      ([(6, .bool true), (5, .bool true), (5, .bool false)], [(5, .bool true)],
        [(5, .bool false)]))
    (watches ++ enters ++ [.newSubscription 6, .notify ⟨6, .bool true, "Sample.watch"⟩] ++
      [.server .takeNotification, .server (.wrote true), .clientReads] ++
      notifies (.bool true) ++ [.clientReads] ++ notifies (.bool false))
    ⟨_, rfl, rfl⟩ fun _ _ run observed => ⟨congrArg (fun image => image.1) observed,
      congrArg (fun image => image.2.1) observed, congrArg (fun image => image.2.2) observed,
      (notifications_delivered (· == 5) run).1⟩

/-- A notification that the client handles before the caller has entered the subscription is not
delivered, and `null` is delivered as an empty string. -/
theorem notifications_lost :
    (∃ history state, (pubsubMachine watchHandle sampleConfig).Run
        (fun state action => state.up sampleConfig action = true) history state ∧
      notified history = [(5, .bool true)] ∧ delivered history = [] ∧ state.pending = []) ∧
    ∃ history state, (pubsubMachine watchHandle sampleConfig).Run
        (fun state action => state.up sampleConfig action = true) history state ∧
      notified history = [(5, .null)] ∧ delivered history = [(5, .string "")] ∧
      state.pending = [] := by
  constructor
  · exact Machine.reach_holds (watches ++ notifies (.bool true) ++ [.clientReads] ++ enters)
      ⟨_, rfl, rfl, rfl, rfl⟩
  · exact Machine.reach_holds (watches ++ enters ++ notifies .null ++ [.clientReads])
      ⟨_, rfl, rfl, rfl, rfl⟩

end Karyon.Jsonrpc
