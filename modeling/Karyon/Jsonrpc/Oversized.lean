/-
This file is about a message that the codec of a connection refuses: a request of a multiplexed
client, or a response or notification of a message connection of the server, over a byte stream.

The io loop of the client and the writer of the server encode a message when they send it, far from
the call that it belongs to, and a refused message ends them as a failed connection does. The
callback of the loop then closes the channels of all calls and subscriptions, and the responses in
the queue of the server stay there (`oversized_message_ends_connection`). When nothing else disturbs
them, they serve their calls if and only if the codec has accepted every message that it was offered
(`oversized_message_fails_alone_iff`).
-/

import Karyon.Jsonrpc.Notifications
import Karyon.Jsonrpc.Correlation

namespace Karyon.Jsonrpc

open Json Transition

/-! ### Messages that the codec accepts -/

/-- The sending side of a connection over a byte stream (TCP, TLS or a Unix socket). -/
structure Sender where
  codec : JsonCodec
  serde : SerdeJson Value

namespace Sender

variable (sender : Sender)

def encode (msg : Value) : Except Net.Error (Nat × Net.ByteBuffer) :=
  sender.codec.encode sender.serde msg []

def accepts (msg : Value) : Bool :=
  match sender.encode msg with
  | .ok _ => true
  | .error _ => false

def Fits (msg : Value) : Prop :=
  ∃ text, sender.serde.toString msg = .ok text ∧ text.length ≤ sender.codec.maxSize

theorem accepts_iff (msg : Value) : sender.accepts msg = true ↔ sender.Fits msg := by
  unfold accepts encode Fits JsonCodec.encode
  cases sender.serde.toString msg with
  | error text => simp
  | ok text =>
    by_cases large : text.length > sender.codec.maxSize
    · simp [large]
    · simp [large, Nat.not_lt.mp large]

end Sender

/-! ### The io loop of the client -/

/-- A request that the loop offered to the codec, or the end of a subscription by its caller. -/
inductive IoEvent where
  | offered (msg : Value)
  | unsubscribed (subId : SubscriptionID)

namespace MuxClient

/-- The subscription that an action of the caller closes. -/
def closing (state : MuxClient) : ClientAction → List IoEvent
  | .unsubscribe call =>
    match state.calls[call]?.map Call.phase with
    | some (.unsubscribing subId) => [.unsubscribed subId]
    | _ => []
  | _ => []

/-- The steps of a client whose loop encodes what it sends, and ends if the codec refuses it. -/
def ioStep (sender : Sender) (config : ClientConfig) (state : MuxClient) :
    ClientAction → Option (MuxClient × List IoEvent)
  | .takeOutbound =>
    match state.loop, state.outbound with
    | .running, msg :: rest =>
      match sender.encode msg with
      | .ok _ => some ({ state with outbound := rest }, [.offered msg])
      | .error _ => some ({ state with outbound := rest, loop := .ended }, [.offered msg])
    | _, _ => none
  | action =>
    (state.step config action).map fun reached => (reached.1, state.closing action)

/-- The connection does not fail, no message of the server overflows the buffer of a subscription,
and every call draws an identifier that no other call has. -/
def undisturbed (config : ClientConfig) (state : MuxClient) : ClientAction → Bool
  | .loopEnds => false
  | .message msg => (state.handleMessage config msg).1.loop = .running
  | .request id _ _ _ => state.calls.all fun call => call.id ≠ id
  | _ => true

end MuxClient

def ioMachine (sender : Sender) (config : ClientConfig) :
    Machine MuxClient ClientAction IoEvent where
  start := .new
  step := MuxClient.ioStep sender config

namespace MuxClient

variable {sender : Sender} {config : ClientConfig} {state next : MuxClient} {action : ClientAction}
  {own : List ClientEvent} {history events : List IoEvent}

/-- The loop offers a request to the codec, or the client takes a step of its own. -/
theorem ioStep_cases (taken : state.ioStep sender config action = some (next, events)) :
    (∃ msg rest, state.loop = .running ∧ events = [.offered msg] ∧
      next = { state with
        outbound := rest, loop := if sender.accepts msg then .running else .ended }) ∨
    ∃ own, state.step config action = some (next, own) ∧ events = state.closing action := by
  have inner (taken : ((state.step config action).map fun reached =>
      (reached.1, state.closing action)) = some (next, events)) :
      ∃ own, state.step config action = some (next, own) ∧ events = state.closing action := by
    obtain ⟨⟨reached, own⟩, stepped, ⟨⟩⟩ := Option.map_eq_some_iff.mp taken
    exact ⟨own, stepped, rfl⟩
  cases action with
  | takeOutbound =>
    left
    simp only [ioStep] at taken
    split at taken
    · rename_i msg rest runs waits
      refine ⟨msg, rest, runs, ?_⟩
      unfold Sender.accepts
      split at taken <;> rename_i encoded <;> cases taken
      · exact ⟨rfl, by rw [if_pos rfl, ← runs]⟩
      · exact ⟨rfl, rfl⟩
    · cases taken
  | _ => exact Or.inr (inner taken)

theorem offered_not_mem_closing (state : MuxClient) (action : ClientAction) (msg : Value) :
    .offered msg ∉ state.closing action := by
  unfold closing
  split
  · split
    · rw [List.mem_singleton]
      rintro ⟨⟩
    · exact List.not_mem_nil
  · exact List.not_mem_nil

variable {call : Nat} {msg : Value} {subscriptions : HashMap SubscriptionID Nat}
  {subs : List ClientSub}

/-- An undisturbed step of the client neither ends nor starts the loop. -/
theorem step_running_iff (undisturbed : state.undisturbed config action = true)
    (stepped : state.step config action = some (next, own)) :
    next.loop = .running ↔ state.loop = .running := by
  cases steps_of_step stepped with
  | handles runs handled _ =>
    have running := of_decide_eq_true undisturbed
    rw [handled] at running
    exact ⟨fun _ => runs, fun _ => running⟩
  | ends => cases undisturbed
  | flags ended | clearsSubscriptions ended | clearsDispatcher ended =>
    rw [ended]
    exact ⟨by rintro ⟨⟩, by rintro ⟨⟩⟩
  | _ => exact Iff.rfl

/-! ### The calls in flight -/

/-- The calls while the loop runs: the senders of the empty channels are registered, and a call
between its registration and its return has a channel that is empty or holds its response. -/
structure InFlight (chans : HashMap RequestID Nat) (calls : List Call) : Prop where
  matched : Matched chans calls
  linked : Linked chans calls
  live : ∀ self ∈ calls, self.phase.isRegistered = true →
    self.chan = .empty ∨ ∃ res, self.chan = .filled res

theorem live_set {calls : List Call} {after : Call}
    (live : ∀ self ∈ calls, self.phase.isRegistered = true →
      self.chan = .empty ∨ ∃ res, self.chan = .filled res)
    (own : after.phase.isRegistered = true →
      after.chan = .empty ∨ ∃ res, after.chan = .filled res) :
    ∀ self ∈ calls.set call after, self.phase.isRegistered = true →
      self.chan = .empty ∨ ∃ res, self.chan = .filled res := by
  intro self member registered
  rcases List.mem_or_eq_of_mem_set member with before | rfl
  · exact live self before registered
  · exact own registered

theorem CallEffect.inFlight {chans : HashMap RequestID Nat} {calls : List Call}
    (effect : state.CallEffect action chans calls) (linked : Linked chans calls)
    (undisturbed : state.undisturbed config action = true)
    (unfinished : action ≠ .clearDispatcher)
    (inFlight : InFlight state.messageDispatcher.chans state.calls) : InFlight chans calls := by
  obtain ⟨matched, _, live⟩ := inFlight
  cases effect with
  | same => exact ⟨matched, linked, live⟩
  | requests =>
    refine ⟨matched.concat (fun other member => ?_) rfl, linked, fun self member registered => ?_⟩
    · exact of_decide_eq_true (List.all_eq_true.mp undisturbed other member)
    · rcases mem_concat.mp member with before | rfl
      · exact live self before registered
      · cases registered
  | registers found =>
    rw [matched.dropSender_set found] at linked ⊢
    exact ⟨matched.registers found, linked, live_set live fun _ => Or.inl rfl⟩
  | @moves _ _ self _ found _ later kept =>
    refine ⟨matched.moves found later kept, linked, live_set live fun registered => ?_⟩
    exact live self (List.mem_of_getElem? found) (kept.symm.trans registered)
  | @receives _ self res found _ filled =>
    refine ⟨matched.receives found filled, linked, live_set live fun registered => ?_⟩
    cases (self.isRegistered_next res).1.symm.trans registered
  | unregisters found =>
    rw [matched.dropSender_set found] at linked ⊢
    exact ⟨matched.unregisters found, linked, live_set live fun registered => by cases registered⟩
  | clears => exact absurd rfl unfinished

section

variable (inFlight : InFlight state.messageDispatcher.chans state.calls)

include inFlight

theorem InFlight.message (linked : Linked next.messageDispatcher.chans next.calls)
    (outcome : Handled state next own) : InFlight next.messageDispatcher.chans next.calls := by
  obtain ⟨matched, _, live⟩ := inFlight
  cases outcome with
  | @dispatches res call messageDispatcher dispatched =>
    obtain ⟨id, _, registered, rfl⟩ := MessageDispatcher.dispatch_eq_ok dispatched
    obtain ⟨self, found, rfl, _, phase⟩ := matched.entries id call registered
    simp only [Indexed.modify_eq_set found] at linked ⊢
    refine ⟨(matched.erase self.id).set found rfl ?_ ?_, linked,
      live_set live fun _ => Or.inr ⟨res, rfl⟩⟩
    · intro checked
      rw [show self.phase = .checked from checked] at phase
      cases phase
    · intro kept
      rw [AList.lookup_erase] at kept
      cases kept
  | _ => exact ⟨matched, linked, live⟩

theorem InFlight.step (undisturbed : state.undisturbed config action = true)
    (runs : next.loop = .running) (stepped : state.step config action = some (next, own)) :
    InFlight next.messageDispatcher.chans next.calls := by
  have linked := (steps_of_step stepped).linked inFlight.linked
  by_cases message : ∃ msg, action = .message msg
  · obtain ⟨msg, rfl⟩ := message
    cases steps_of_step stepped with
    | handles _ _ outcome => exact inFlight.message linked outcome
    | calls found turn => cases turn
  · refine (step_calls (fun msg is => message ⟨msg, is⟩) stepped).inFlight linked undisturbed ?_
      inFlight
    rintro rfl
    have running := (step_running_iff undisturbed stepped).mp runs
    simp only [MuxClient.step, running] at stepped
    cases stepped

end

/-! ### The open subscriptions -/

/-- The map has the subscriptions under their identifiers, and a closed one was closed by its
caller. -/
structure Subscribed (history : List IoEvent) (subscriptions : HashMap SubscriptionID Nat)
    (subs : List ClientSub) : Prop where
  named : ∀ id sub, subscriptions.lookup id = some sub →
    ∃ entry, subs[sub]? = some entry ∧ entry.id = id
  closed : ∀ entry ∈ subs, entry.isOpen = false → .unsubscribed entry.id ∈ history

section

variable (subscribed : Subscribed history subscriptions subs)

include subscribed

theorem Subscribed.set {sub : Nat} {entry : ClientSub} {buffer : List Value}
    (found : subs[sub]? = some entry) :
    Subscribed history subscriptions (subs.set sub { entry with buffer }) where
  named id place registered := by
    obtain ⟨other, there, name⟩ := subscribed.named id place registered
    by_cases same : place = sub
    · rw [same] at there ⊢
      cases found.symm.trans there
      exact ⟨_, (Indexed.set_eq_some found).mpr (Or.inl ⟨rfl, rfl⟩), name⟩
    · exact ⟨other, (Indexed.set_eq_some found).mpr (Or.inr ⟨same, there⟩), name⟩
  closed other member shut := by
    rcases List.mem_or_eq_of_mem_set member with before | rfl
    · exact subscribed.closed other before shut
    · exact subscribed.closed entry (List.mem_of_getElem? found) shut

theorem Subscribed.concat {subId : SubscriptionID} :
    Subscribed history (subscriptions.insert subId subs.length)
      (subs ++ [{ id := subId, isOpen := true, buffer := [] }]) where
  named id place registered := by
    rcases HashMap.lookup_insert_eq_some.mp registered with ⟨same, rfl⟩ | ⟨_, before⟩
    · exact ⟨_, Indexed.concat_eq_some.mpr (Or.inr ⟨rfl, rfl⟩), same.symm⟩
    · obtain ⟨other, there, name⟩ := subscribed.named id place before
      exact ⟨other, Indexed.concat_eq_some.mpr (Or.inl there), name⟩
  closed other member shut := by
    rcases mem_concat.mp member with before | rfl
    · exact subscribed.closed other before shut
    · cases shut

theorem Subscribed.erase (subId : SubscriptionID) :
    Subscribed (history ++ [.unsubscribed subId]) (subscriptions.erase subId)
      (match subscriptions.lookup subId with
        | some sub => subs.modify sub ClientSub.close
        | none => subs) := by
  have rest {id : SubscriptionID} {place : Nat}
      (registered : (subscriptions.erase subId).lookup id = some place) :
      subscriptions.lookup id = some place := (HashMap.lookup_erase_eq_some.mp registered).2
  split
  · rename_i sub registered
    obtain ⟨entry, found, name⟩ := subscribed.named subId sub registered
    rw [Indexed.modify_eq_set found]
    refine ⟨fun id place registered => ?_, fun other member shut => ?_⟩
    · obtain ⟨other, there, its⟩ := subscribed.named id place (rest registered)
      by_cases same : place = sub
      · rw [same] at there ⊢
        cases found.symm.trans there
        exact ⟨_, (Indexed.set_eq_some found).mpr (Or.inl ⟨rfl, rfl⟩), its⟩
      · exact ⟨other, (Indexed.set_eq_some found).mpr (Or.inr ⟨same, there⟩), its⟩
    · rcases List.mem_or_eq_of_mem_set member with before | rfl
      · exact List.mem_append_left _ (subscribed.closed other before shut)
      · rw [show entry.close.id = subId from name]
        exact List.mem_concat_self
  · exact ⟨fun id place registered => subscribed.named id place (rest registered),
      fun other member shut => List.mem_append_left _ (subscribed.closed other member shut)⟩

end

theorem Steps.subscribed (steps : Steps config state action next own)
    (runs : next.loop = .running) (other : ∀ call, action ≠ .unsubscribe call)
    (subscribed : Subscribed history state.subscriptions state.subs) :
    Subscribed history next.subscriptions next.subs := by
  cases steps with
  | subscribes => exact subscribed.concat
  | unsubscribes => exact absurd rfl (other _)
  | recvs found => exact subscribed.set found
  | handles _ _ outcome =>
    cases outcome with
    | delivers found => exact subscribed.set found
    | _ => exact subscribed
  | clearsSubscriptions _ => cases runs
  | _ => exact subscribed

theorem Subscribed.step (subscribed : Subscribed history state.subscriptions state.subs)
    (runs : next.loop = .running) (stepped : state.step config action = some (next, own)) :
    Subscribed (history ++ state.closing action) next.subscriptions next.subs := by
  by_cases unsubscribes : ∃ call, action = .unsubscribe call
  · obtain ⟨call, rfl⟩ := unsubscribes
    cases steps_of_step stepped with
    | unsubscribes found phase =>
      simp only [closing, found, Option.map_some, phase]
      exact subscribed.erase _
    | calls found turn => cases turn
  · have quiet : state.closing action = [] := by
      unfold closing
      split
      · exact absurd ⟨_, rfl⟩ unsubscribes
      · rfl
    rw [quiet, List.append_nil]
    exact (steps_of_step stepped).subscribed runs (fun call is => unsubscribes ⟨call, is⟩)
      subscribed

/-! ### Undisturbed runs of the client -/

/-- The loop runs if and only if every request was accepted, and while it runs the calls are in
flight and the subscriptions open. -/
structure Watched (sender : Sender) (history : List IoEvent) (state : MuxClient) : Prop where
  runs : state.loop = .running ↔ ∀ msg, .offered msg ∈ history → sender.accepts msg = true
  inFlight : state.loop = .running → InFlight state.messageDispatcher.chans state.calls
  subscribed : state.loop = .running → Subscribed history state.subscriptions state.subs

theorem Watched.new : Watched sender [] .new where
  runs := ⟨fun _ _ member => absurd member List.not_mem_nil, fun _ => rfl⟩
  inFlight _ := ⟨.start, .nil, fun _ member => absurd member List.not_mem_nil⟩
  subscribed _ := ⟨by rintro _ _ ⟨⟩, fun _ member => absurd member List.not_mem_nil⟩

theorem Watched.offers (watched : Watched sender history state) (runs : state.loop = .running)
    (msg : Value) (rest : List Value) :
    Watched sender (history ++ [.offered msg])
      { state with outbound := rest, loop := if sender.accepts msg then .running else .ended } where
  runs := by
    have earlier := watched.runs.mp runs
    by_cases accepted : sender.accepts msg = true
    · refine ⟨fun _ other member => ?_, fun _ => if_pos accepted⟩
      rcases mem_concat.mp member with before | ⟨⟨⟩⟩
      · exact earlier other before
      · exact accepted
    · refine ⟨fun running => ?_, fun all => absurd (all msg ?_) accepted⟩
      · simp only [if_neg accepted] at running
        cases running
      · exact List.mem_concat_self
  inFlight _ := watched.inFlight runs
  subscribed _ := by
    obtain ⟨named, closed⟩ := watched.subscribed runs
    exact ⟨named, fun entry member shut => List.mem_append_left _ (closed entry member shut)⟩

theorem Watched.step (watched : Watched sender history state)
    (undisturbed : state.undisturbed config action = true)
    (taken : state.ioStep sender config action = some (next, events)) :
    Watched sender (history ++ events) next := by
  rcases ioStep_cases taken with ⟨msg, rest, runs, rfl, rfl⟩ | ⟨own, stepped, rfl⟩
  · exact watched.offers runs msg rest
  · have same := step_running_iff undisturbed stepped
    refine ⟨?_, fun runs => ?_, fun runs => ?_⟩
    · rw [same, watched.runs]
      refine forall_congr' fun msg => ?_
      rw [List.mem_append, or_iff_left (offered_not_mem_closing state action msg)]
    · exact (watched.inFlight (same.mp runs)).step undisturbed runs stepped
    · exact (watched.subscribed (same.mp runs)).step runs stepped

/-- The client serves its calls: the loop runs, every call that waits for its response has it or
gets it when it is read, none can fail but by a timeout, and only its caller has closed a
subscription. -/
structure Serving (config : ClientConfig) (history : List IoEvent) (state : MuxClient) : Prop where
  running : state.loop = .running
  answered : ∀ (call : Nat) (self : Call), state.calls[call]? = some self →
    self.phase = .registered ∨ self.phase = .waiting →
    (∃ res, self.chan = .filled res) ∨
      ∀ msg res, NewMsg.fromValue msg = some (.response res) → res.id = some (.ofUInt32 self.id) →
        ∃ next, state.step config (.message msg) = some (next, []) ∧
          next.calls[call]? = some (self.fill res)
  unfailed : ∀ call, state.step config (.fail call) = none
  subscribed : ∀ entry ∈ state.subs, entry.isOpen = false → .unsubscribed entry.id ∈ history

/-- A registered call gets the response with its identifier. -/
theorem message_fills {self : Call} {res : Message.Response} (runs : state.loop = .running)
    (found : state.calls[call]? = some self)
    (registered : state.messageDispatcher.chans.lookup self.id = some call)
    (response : NewMsg.fromValue msg = some (.response res))
    (identified : res.id = some (.ofUInt32 self.id)) :
    ∃ next, state.step config (.message msg) = some (next, []) ∧
      next.calls[call]? = some (self.fill res) := by
  have dispatched : state.messageDispatcher.dispatch res =
      .ok (call, state.messageDispatcher.unregister self.id) := by
    simp only [MessageDispatcher.dispatch, identified, Value.toUInt32_ofUInt32, registered]
  simp only [MuxClient.step, runs, if_true, handleMessage, response, dispatched]
  refine ⟨_, rfl, ?_⟩
  rw [List.getElem?_modify_eq, found]
  rfl

theorem Watched.serving (watched : Watched sender history state) (runs : state.loop = .running) :
    Serving config history state where
  running := runs
  answered call self found phase := by
    obtain ⟨_, linked, live⟩ := watched.inFlight runs
    have registered : self.phase.isRegistered = true := by
      rcases phase with phase | phase <;> rw [phase] <;> rfl
    rcases live self (List.mem_of_getElem? found) registered with empty | filled
    · right
      intro msg res response identified
      exact message_fills runs found (linked call self found empty) response identified
    · exact Or.inl filled
  unfailed call := by
    simp only [MuxClient.step]
    split
    · rename_i self found
      split
      · rename_i waiting closed
        have registered : self.phase.isRegistered = true := by rw [waiting]; rfl
        rcases (watched.inFlight runs).live self (List.mem_of_getElem? found) registered with
          empty | ⟨res, filled⟩
        · cases closed.symm.trans empty
        · cases closed.symm.trans filled
      · rfl
    · rfl
  subscribed := (watched.subscribed runs).closed

theorem serving_iff
    (run : (ioMachine sender config).Run
      (fun state action => state.undisturbed config action = true) history state) :
    Serving config history state ↔ ∀ msg, .offered msg ∈ history → sender.Fits msg := by
  have watched : Watched sender history state := by
    refine run.invariant (Watched sender) ?_ ?_
    · exact .new
    · intro _ _ _ _ _ watched undisturbed taken
      exact watched.step undisturbed taken
  have fits : (∀ msg, .offered msg ∈ history → sender.accepts msg = true) ↔
      ∀ msg, .offered msg ∈ history → sender.Fits msg :=
    forall_congr' fun msg => imp_congr_right fun _ => sender.accepts_iff msg
  rw [← fits, ← watched.runs]
  exact ⟨Serving.running, watched.serving⟩

end MuxClient

/-! ### The writer of the server -/

def WriterPhase.message (encoder : NewNotification → Message.Notification) :
    WriterPhase → Option Value
  | .sendingResponse _ msg => some msg
  | .sendingNotification nt => some (encoder nt).toValue
  | _ => none

/-- A message that the writer offered to the codec, or an event of the connection. -/
inductive SendEvent where
  | offered (msg : Value)
  | conn (event : ConnEvent)

def connEvents (history : List SendEvent) : List ConnEvent :=
  history.filterMap fun
    | .conn event => some event
    | .offered _ => none

theorem connEvents_map (events : List ConnEvent) : connEvents (events.map .conn) = events := by
  rw [connEvents, List.filterMap_map]
  exact List.filterMap_some

theorem offered_not_mem_map (events : List ConnEvent) (msg : Value) :
    .offered msg ∉ events.map SendEvent.conn := by
  intro member
  obtain ⟨_, _, ⟨⟩⟩ := List.mem_map.mp member

namespace ServerConn

section

variable (sender : Sender) (encoder : NewNotification → Message.Notification)
  (handle : Nat → Value → Message.Response)

/-- The steps of a connection whose writer encodes what it sends. A write fails when the codec
refuses the message, or the connection does. -/
def sendStep (state : ServerConn) : ConnAction → Option (ServerConn × List SendEvent)
  | .wrote succeeds =>
    match state.writer.message encoder with
    | some msg =>
      if succeeds && !sender.accepts msg then none
      else
        (state.step handle (.wrote succeeds)).map fun reached =>
          (reached.1, .offered msg :: reached.2.map .conn)
    | none => none
  | action => (state.step handle action).map fun reached => (reached.1, reached.2.map .conn)

/-- The connection does not fail: the reader does not end, and the writer sends what the codec
accepts. -/
def undisturbed (state : ServerConn) : ConnAction → Bool
  | .readerEnds => false
  | .wrote succeeds =>
    match state.writer.message encoder with
    | some msg => succeeds == sender.accepts msg
    | none => true
  | _ => true

end

variable {sender : Sender} {encoder : NewNotification → Message.Notification}
  {handle : Nat → Value → Message.Response} {state next : ServerConn} {action : ConnAction}
  {history events : List SendEvent}

/-- The writer offers a message to the codec, or the connection takes another step. -/
theorem sendStep_cases (taken : state.sendStep sender encoder handle action = some (next, events)) :
    (∃ succeeds msg own, action = .wrote succeeds ∧ state.writer.message encoder = some msg ∧
      state.step handle action = some (next, own) ∧ events = .offered msg :: own.map .conn) ∨
    (∀ succeeds, action ≠ .wrote succeeds) ∧
      ∃ own, state.step handle action = some (next, own) ∧ events = own.map .conn := by
  have inner (taken : ((state.step handle action).map fun reached =>
      (reached.1, reached.2.map SendEvent.conn)) = some (next, events)) :
      ∃ own, state.step handle action = some (next, own) ∧ events = own.map .conn := by
    obtain ⟨⟨reached, own⟩, stepped, ⟨⟩⟩ := Option.map_eq_some_iff.mp taken
    exact ⟨own, stepped, rfl⟩
  cases action with
  | wrote succeeds =>
    left
    simp only [sendStep] at taken
    split at taken
    · rename_i msg sends
      split at taken
      · cases taken
      · obtain ⟨⟨reached, own⟩, stepped, ⟨⟩⟩ := Option.map_eq_some_iff.mp taken
        exact ⟨succeeds, msg, own, rfl, sends, stepped, rfl⟩
    · cases taken
  | _ => exact Or.inr ⟨by rintro _ ⟨⟩, inner taken⟩

/-- The connection while every message was accepted: what was written and what is on its way are
the expected responses, and the reader runs. -/
structure Steady (handle : Nat → Value → Message.Response) (history : List SendEvent)
    (state : ServerConn) : Prop where
  tracked : Tracked handle (connEvents history) state
  sound : Sound state
  reads : state.reader = .acquiring ∨ state.reader = .reading

theorem Steady.new : Steady handle [] .new where
  tracked _ := rfl
  sound := .new
  reads := Or.inl rfl

theorem Steady.isOpen (steady : Steady handle history state) :
    state.channelClosed = false ∧ state.writer.stopped = false := by
  refine steady.sound.not_closed fun closed => ?_
  rcases steady.reads with reads | reads <;> cases closed.symm.trans reads

theorem Steady.step {own : List ConnEvent} (steady : Steady handle history state)
    (undisturbed : state.undisturbed sender encoder action = true) (writes : action ≠ .wrote false)
    (stepped : state.step handle action = some (next, own)) (same : connEvents events = own) :
    Steady handle (history ++ events) next := by
  have effect := step_effect stepped
  have outlives : state.readerOutlives action = true := by
    cases action with
    | readerEnds => cases undisturbed
    | wrote succeeds =>
      cases succeeds with
      | true => rfl
      | false => exact absurd rfl writes
    | _ => rfl
  refine ⟨?_, effect.sound outlives steady.sound, ?_⟩
  · subst same
    rw [connEvents, List.filterMap_append]
    exact effect.tracked writes steady.tracked
  · cases effect with
    | acquire => exact Or.inr rfl
    | recv => exact Or.inl rfl
    | readerEnds => cases undisturbed
    | readerSeesDone _ done =>
      have runs := steady.isOpen.2
      rw [done] at runs
      cases runs
    | readerCloses ended => rcases steady.reads with reads | reads <;> cases ended.symm.trans reads
    | _ => exact steady.reads

theorem Effect.stopped {own : List ConnEvent} (effect : Effect handle state action next own)
    (runs : next.writer.stopped = false) (sends : ∀ succeeds, action ≠ .wrote succeeds) :
    state.writer.stopped = false := by
  cases effect with
  | takeResponse selects | takeNotification selects =>
    rw [selects]
    rfl
  | wroteResponse | wroteNotification | writeFails => exact absurd rfl (sends _)
  | writerEnds | writerCloses | writerDone => cases runs
  | _ => exact runs

/-- The connection is steady while every message was accepted, and its writer has stopped if one
was not. -/
structure Watched (sender : Sender) (handle : Nat → Value → Message.Response)
    (history : List SendEvent) (state : ServerConn) : Prop where
  steady : (∀ msg, .offered msg ∈ history → sender.accepts msg = true) →
    Steady handle history state
  accepted : state.writer.stopped = false →
    ∀ msg, .offered msg ∈ history → sender.accepts msg = true

theorem Watched.step (watched : Watched sender handle history state)
    (undisturbed : state.undisturbed sender encoder action = true)
    (taken : state.sendStep sender encoder handle action = some (next, events)) :
    Watched sender handle (history ++ events) next := by
  rcases sendStep_cases taken with
    ⟨succeeds, msg, own, rfl, sends, stepped, rfl⟩ | ⟨other, own, stepped, rfl⟩
  · have agrees : succeeds = sender.accepts msg := by
      simp only [ServerConn.undisturbed, sends] at undisturbed
      exact beq_iff_eq.mp undisturbed
    have offers : .offered msg ∈ history ++ .offered msg :: own.map SendEvent.conn :=
      (List.mem_append_right _ List.mem_cons_self)
    constructor
    · intro all
      have accepted := all msg offers
      refine (watched.steady fun other member => all other (List.mem_append_left _ member)).step
        undisturbed ?_ stepped (connEvents_map own)
      rw [agrees, accepted]
      rintro ⟨⟩
    · intro runs other member
      have accepted : sender.accepts msg = true := by
        rw [← agrees]
        cases step_effect stepped with
        | wroteResponse | wroteNotification => rfl
        | writeFails => cases runs
      have before : state.writer.stopped = false := by
        cases phase : state.writer with
        | ended | closed | done =>
          rw [phase] at sends
          cases sends
        | _ => rfl
      rcases List.mem_append.mp member with earlier | new
      · exact watched.accepted before other earlier
      · rcases List.mem_cons.mp new with same | event
        · cases same
          exact accepted
        · exact absurd event (offered_not_mem_map own other)
  · constructor
    · intro all
      exact (watched.steady fun other member => all other (List.mem_append_left _ member)).step
        undisturbed (other false) stepped (connEvents_map own)
    · intro runs msg member
      rcases List.mem_append.mp member with earlier | event
      · exact watched.accepted ((step_effect stepped).stopped runs other) msg earlier
      · exact absurd event (offered_not_mem_map own msg)

/-- Neither a task of the connection nor a write can take a step. -/
def AtRest (sender : Sender) (encoder : NewNotification → Message.Notification)
    (handle : Nat → Value → Message.Response) (state : ServerConn) : Prop :=
  ∀ action, action.internal = true ∨ action = .wrote false →
    state.sendStep sender encoder handle action = none

theorem AtRest.quiescent (atRest : AtRest sender encoder handle state) :
    Quiescent handle state := by
  intro action internal
  have none := atRest action (Or.inl internal)
  cases action with
  | wrote succeeds =>
    have failing := atRest (.wrote false) (Or.inr rfl)
    refine Option.eq_none_iff_forall_ne_some.mpr fun ⟨next, own⟩ stepped => ?_
    -- A writer that sends a message can always fail.
    cases succeeds with
    | false => cases internal
    | true =>
      cases step_effect stepped with
      | wroteResponse sends | wroteNotification sends =>
        simp only [sendStep, ServerConn.step, sends, WriterPhase.message] at failing
        cases failing
  | _ => exact Option.map_eq_none_iff.mp none

/-- The connection serves its calls: the writer runs, the channel of the subscriptions is open, and
every request is answered at most once, by what its handler returned, and when the connection is
at rest exactly once. -/
structure Serving (sender : Sender) (encoder : NewNotification → Message.Notification)
    (handle : Nat → Value → Message.Response) (history : List SendEvent) (state : ServerConn) :
    Prop where
  running : state.writer.stopped = false
  channel : state.channelClosed = false
  answered : ∀ (task : Nat) (request : RequestTask), state.tasks[task]? = some request →
    responsesTo task (responses (connEvents history)) <+: [(handle task request.msg).toValue] ∧
      (AtRest sender encoder handle state →
        responsesTo task (responses (connEvents history)) = [(handle task request.msg).toValue])

theorem Steady.serving (steady : Steady handle history state) :
    Serving sender encoder handle history state where
  running := steady.isOpen.2
  channel := steady.isOpen.1
  answered task request read := by
    have accounted := steady.tracked task
    rw [responsesTo, List.filterMap_append] at accounted
    constructor
    · have written : responsesTo task (responses (connEvents history)) <+:
          state.expected handle task := ⟨_, accounted⟩
      exact written.trans (expected_within read)
    · intro atRest
      obtain ⟨sent, pushed⟩ := steady.sound.settled atRest.quiescent
      rw [sent, List.filterMap_nil, List.append_nil] at accounted
      exact accounted.trans (expected_pushed read (pushed task request read))

end ServerConn

def sendMachine (sender : Sender) (encoder : NewNotification → Message.Notification)
    (handle : Nat → Value → Message.Response) : Machine ServerConn ConnAction SendEvent where
  start := .new
  step := ServerConn.sendStep sender encoder handle

theorem ServerConn.serving_iff {sender : Sender}
    {encoder : NewNotification → Message.Notification} {handle : Nat → Value → Message.Response}
    {history : List SendEvent} {state : ServerConn}
    (run : (sendMachine sender encoder handle).Run
      (fun state action => state.undisturbed sender encoder action = true) history state) :
    Serving sender encoder handle history state ↔
      ∀ msg, .offered msg ∈ history → sender.Fits msg := by
  have watched : Watched sender handle history state := by
    refine run.invariant (Watched sender handle) ?_ ?_
    · exact ⟨fun _ => .new, fun _ _ member => absurd member List.not_mem_nil⟩
    · intro _ _ _ _ _ watched undisturbed taken
      exact watched.step undisturbed taken
  constructor
  · intro serving msg member
    exact (sender.accepts_iff msg).mp (watched.accepted serving.running msg member)
  · intro fits
    exact (watched.steady fun msg member => (sender.accepts_iff msg).mpr (fits msg member)).serving

/-! ### Messages of any size -/

/-- In a run that nothing else disturbs, a multiplexed client and a message connection of the
server serve all their calls if and only if every message that they sent fits the codec. -/
theorem oversized_message_fails_alone_iff (sender : Sender) :
    (∀ (config : ClientConfig) (history : List IoEvent) (state : MuxClient),
      (ioMachine sender config).Run (fun state action => state.undisturbed config action = true)
        history state →
      (MuxClient.Serving config history state ↔
        ∀ msg, .offered msg ∈ history → sender.Fits msg)) ∧
    ∀ (encoder : NewNotification → Message.Notification)
      (handle : Nat → Value → Message.Response) (history : List SendEvent) (state : ServerConn),
      (sendMachine sender encoder handle).Run
        (fun state action => state.undisturbed sender encoder action = true) history state →
      (ServerConn.Serving sender encoder handle history state ↔
        ∀ msg, .offered msg ∈ history → sender.Fits msg) :=
  ⟨fun _ _ _ run => MuxClient.serving_iff run, fun _ _ _ _ run => ServerConn.serving_iff run⟩

/-- Texts as long as the string that a request or a response carries. -/
def stringTexts : SerdeJson Value where
  toString msg :=
    match msg.member "params", msg.member "result" with
    | some (.string text), _ | _, some (.string text) => .ok (List.replicate text.length 0)
    | _, _ => .ok [0]
  next _ := .finished

def shortTexts : Sender where
  codec := { maxSize := 4 }
  serde := stringTexts

/-- A subscription is open, and a call waits for its response. -/
def waitingClient : List ClientAction :=
  [.request 7 "Sample.watch" .null .subscribe, .register 0, .send 0, .takeOutbound,
    .message (subscribed 7 5), .receive 0, .subscribe 0,
    .request 8 "Sample.echo" .null .call, .register 1, .send 1, .takeOutbound]

/-- Another call sends the text. -/
def sendingText (text : String) : List ClientAction :=
  [.request 9 "Sample.echo" (.string text) .call, .register 2, .send 2, .takeOutbound]

/-- The first request is answered with the text, the others with a short one. -/
def textHandle (text : String) (task : Nat) (_ : Value) : Message.Response :=
  respond (some (.ofUInt32 7)) (.ok (.string (if task = 0 then text else "ok")))

/-- Two requests are read and handled, and the response to the first is offered to the codec. -/
def offering (succeeds : Bool) : List ConnAction :=
  [.acquire, .recv echoRequest, .acquire, .recv echoRequest, .acquire, .handled 0, .push 0,
    .takeResponse, .wrote succeeds, .handled 1, .push 1]

/-- A call with a short text is sent while another waits, and two requests are answered with short
texts. -/
theorem oversized_message_fails_alone_iff_short :
    (∃ history state, (ioMachine shortTexts sampleConfig).Run
        (fun state action => state.undisturbed sampleConfig action = true) history state ∧
      state.calls.map Call.phase = [.returned, .waiting, .waiting] ∧
      MuxClient.Serving sampleConfig history state) ∧
    ∃ history state, (sendMachine shortTexts defaultNotificationEncoder (textHandle "yes")).Run
        (fun state action => state.undisturbed shortTexts defaultNotificationEncoder action = true)
        history state ∧
      (responses (connEvents history)).map Prod.fst = [0, 1] ∧
      ServerConn.Serving shortTexts defaultNotificationEncoder (textHandle "yes")
        history state := by
  constructor
  · refine Machine.reach_run (fun history state =>
        state.calls.map Call.phase = [.returned, .waiting, .waiting] ∧
        history.all fun | .offered msg => shortTexts.accepts msg | _ => true)
      (waitingClient ++ sendingText "yes") ⟨_, rfl, rfl, rfl⟩
      fun history state run ⟨phases, all⟩ => ⟨phases,
        ((oversized_message_fails_alone_iff shortTexts).1 _ history state run).mpr ?_⟩
    intro msg member
    exact (shortTexts.accepts_iff msg).mp (List.all_eq_true.mp all _ member)
  · refine Machine.reach_run (fun history _ =>
        (responses (connEvents history)).map Prod.fst = [0, 1] ∧
        history.all fun | .offered msg => shortTexts.accepts msg | _ => true)
      (offering true ++ [.takeResponse, .wrote true]) ⟨_, rfl, rfl, rfl⟩
      fun history state run ⟨sent, all⟩ => ⟨sent,
        ((oversized_message_fails_alone_iff shortTexts).2 _ _ history state run).mpr ?_⟩
    intro msg member
    exact (shortTexts.accepts_iff msg).mp (List.all_eq_true.mp all _ member)

/-- A long request ends the loop of the client: the call that waits fails, and the subscription is
closed. A long response ends the writer of the server: the response to the other request is left
in the queue, and the connection is at rest without it. -/
theorem oversized_message_ends_connection :
    (∃ history state, (ioMachine shortTexts sampleConfig).Run
        (fun state action => state.undisturbed sampleConfig action = true) history state ∧
      state.loop = .finished ∧ state.calls.map Call.phase = [.returned, .returned, .waiting] ∧
      (state.calls[1]?.map Call.chan = some .closed) ∧
      state.subs.map ClientSub.isOpen = [false]) ∧
    ∃ history state, (sendMachine shortTexts defaultNotificationEncoder (textHandle "too long")).Run
        (fun state action => state.undisturbed shortTexts defaultNotificationEncoder action = true)
        history state ∧
      state.tasks.map RequestTask.phase = [.pushed, .pushed] ∧
      state.queue.map Prod.fst = [1] ∧ state.writer = .done ∧ state.reader = .closed ∧
      responses (connEvents history) = [] := by
  constructor
  · exact Machine.reach_holds (waitingClient ++ sendingText "too long" ++
      [.storeFlag, .clearSubscriptions, .clearDispatcher, .fail 1, .unregister 1])
      ⟨_, rfl, rfl, rfl, rfl, rfl⟩
  · exact Machine.reach_holds
      (offering false ++ [.writerCloses, .writerDone, .readerSeesDone, .readerCloses])
      ⟨_, rfl, rfl, rfl, rfl, rfl, rfl⟩

end Karyon.Jsonrpc
