/-
This file models the multiplexed JSON-RPC client, `client/multiplexed.rs` with
`message_dispatcher.rs` and `subscriptions.rs`, as a machine: its calls, its io loop and the
completion callback of the loop.

A call tests the disconnect flag, registers its identifier in the dispatcher, sends its request to
the loop and waits on its channel; a subscribing call then inserts a subscription. The loop writes
requests, dispatches responses and delivers notifications. When it ends, its callback stores the
flag, clears the subscriptions and clears the dispatcher, each under its own lock. A step is what a
task does from one await point to the next.

A call that has tested the flag may register after the dispatcher was cleared, and a subscribing
call may insert its subscription after they were cleared; nobody ever closes these. And a call may
wait for room in the channel to the loop, which nobody makes once the loop has ended
(`muxClient_left_waiting`). When registrations and insertions happen only while the flag is unset,
and the channel has room for what is still to be sent, nothing is left after the callback
(`muxClient_disconnect_reaches_all`).
-/

import Karyon.Lib.Indexed
import Karyon.Lib.Transition
import Karyon.Jsonrpc.Call

namespace Karyon.Jsonrpc

open Json Transition

def OUTBOUND_BUFFER_SIZE : Nat := 10

/-! ### Calls and subscriptions -/

/-- The channel on which a call waits: not made yet, empty, with the response, or closed. -/
inductive CallChan where
  | unmade
  | empty
  | filled (response : Message.Response)
  | closed

inductive CallKind where
  | call
  | subscribe
  | unsubscribe (subId : SubscriptionID)

/-- Where a call is: past the test of the flag, past its registration, waiting for its response,
before it unregisters after an error, before it inserts or removes a subscription, or at its
end. -/
inductive CallPhase where
  | checked
  | registered
  | waiting
  | failing
  | subscribing (subId : SubscriptionID)
  | unsubscribing (subId : SubscriptionID)
  | returned
  deriving DecidableEq

structure Call where
  id : RequestID
  method : String
  params : Value
  kind : CallKind
  phase : CallPhase
  chan : CallChan

/-- The subscription that the caller holds. -/
structure ClientSub where
  id : SubscriptionID
  isOpen : Bool
  buffer : List Value

/-- Where the io loop is: running, before its callback, or past the steps of the callback. -/
inductive LoopPhase where
  | running
  | ended
  | flagged
  | subsCleared
  | finished
  deriving DecidableEq

structure MuxClient where
  disconnect : Bool
  messageDispatcher : MessageDispatcher Nat
  subscriptions : HashMap SubscriptionID Nat
  subs : List ClientSub
  outbound : List Value
  loop : LoopPhase
  calls : List Call

structure ClientConfig where
  timeout : Option Nat
  subscriptionBufferSize : Nat

inductive ClientAction where
  | request (id : RequestID) (method : String) (params : Value) (kind : CallKind)
  | register (call : Nat)
  | send (call : Nat)
  | receive (call : Nat)
  | fail (call : Nat)
  | timeout (call : Nat)
  | unregister (call : Nat)
  | subscribe (call : Nat)
  | unsubscribe (call : Nat)
  | takeOutbound
  | message (msg : Value)
  | recv (sub : Nat)
  | loopEnds
  | storeFlag
  | clearSubscriptions
  | clearDispatcher

/-- A request that the loop wrote, or a value that it delivered to a subscription. -/
inductive ClientEvent where
  | sent (msg : Value)
  | delivered (subId : SubscriptionID) (value : Value)

/-- The sender of the channel is dropped or closed. A response in it stays. -/
def Call.close (self : Call) : Call :=
  match self.chan with
  | .empty => { self with chan := .closed }
  | _ => self

def Call.fill (self : Call) (response : Message.Response) : Call :=
  { self with chan := .filled response }

def ClientSub.close (self : ClientSub) : ClientSub :=
  { self with isOpen := false }

/-- What a call does with its response. -/
def Call.next (self : Call) (response : Message.Response) : CallPhase :=
  match checkResponseId self.id response, self.kind with
  | .error _, _ => .returned
  | .ok _, .call => .returned
  | .ok response, .subscribe =>
    match response.error, response.result.bind Value.toUInt32 with
    | none, some subId => .subscribing subId
    | _, _ => .returned
  | .ok _, .unsubscribe subId => .unsubscribing subId

def defaultNotificationDecoder (nt : Message.Notification) :
    Except JsonrpcError Message.NotificationResult :=
  match nt.params with
  | none => .error (.invalidMsg "Invalid notification msg")
  | some params =>
    match Message.NotificationResult.fromValue params with
    | some result => .ok result
    | none => .error .parseJson

/-! ### The steps -/

namespace MuxClient

def new : MuxClient where
  disconnect := false
  messageDispatcher := .new
  subscriptions := ∅
  subs := []
  outbound := []
  loop := .running
  calls := []

variable (config : ClientConfig) (state : MuxClient)

/-- Drop the sender that is registered under the identifier. -/
def dropSender (id : RequestID) : List Call :=
  match state.messageDispatcher.chans.lookup id with
  | some call => state.calls.modify call Call.close
  | none => state.calls

/-- Deliver a notification to its subscription. The loop ends if the buffer is full; other errors
are logged. -/
def notify (result : Message.NotificationResult) : MuxClient × List ClientEvent :=
  match state.subscriptions.lookup result.subscription with
  | none => (state, [])
  | some sub =>
    match state.subs[sub]? with
    | none => (state, [])
    | some entry =>
      let value := result.result.getD (.string "")
      if config.subscriptionBufferSize ≤ entry.buffer.length then
        ({ state with loop := .ended }, [])
      else if entry.isOpen then
        ({ state with
           subs := state.subs.set sub { entry with buffer := entry.buffer ++ [value] } },
          [.delivered result.subscription value])
      else (state, [])

def handleMessage (msg : Value) : MuxClient × List ClientEvent :=
  match NewMsg.fromValue msg with
  | some (.response res) =>
    match state.messageDispatcher.dispatch res with
    | .ok (call, messageDispatcher) =>
      ({ state with
         messageDispatcher
         calls := state.calls.modify call fun call => call.fill res }, [])
    | .error _ => (state, [])
  | some (.notification nt) =>
    match defaultNotificationDecoder nt with
    | .ok result => state.notify config result
    | .error _ => (state, [])
  | none => (state, [])

def step : ClientAction → Option (MuxClient × List ClientEvent)
  | .request id method params kind =>
    if state.disconnect then some (state, [])
    else
      some ({ state with
              calls := state.calls ++ [{ id, method, params, kind, phase := .checked,
                                         chan := .unmade }] }, [])
  | .register call =>
    match state.calls[call]? with
    | some self =>
      if self.phase = .checked then
        some ({ state with
                messageDispatcher := state.messageDispatcher.register self.id call
                calls := (state.dropSender self.id).set call
                  { self with phase := .registered, chan := .empty } }, [])
      else none
    | none => none
  | .send call =>
    match state.calls[call]? with
    | some self =>
      if self.phase = .registered ∧ state.outbound.length < OUTBOUND_BUFFER_SIZE then
        some ({ state with
                outbound := state.outbound ++ [(newRequest self.id self.method self.params).toValue]
                calls := state.calls.set call { self with phase := .waiting } }, [])
      else none
    | none => none
  | .receive call =>
    match state.calls[call]? with
    | some self =>
      match self.phase, self.chan with
      | .waiting, .filled response =>
        some ({ state with
                calls := state.calls.set call { self with phase := self.next response } }, [])
      | _, _ => none
    | none => none
  | .fail call =>
    match state.calls[call]? with
    | some self =>
      match self.phase, self.chan with
      | .waiting, .closed =>
        some ({ state with calls := state.calls.set call { self with phase := .failing } }, [])
      | _, _ => none
    | none => none
  | .timeout call =>
    match state.calls[call]? with
    | some self =>
      if self.phase = .waiting ∧ config.timeout.isSome then
        some ({ state with calls := state.calls.set call { self with phase := .failing } }, [])
      else none
    | none => none
  | .unregister call =>
    match state.calls[call]? with
    | some self =>
      if self.phase = .failing then
        some ({ state with
                messageDispatcher := state.messageDispatcher.unregister self.id
                calls := (state.dropSender self.id).set call
                  { self with phase := .returned, chan := .closed } }, [])
      else none
    | none => none
  | .subscribe call =>
    match state.calls[call]? with
    | some self =>
      match self.phase with
      | .subscribing subId =>
        some ({ state with
                subscriptions := state.subscriptions.insert subId state.subs.length
                subs := state.subs ++ [{ id := subId, isOpen := true, buffer := [] }]
                calls := state.calls.set call { self with phase := .returned } }, [])
      | _ => none
    | none => none
  | .unsubscribe call =>
    match state.calls[call]? with
    | some self =>
      match self.phase with
      | .unsubscribing subId =>
        some ({ state with
                subscriptions := state.subscriptions.erase subId
                subs := match state.subscriptions.lookup subId with
                  | some sub => state.subs.modify sub ClientSub.close
                  | none => state.subs
                calls := state.calls.set call { self with phase := .returned } }, [])
      | _ => none
    | none => none
  | .takeOutbound =>
    match state.loop, state.outbound with
    | .running, msg :: rest => some ({ state with outbound := rest }, [.sent msg])
    | _, _ => none
  | .message msg => if state.loop = .running then some (state.handleMessage config msg) else none
  | .recv sub =>
    match state.subs[sub]? with
    | some entry =>
      match entry.buffer with
      | _ :: rest =>
        some ({ state with subs := state.subs.set sub { entry with buffer := rest } }, [])
      | [] => none
    | none => none
  | .loopEnds => if state.loop = .running then some ({ state with loop := .ended }, []) else none
  | .storeFlag =>
    if state.loop = .ended then some ({ state with loop := .flagged, disconnect := true }, [])
    else none
  | .clearSubscriptions =>
    if state.loop = .flagged then
      some
        ({ state with
          loop := .subsCleared
          subscriptions := ∅
          subs := state.subs.mapIdx fun sub entry =>
            if sub ∈ state.subscriptions.entries.map Sigma.snd then entry.close else entry }, [])
    else none
  | .clearDispatcher =>
    if state.loop = .subsCleared then
      some ({ state with
              loop := .finished
              messageDispatcher := .new
              calls := state.calls.mapIdx fun call self =>
                if call ∈ state.messageDispatcher.chans.entries.map Sigma.snd then self.close
                else self }, [])
    else none

end MuxClient

def clientMachine (config : ClientConfig) : Machine MuxClient ClientAction ClientEvent where
  start := .new
  step := MuxClient.step config

/-! ### What one step can do -/

namespace MuxClient

/-- The turns of a call that change only its phase and what is to be sent. -/
inductive CallTurn (config : ClientConfig) (state : MuxClient) (call : Nat) (self : Call) :
    ClientAction → CallPhase → List Value → Prop
  | sends (registered : self.phase = .registered)
      (room : state.outbound.length < OUTBOUND_BUFFER_SIZE) :
      CallTurn config state call self (.send call) .waiting
        (state.outbound ++ [(newRequest self.id self.method self.params).toValue])
  | receives {response : Message.Response} (waiting : self.phase = .waiting)
      (filled : self.chan = .filled response) :
      CallTurn config state call self (.receive call) (self.next response) state.outbound
  | fails (waiting : self.phase = .waiting) (closed : self.chan = .closed) :
      CallTurn config state call self (.fail call) .failing state.outbound
  | timesOut (waiting : self.phase = .waiting) (limited : config.timeout.isSome = true) :
      CallTurn config state call self (.timeout call) .failing state.outbound

/-- What a message can do: nothing, answer a call, come into a buffer, or end the loop. -/
inductive Handled (state : MuxClient) : MuxClient → List ClientEvent → Prop
  | ignored : Handled state state []
  | dispatches {res : Message.Response} {call : Nat} {messageDispatcher : MessageDispatcher Nat}
      (found : state.messageDispatcher.dispatch res = .ok (call, messageDispatcher)) :
      Handled state
        { state with
          messageDispatcher
          calls := state.calls.modify call fun call => call.fill res } []
  | delivers {value : Value} {subId : SubscriptionID} {sub : Nat} {entry : ClientSub}
      (found : state.subs[sub]? = some entry) :
      Handled state
        { state with
          subs := state.subs.set sub { entry with buffer := entry.buffer ++ [value] } }
        [.delivered subId value]
  | ends : Handled state { state with loop := .ended } []

theorem handleMessage_handled (config : ClientConfig) (state : MuxClient) (msg : Value) :
    Handled state (state.handleMessage config msg).1 (state.handleMessage config msg).2 := by
  fun_cases handleMessage
  next found => exact .dispatches found
  next => exact .ignored
  next =>
    fun_cases notify
    next => exact .ignored
    next => exact .ignored
    next => exact .ends
    next found _ _ _ => exact .delivers found
    next => exact .ignored
  next => exact .ignored
  next => exact .ignored

/-- Everything that a step can be, with what it needs. -/
inductive Steps (config : ClientConfig) (state : MuxClient) :
    ClientAction → MuxClient → List ClientEvent → Prop
  | refuses {id : RequestID} {method : String} {params : Value} {kind : CallKind}
      (disconnected : state.disconnect = true) :
      Steps config state (.request id method params kind) state []
  | requests {id : RequestID} {method : String} {params : Value} {kind : CallKind}
      (connected : state.disconnect = false) :
      Steps config state (.request id method params kind)
        { state with
          calls := state.calls ++ [{ id, method, params, kind, phase := .checked,
                                     chan := .unmade }] } []
  | registers {call : Nat} {self : Call} (found : state.calls[call]? = some self)
      (checked : self.phase = .checked) :
      Steps config state (.register call)
        { state with
          messageDispatcher := state.messageDispatcher.register self.id call
          calls := (state.dropSender self.id).set call
            { self with phase := .registered, chan := .empty } } []
  | calls {action : ClientAction} {call : Nat} {self : Call} {phase : CallPhase}
      {outbound : List Value} (found : state.calls[call]? = some self)
      (turn : CallTurn config state call self action phase outbound) :
      Steps config state action
        { state with outbound, calls := state.calls.set call { self with phase } } []
  | unregisters {call : Nat} {self : Call} (found : state.calls[call]? = some self)
      (failing : self.phase = .failing) :
      Steps config state (.unregister call)
        { state with
          messageDispatcher := state.messageDispatcher.unregister self.id
          calls := (state.dropSender self.id).set call
            { self with phase := .returned, chan := .closed } } []
  | subscribes {call : Nat} {self : Call} {subId : SubscriptionID}
      (found : state.calls[call]? = some self) (phase : self.phase = .subscribing subId) :
      Steps config state (.subscribe call)
        { state with
          subscriptions := state.subscriptions.insert subId state.subs.length
          subs := state.subs ++ [{ id := subId, isOpen := true, buffer := [] }]
          calls := state.calls.set call { self with phase := .returned } } []
  | unsubscribes {call : Nat} {self : Call} {subId : SubscriptionID}
      (found : state.calls[call]? = some self) (phase : self.phase = .unsubscribing subId) :
      Steps config state (.unsubscribe call)
        { state with
          subscriptions := state.subscriptions.erase subId
          subs := match state.subscriptions.lookup subId with
            | some sub => state.subs.modify sub ClientSub.close
            | none => state.subs
          calls := state.calls.set call { self with phase := .returned } } []
  | takes {msg : Value} {rest : List Value} (runs : state.loop = .running)
      (waits : state.outbound = msg :: rest) :
      Steps config state .takeOutbound { state with outbound := rest } [.sent msg]
  | handles {msg : Value} {next : MuxClient} {events : List ClientEvent}
      (runs : state.loop = .running)
      (handled : state.handleMessage config msg = (next, events))
      (outcome : Handled state next events) :
      Steps config state (.message msg) next events
  | recvs {sub : Nat} {entry : ClientSub} {value : Value} {rest : List Value}
      (found : state.subs[sub]? = some entry) (buffered : entry.buffer = value :: rest) :
      Steps config state (.recv sub)
        { state with subs := state.subs.set sub { entry with buffer := rest } } []
  | ends (runs : state.loop = .running) :
      Steps config state .loopEnds { state with loop := .ended } []
  | flags (ended : state.loop = .ended) :
      Steps config state .storeFlag { state with loop := .flagged, disconnect := true } []
  | clearsSubscriptions (flagged : state.loop = .flagged) :
      Steps config state .clearSubscriptions
        { state with
          loop := .subsCleared
          subscriptions := ∅
          subs := state.subs.mapIdx fun sub entry =>
            if sub ∈ state.subscriptions.entries.map Sigma.snd then entry.close else entry } []
  | clearsDispatcher (cleared : state.loop = .subsCleared) :
      Steps config state .clearDispatcher
        { state with
          loop := .finished
          messageDispatcher := .new
          calls := state.calls.mapIdx fun call self =>
            if call ∈ state.messageDispatcher.chans.entries.map Sigma.snd then self.close
            else self } []

theorem steps_of_step {config : ClientConfig} {state next : MuxClient} {action : ClientAction}
    {events : List ClientEvent} (stepped : state.step config action = some (next, events)) :
    Steps config state action next events := by
  revert stepped
  fun_cases step config state action
  all_goals try rintro ⟨⟩
  next disconnected => exact .refuses disconnected
  next connected => exact .requests (eq_false_of_ne_true connected)
  next found checked => exact .registers found checked
  next found ready => exact .calls found (.sends ready.1 ready.2)
  next found _ filled waiting => exact .calls found (.receives waiting filled)
  next found closed waiting => exact .calls found (.fails waiting closed)
  next found ready => exact .calls found (.timesOut ready.1 ready.2)
  next found failing => exact .unregisters found failing
  next found _ phase => exact .subscribes found phase
  next found _ phase => exact .unsubscribes found phase
  next waits runs => exact .takes runs waits
  next msg runs =>
    intro stepped
    have outcome := state.handleMessage_handled config msg
    rw [Option.some.inj stepped] at outcome
    exact .handles runs (Option.some.inj stepped) outcome
  next found _ _ buffered => exact .recvs found buffered
  next runs => exact .ends runs
  next ended => exact .flags ended
  next flagged => exact .clearsSubscriptions flagged
  next cleared => exact .clearsDispatcher cleared

variable {config : ClientConfig} {state next : MuxClient} {action : ClientAction}
  {history events : List ClientEvent}

/-! ### Senders and receivers -/

/-- The sender of every empty channel is registered under the identifier of its call. -/
def Linked (chans : HashMap RequestID Nat) (calls : List Call) : Prop :=
  Indexed.Named Call.id (fun call => call.chan = .empty) chans calls

/-- Every open subscription is in the map. -/
def Opened (subscriptions : HashMap SubscriptionID Nat) (subs : List ClientSub) : Prop :=
  Indexed.Named ClientSub.id (fun sub => sub.isOpen = true) subscriptions subs

theorem close_ne_empty (call : Call) : call.close.chan ≠ .empty := by
  unfold Call.close
  split
  · exact nofun
  · rename_i filled
    exact filled

theorem Linked.dropSender (linked : Linked state.messageDispatcher.chans state.calls)
    (id : RequestID) : Linked (state.messageDispatcher.chans.erase id) (state.dropSender id) := by
  unfold MuxClient.dropSender
  split
  · rename_i registered
    exact linked.modify registered close_ne_empty
  · rename_i absent
    exact linked.forget absent

theorem Steps.linked (steps : Steps config state action next events)
    (linked : Linked state.messageDispatcher.chans state.calls) :
    Linked next.messageDispatcher.chans next.calls := by
  cases steps with
  | requests => exact linked.concat nofun
  | registers found => exact ((linked.dropSender _).insert _).set fun _ => AList.lookup_insert _
  | unregisters found => exact (linked.dropSender _).set nofun
  | calls found | subscribes found | unsubscribes found => exact linked.replace found rfl id
  | handles _ _ outcome =>
    cases outcome with
    | dispatches found =>
      obtain ⟨id, _, registered, rfl⟩ := MessageDispatcher.dispatch_eq_ok found
      exact linked.modify registered fun _ => nofun
    | _ => exact linked
  | clearsDispatcher _ => exact linked.clear close_ne_empty _
  | _ => exact linked

/-! ### Registrations while the flag is unset -/

/-- The requests in the channel to the loop, and those of the calls that have registered and not
sent theirs yet. -/
def pending (state : MuxClient) : Nat :=
  state.outbound.length + state.calls.countP (·.phase = .registered)

variable (config) in
/-- Calls register and subscriptions are inserted only while the disconnect flag is unset, and a
subscription only under an identifier that the map does not have. When the loop ends, and when a
call registers after that, the channel to the loop has room for all pending requests. -/
def connected (state : MuxClient) : ClientAction → Bool
  | .register _ =>
    !state.disconnect && (state.loop = .running || state.pending < OUTBOUND_BUFFER_SIZE)
  | .loopEnds => state.pending ≤ OUTBOUND_BUFFER_SIZE
  | .message msg =>
    (state.handleMessage config msg).1.loop = .running || state.pending ≤ OUTBOUND_BUFFER_SIZE
  | .subscribe call =>
    match state.calls[call]?.map Call.phase with
    | some (.subscribing subId) =>
      !state.disconnect && (state.subscriptions.lookup subId).isNone
    | _ => true
  | _ => true

theorem Steps.opened (steps : Steps config state action next events)
    (connected : state.connected config action = true)
    (opened : Opened state.subscriptions state.subs) : Opened next.subscriptions next.subs := by
  cases steps with
  | @subscribes call self subId found phase =>
    have fresh : state.subscriptions.lookup subId = none := by
      simp only [MuxClient.connected, found, Option.map_some, phase] at connected
      exact Option.isNone_iff_eq_none.mp (Bool.and_eq_true_iff.mp connected).2
    exact ((opened.forget fresh).insert _).concat fun _ => AList.lookup_insert _
  | @unsubscribes call self subId found =>
    cases registered : state.subscriptions.lookup subId with
    | none => exact opened.forget registered
    | some position => exact opened.modify registered fun _ => Bool.false_ne_true
  | recvs found => exact opened.replace found rfl id
  | handles _ _ outcome =>
    cases outcome with
    | delivers found => exact opened.replace found rfl id
    | _ => exact opened
  | clearsSubscriptions _ => exact opened.clear (fun _ => Bool.false_ne_true) _
  | _ => exact opened

/-- From the storing of the flag on it is set; from their clearing on there are no subscriptions
and no registered calls. -/
structure Cleared (state : MuxClient) : Prop where
  flag : state.loop ≠ .running → state.loop ≠ .ended → state.disconnect = true
  subscriptions : state.loop = .subsCleared ∨ state.loop = .finished → state.subscriptions = ∅
  chans : state.loop = .finished → state.messageDispatcher.chans = ∅

theorem Cleared.new : Cleared .new where
  flag runs := absurd rfl runs
  subscriptions _ := rfl
  chans _ := rfl

theorem Cleared.not_stored (cleared : Cleared state) (unset : state.disconnect = false) :
    state.loop ≠ .flagged ∧ state.loop ≠ .subsCleared ∧ state.loop ≠ .finished := by
  have stored (phase : LoopPhase) (runs : phase ≠ .running) (ended : phase ≠ .ended) :
      state.loop ≠ phase := by
    rintro rfl
    rw [cleared.flag runs ended] at unset
    cases unset
  exact ⟨stored _ nofun nofun, stored _ nofun nofun, stored _ nofun nofun⟩

theorem Steps.cleared (steps : Steps config state action next events)
    (connected : state.connected config action = true) (cleared : Cleared state) :
    Cleared next := by
  cases steps with
  | registers found =>
    have unset := Bool.not_eq_true' _ ▸ (Bool.and_eq_true_iff.mp connected).1
    obtain ⟨_, _, unfinished⟩ := cleared.not_stored unset
    exact ⟨cleared.flag, cleared.subscriptions, fun finished => absurd finished unfinished⟩
  | subscribes found phase =>
    simp only [MuxClient.connected, found, Option.map_some, phase] at connected
    have unset := Bool.not_eq_true' _ ▸ (Bool.and_eq_true_iff.mp connected).1
    obtain ⟨_, uncleared, unfinished⟩ := cleared.not_stored unset
    refine ⟨cleared.flag, fun later => ?_, cleared.chans⟩
    exact later.elim (fun its => absurd its uncleared) fun its => absurd its unfinished
  | unregisters found =>
    refine ⟨cleared.flag, cleared.subscriptions, fun finished => ?_⟩
    simp only [MessageDispatcher.unregister, cleared.chans finished]
    rfl
  | unsubscribes found =>
    refine ⟨cleared.flag, fun later => ?_, cleared.chans⟩
    simp only [cleared.subscriptions later]
    rfl
  | handles runs _ outcome =>
    cases outcome with
    | dispatches =>
      refine ⟨cleared.flag, cleared.subscriptions, fun finished => ?_⟩
      cases runs.symm.trans finished
    | ends => exact ⟨fun _ ended => absurd rfl ended, nofun, nofun⟩
    | _ => exact ⟨cleared.flag, cleared.subscriptions, cleared.chans⟩
  | ends => exact ⟨fun _ ended => absurd rfl ended, nofun, nofun⟩
  | flags ended => exact ⟨fun _ _ => rfl, nofun, nofun⟩
  | clearsSubscriptions flagged =>
    exact ⟨fun _ _ => cleared.flag (by rw [flagged]; exact nofun) (by rw [flagged]; exact nofun),
      fun _ => rfl, nofun⟩
  | clearsDispatcher gone =>
    exact ⟨fun _ _ => cleared.flag (by rw [gone]; exact nofun) (by rw [gone]; exact nofun),
      fun _ => cleared.subscriptions (Or.inl gone), fun _ => rfl⟩
  | _ => exact ⟨cleared.flag, cleared.subscriptions, cleared.chans⟩

/-! ### Room for the requests -/

theorem close_phase (call : Call) : call.close.phase = call.phase := by
  unfold Call.close
  split <;> rfl

theorem countP_dropSender (state : MuxClient) (id : RequestID) :
    (state.dropSender id).countP (·.phase = .registered) =
      state.calls.countP (·.phase = .registered) := by
  unfold MuxClient.dropSender
  split
  · exact Indexed.countP_modify fun call => by rw [close_phase]
  · rfl

/-- A call that goes on to another phase has no request that becomes pending. -/
theorem countP_goes {calls : List Call} {call : Nat} {after : Call}
    (goes : after.phase ≠ .registered) : (calls.set call after).countP (·.phase = .registered) ≤
      calls.countP (·.phase = .registered) := by
  refine Indexed.countP_set_le.trans (Nat.le_of_eq ?_)
  rw [decide_eq_false goes]
  rfl

/-- A call sends its own pending request, and no other becomes pending. -/
theorem CallTurn.pending_le {call : Nat} {self : Call} {phase : CallPhase} {outbound : List Value}
    (turn : CallTurn config state call self action phase outbound)
    (found : state.calls[call]? = some self) :
    outbound.length + (state.calls.set call { self with phase }).countP (·.phase = .registered) ≤
      state.pending := by
  cases turn with
  | sends registered room =>
    have sent : (state.calls.set call { self with phase := .waiting }).countP
        (·.phase = .registered) + _ = _ := Indexed.countP_set_eq _ found
    rw [registered] at sent
    rw [List.length_append, Nat.add_assoc, Nat.add_comm [_].length]
    exact Nat.add_le_add_left (Nat.le_of_eq sent) _
  | @receives response =>
    refine Nat.add_le_add_left (countP_goes ?_) _
    fun_cases Call.next <;> rintro ⟨⟩
  | fails | timesOut =>
    refine Nat.add_le_add_left (countP_goes ?_) _
    rintro ⟨⟩

/-- Only a registration makes a request pending. -/
theorem Steps.pending_le (steps : Steps config state action next events)
    (apart : ∀ call, action ≠ .register call) : next.pending ≤ state.pending := by
  cases steps with
  | requests =>
    refine Nat.add_le_add_left ?_ _
    rw [List.countP_append]
    exact Nat.le_refl _
  | registers => exact absurd rfl (apart _)
  | calls found turn => exact turn.pending_le found
  | unregisters found failing =>
    refine Nat.add_le_add_left ((countP_goes ?_).trans (Nat.le_of_eq ?_)) _
    · rintro ⟨⟩
    · exact state.countP_dropSender _
  | subscribes | unsubscribes =>
    refine Nat.add_le_add_left (countP_goes ?_) _
    rintro ⟨⟩
  | takes runs waits =>
    refine Nat.add_le_add_right ?_ _
    rw [waits]
    exact Nat.le_succ _
  | handles _ _ outcome =>
    refine Nat.le_of_eq ?_
    cases outcome with
    | dispatches =>
      exact congrArg (state.outbound.length + ·) (Indexed.countP_modify fun _ => rfl)
    | _ => rfl
  | clearsDispatcher =>
    refine Nat.add_le_add_left (Nat.le_of_eq (Indexed.countP_mapIdx fun index call => ?_)) _
    split
    · rw [close_phase]
    · rfl
  | _ => exact Nat.le_refl _

/-- Once the loop has ended, the channel to it has room for all pending requests. -/
theorem room_step (connected : state.connected config action = true)
    (room : state.loop ≠ .running → state.pending ≤ OUTBOUND_BUFFER_SIZE)
    (stepped : state.step config action = some (next, events)) (ended : next.loop ≠ .running) :
    next.pending ≤ OUTBOUND_BUFFER_SIZE := by
  have less := (steps_of_step stepped).pending_le
  cases steps_of_step stepped with
  | registers found =>
    have free := (Bool.or_eq_true_iff.mp (Bool.and_eq_true_iff.mp connected).2).resolve_left
      fun runs => ended (of_decide_eq_true runs)
    refine (Nat.add_le_add_left Indexed.countP_set_le _).trans ?_
    rw [countP_dropSender]
    exact of_decide_eq_true free
  | handles runs handled =>
    refine (less nofun).trans ?_
    rcases Bool.or_eq_true_iff.mp connected with keeps | within
    · rw [handled] at keeps
      exact absurd (of_decide_eq_true keeps) ended
    · exact of_decide_eq_true within
  | ends => exact of_decide_eq_true connected
  | flags stopped | clearsSubscriptions stopped | clearsDispatcher stopped =>
    exact (less nofun).trans (room (by rw [stopped]; exact nofun))
  | calls found turn =>
    exact (less (by rintro _ rfl; cases turn)).trans (room ended)
  | _ => exact (less nofun).trans (room ended)

/-- Nothing is left: no call is registered and none has an empty channel, the channel to the loop
has room for the calls that have not sent their requests, there are no subscriptions and none is
open. -/
structure Released (state : MuxClient) : Prop where
  chans : state.messageDispatcher.chans = ∅
  calls : ∀ call ∈ state.calls, call.chan ≠ .empty
  room : state.pending ≤ OUTBOUND_BUFFER_SIZE
  subscriptions : state.subscriptions = ∅
  subs : ∀ sub ∈ state.subs, sub.isOpen = false

end MuxClient

/-- Once the callback of the io loop has finished, no call and no subscription is left, in every
run in which calls register and subscriptions are inserted only while the flag is unset, each
under an identifier of its own, and the channel to the loop has room for what is pending when the
loop ends. -/
theorem muxClient_disconnect_reaches_all {config : ClientConfig} {history : List ClientEvent}
    {state : MuxClient}
    (run : (clientMachine config).Run (fun state action => state.connected config action = true)
      history state)
    (finished : state.loop = .finished) : state.Released := by
  have invariant : MuxClient.Linked state.messageDispatcher.chans state.calls ∧
      MuxClient.Opened state.subscriptions state.subs ∧ state.Cleared ∧
      (state.loop ≠ .running → state.pending ≤ OUTBOUND_BUFFER_SIZE) := by
    refine run.invariant (fun _ state =>
      MuxClient.Linked state.messageDispatcher.chans state.calls ∧
      MuxClient.Opened state.subscriptions state.subs ∧ state.Cleared ∧
      (state.loop ≠ .running → state.pending ≤ OUTBOUND_BUFFER_SIZE)) ?_ ?_
    · exact ⟨.nil, .nil, .new, fun ended => absurd rfl ended⟩
    · intro _ _ _ _ _ ⟨linked, opened, cleared, room⟩ connected stepped
      have steps := MuxClient.steps_of_step stepped
      exact ⟨steps.linked linked, steps.opened connected opened,
        steps.cleared connected cleared, MuxClient.room_step connected room stepped⟩
  obtain ⟨linked, opened, cleared, room⟩ := invariant
  refine ⟨cleared.chans finished, fun call member empty => ?_, room (by rw [finished]; exact nofun),
    cleared.subscriptions (Or.inr finished), fun sub member => ?_⟩
  · rw [cleared.chans finished] at linked
    exact linked.not_live member empty
  · rw [cleared.subscriptions (Or.inr finished)] at opened
    exact Bool.eq_false_iff.mpr (opened.not_live member)

/-! ### A late registration -/

/-- A response with a subscription identifier. -/
def subscribed (id : RequestID) (subId : SubscriptionID) : Value :=
  (respond (some (.ofUInt32 id)) (.ok (.ofUInt32 subId))).toValue

def disconnects : List ClientAction :=
  [.loopEnds, .storeFlag, .clearSubscriptions, .clearDispatcher]

def sampleConfig : ClientConfig :=
  { timeout := none, subscriptionBufferSize := 2 }

/-- The phases of the calls, and which subscriptions are open. -/
def observedClient (reached : List ClientEvent × MuxClient) :
    LoopPhase × List CallPhase × List Bool :=
  (reached.2.loop, reached.2.calls.map Call.phase, reached.2.subs.map ClientSub.isOpen)

/-- A subscribing call has returned and another call waits; the callback closes both of their
channels. -/
theorem muxClient_disconnect_reaches_all_two :
    ∃ history state, (clientMachine sampleConfig).Run
        (fun state action => state.connected sampleConfig action = true) history state ∧
      state.calls.map Call.phase = [.returned, .waiting] ∧ state.loop = .finished ∧
      state.Released := by
  refine Machine.reach_run (fun history state =>
      observedClient (history, state) = (.finished, [.returned, .waiting], [false]))
    ([.request 7 "Sample.watch" .null .subscribe, .register 0, .send 0, .takeOutbound,
      .message (subscribed 7 5), .receive 0, .subscribe 0,
      .request 8 "Sample.echo" .null .call, .register 1, .send 1] ++ disconnects)
    ⟨_, rfl, rfl⟩ fun _ state run observed => ?_
  have finished : state.loop = .finished := congrArg Prod.fst observed
  exact ⟨congrArg (fun image => image.2.1) observed, finished,
    muxClient_disconnect_reaches_all run finished⟩

/-- As many calls as the numbers have registered, and all but the last have sent their requests. -/
def crowd (numbers : List RequestID) : List ClientAction :=
  numbers.map (.request · "Sample.echo" .null .call) ++
    (List.range numbers.length).map .register ++ (List.range (numbers.length - 1)).map .send

/-- The flag is tested before the callback, and the call registers after it: it waits for a
response that nobody will send. A subscribing call that has its response inserts its
subscription after the callback: it stays open. A call that registered in time waits for room in
the channel to the loop when the loop ends: it never sends its request. -/
theorem muxClient_left_waiting :
    (∃ history state, (clientMachine sampleConfig).Run (fun _ _ => True) history state ∧
      state.loop = .finished ∧ state.messageDispatcher.chans.lookup 7 = some 0 ∧
      ∃ call, state.calls = [call] ∧ call.phase = .waiting ∧ call.chan = .empty) ∧
    (∃ history state, (clientMachine sampleConfig).Run (fun _ _ => True) history state ∧
      state.loop = .finished ∧ state.subscriptions.lookup 5 = some 0 ∧
      ∃ sub, state.subs = [sub] ∧ sub.id = 5 ∧ sub.isOpen = true) ∧
    ∃ history state, (clientMachine sampleConfig).Run (fun _ _ => True) history state ∧
      state.loop = .finished ∧ state.calls[10]?.map Call.phase = some .registered ∧
      state.outbound.length = OUTBOUND_BUFFER_SIZE ∧
      state.step sampleConfig (.send 10) = none := by
  refine ⟨?_, ?_, ?_⟩
  · exact Machine.trace_holds
      ([.request 7 "Sample.echo" .null .call] ++ disconnects ++ [.register 0, .send 0])
      ⟨_, rfl, rfl, rfl, _, rfl, rfl, rfl⟩
  · exact Machine.trace_holds
      ([.request 7 "Sample.watch" .null .subscribe, .register 0, .send 0, .takeOutbound,
        .message (subscribed 7 5)] ++ disconnects ++ [.receive 0, .subscribe 0])
      ⟨_, rfl, rfl, rfl, _, rfl, rfl, rfl⟩
  · exact Machine.trace_holds (crowd (List.replicate 11 7) ++ disconnects)
      ⟨_, rfl, rfl, rfl, rfl, rfl⟩

end Karyon.Jsonrpc
