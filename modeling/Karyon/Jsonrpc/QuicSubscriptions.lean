/-
This file models the subscriptions of one QUIC client: `subscribe` of `client/quic_stream.rs` and
`Client::unsubscribe`, over the streams of the previous file.

The client keeps two maps from subscription identifiers: the senders of the unsubscribe requests,
and the subscriptions. `subscribe` inserts into the first when the answer comes and into the second
one step later. `unsubscribe` removes the sender and hands it the request, and then removes the
subscription and closes it.

The identifiers are chosen by the server, so two streams may have the same one. The second insert
then drops the sender of the first stream, whose task ends, and `unsubscribe` reaches the second
stream only. A request that waits may also be overtaken by a value that the closed subscription
refuses, and is then never sent (`quic_subscriptions_collide`). When every answer brings an
identifier that no subscription with a task and no unsubscribe call has, and no request is
overtaken, each stream takes its steps as if it were alone (`quic_subscriptions_independent`).
-/

import Karyon.Jsonrpc.QuicRouting

namespace Karyon.Jsonrpc

open Json Transition

/-! ### The client and its streams -/

/-- The sender in `unsubChans` is the only one of its stream. -/
structure QuicClient where
  unsubChans : HashMap SubscriptionID Nat
  subscriptions : HashMap SubscriptionID Nat
  streams : List QuicStream
  calls : List UnsubCall

inductive QuicAction where
  | subscribe (id : RequestID) (method : String) (params : Value)
  | receive (stream : Nat)
  | enter (stream : Nat)
  | abandon (stream : Nat)
  | unsubscribe (id : RequestID) (method : String) (subId : SubscriptionID)
  | close (call : Nat)
  | stream (stream : Nat) (action : StreamAction)

/-- The subscription of a call that was answered. -/
def Subscribing.subscription : Subscribing → Option Held
  | .held self => some self
  | _ => none

/-- The identifier in the answer that the subscribe call reads next. -/
def QuicStream.answered (self : QuicStream) : Option SubscriptionID :=
  match self.client, self.toClient with
  | .requested, msg :: _ => (subscriptionId msg).toOption
  | _, _ => none

/-- The request that `unsubscribe` hands over. -/
def unsubRequest (id : RequestID) (method : String) (subId : SubscriptionID) : Value :=
  (newRequest id method (.ofUInt32 subId)).toValue

namespace QuicClient

def new : QuicClient where
  unsubChans := ∅
  subscriptions := ∅
  streams := []
  calls := []

variable (size : Nat) (state : QuicClient)

def held (stream : Nat) : Option Held :=
  state.streams[stream]?.bind fun self => self.client.subscription

/-- A call of `unsubscribe` has looked for its sender. -/
def called (subId : SubscriptionID) (ch : Option Nat) : QuicClient :=
  { state with calls := state.calls ++ [{ subId, ch, returned := false }] }

def advance (stream : Nat) (action : StreamAction) : Option (QuicClient × List QuicEvent) :=
  match state.streams[stream]? with
  | some self =>
    (self.step size action).map fun reached =>
      ({ state with streams := state.streams.set stream reached.1 },
        reached.2.map (Prod.mk stream))
  | none => none

def step : QuicAction → Option (QuicClient × List QuicEvent)
  | .subscribe id method params =>
    some ({ state with
            streams := state.streams ++ [.opened (newRequest id method params).toValue] }, [])
  | .receive stream =>
    match state.streams[stream]?.bind QuicStream.answered with
    | some subId =>
      { state with unsubChans := state.unsubChans.insert subId stream }.advance size stream .receive
    | none => state.advance size stream .receive
  | .enter stream =>
    match state.held stream with
    | some self =>
      { state with
        subscriptions := state.subscriptions.insert self.sub.id stream }.advance size stream .spawn
    | none => none
  | .abandon stream =>
    match state.held stream with
    | some self =>
      if state.unsubChans.lookup self.sub.id = some stream then none
      else state.advance size stream .abandon
    | none => none
  | .unsubscribe id method subId =>
    match state.unsubChans.lookup subId with
    | some stream =>
      { state.called subId (some stream) with
        unsubChans := state.unsubChans.erase subId }.advance size stream
          (.hand (unsubRequest id method subId))
    | none => some (state.called subId none, [])
  | .close call =>
    match state.calls[call]? with
    | some self =>
      if self.returned then none
      else
        match state.subscriptions.lookup self.subId with
        | some stream =>
          { state with
            subscriptions := state.subscriptions.erase self.subId
            calls := state.calls.set call { self with returned := true } }.advance size stream
              .close
        | none =>
          some ({ state with calls := state.calls.set call { self with returned := true } }, [])
    | none => none
  | .stream stream action => if action.own then state.advance size stream action else none

end QuicClient

/-- A client whose subscriptions have buffers of this size, and the server at the other end of its
streams. -/
def quicMachine (size : Nat) : Machine QuicClient QuicAction QuicEvent where
  start := .new
  step := QuicClient.step size

/-! ### Steps of one stream -/

variable {self : QuicStream}

/-- What a stream does by itself leaves its subscription in place, and hands it no request. -/
theorem QuicStream.Effect.ages {size : Nat} {next : QuicStream} {action : StreamAction}
    {events : List StreamEvent} (effect : Effect size self action next events)
    (own : action.own = true) :
    Option.Rel Held.Ages self.client.subscription next.client.subscription ∧
      ∀ returned request, .handed returned request ∉ events := by
  have same {client : Subscribing} :
      Option.Rel Held.Ages client.subscription client.subscription := by
    cases client.subscription with
    | none => exact .none
    | some self => exact .some (.refl self)
  cases effect with
  | serves _ served =>
    rw [served.client]
    refine ⟨same, fun returned request member => ?_⟩
    obtain ⟨nt, ⟨⟩⟩ := served.quiet _ member
  | skips => exact ⟨same, fun _ _ => List.not_mem_nil⟩
  | delivers client =>
    rw [client]
    exact ⟨.some ⟨rfl, rfl, Or.inl ⟨rfl, rfl⟩⟩, fun _ _ => List.not_mem_nil⟩
  | receives client =>
    rw [client]
    refine ⟨.some ⟨rfl, rfl, Or.inl ⟨rfl, rfl⟩⟩, fun _ _ member => ?_⟩
    cases List.mem_singleton.mp member
  | refuses client | breaks client =>
    rw [client]
    refine ⟨.some ⟨rfl, rfl, Or.inr rfl⟩, fun _ _ member => ?_⟩
    cases List.mem_singleton.mp member
  | sends client =>
    rw [client]
    refine ⟨.some ⟨rfl, rfl, Or.inr rfl⟩, fun _ _ member => ?_⟩
    simp at member
  | fails client =>
    rw [client]
    exact ⟨.none, fun _ _ => List.not_mem_nil⟩
  | answers | spawns | hands | drops | closes | abandons => cases own

variable {subId : SubscriptionID}

theorem QuicStream.step_receive {size : Nat} (answered : self.answered = some subId) :
    self.client = .requested ∧
      ∃ rest, self.step size .receive =
        some ({ self with toClient := rest, client := .held (.ofAnswer subId) }, []) := by
  unfold QuicStream.answered at answered
  split at answered
  · rename_i msg rest client incoming
    refine ⟨client, rest, ?_⟩
    simp only [step, client, incoming]
    generalize subscriptionId msg = answer at answered
    cases answer with
    | error reason => cases answered
    | ok found =>
      cases answered
      rfl
  · cases answered

theorem QuicStream.step_receive_fails {size : Nat} {next : QuicStream} {events : List StreamEvent}
    (answered : self.answered = none) (stepped : self.step size .receive = some (next, events)) :
    self.client = .requested ∧ next.client = .failed ∧ events = [] := by
  simp only [step] at stepped
  split at stepped
  · rename_i msg rest client incoming
    simp only [QuicStream.answered, client, incoming] at answered
    split at stepped
    · rename_i subId answer
      rw [answer] at answered
      cases answered
    · cases stepped
      exact ⟨client, rfl, rfl⟩
  · cases stepped

/-! ### Streams that are alone -/

namespace QuicClient

/-- No subscription with a task and no call of `unsubscribe` under way has the identifier. -/
def fresh (state : QuicClient) (subId : SubscriptionID) : Bool :=
  (state.streams.all fun self =>
    match self.client with
    | .held held => held.task = .ended || held.sub.id ≠ subId
    | _ => true) &&
  state.calls.all fun call => call.returned || call.subId ≠ subId

/-- Every answer brings a fresh identifier, and no unsubscribe request is overtaken by a value that
its subscription refuses. -/
def permitted (size : Nat) (state : QuicClient) : QuicAction → Bool
  | .receive stream =>
    match state.streams[stream]?.bind QuicStream.answered with
    | some subId => state.fresh subId
    | none => true
  | .stream stream .read =>
    match state.streams[stream]? with
    | some self => self.requestPasses size
    | none => true
  | _ => true

variable {size : Nat} {state next : QuicClient} {stream : Nat} {action : StreamAction}
  {history events : List QuicEvent}

theorem held_eq_some {held : Held} :
    state.held stream = some held ↔
      ∃ self, state.streams[stream]? = some self ∧ self.client = .held held := by
  simp only [QuicClient.held, Option.bind_eq_some_iff]
  refine exists_congr fun self => and_congr_right fun _ => ?_
  cases self.client <;> simp [Subscribing.subscription]

variable {after : QuicStream}

theorem held_set (found : state.streams[stream]? = some self)
    (changed : next.streams = state.streams.set stream after) :
    next.held = Function.update state.held stream after.client.subscription := by
  funext other
  rw [Function.update_apply]
  split
  · rename_i same
    have inside := (List.getElem?_eq_some_iff.mp found).1
    simp only [QuicClient.held, changed, same, List.getElem?_set_self inside, Option.bind_some]
  · rename_i different
    simp only [QuicClient.held, changed, List.getElem?_set_ne (Ne.symm different)]

theorem fresh_spec (fresh : state.fresh subId = true) :
    (∀ other self, state.held other = some self → self.task ≠ .ended → self.sub.id ≠ subId) ∧
      ∀ call ∈ state.calls, call.returned = false → call.subId ≠ subId := by
  simp only [QuicClient.fresh, Bool.and_eq_true, List.all_eq_true, Bool.or_eq_true,
    decide_eq_true_eq] at fresh
  constructor
  · intro other self found reading
    obtain ⟨its, there, client⟩ := held_eq_some.mp found
    have free := fresh.1 its (List.mem_of_getElem? there)
    rw [client] at free
    simpa [reading] using free
  · intro call member waits
    exact (fresh.2 call member).resolve_left (by rw [waits]; exact Bool.false_ne_true)

theorem advance_eq_some (taken : state.advance size stream action = some (next, events)) :
    ∃ self after local', state.streams[stream]? = some self ∧
      self.step size action = some (after, local') ∧
      next = { state with streams := state.streams.set stream after } ∧
      events = local'.map (Prod.mk stream) := by
  unfold advance at taken
  split at taken
  · rename_i self found
    obtain ⟨⟨after, own⟩, stepped, ⟨⟩⟩ := Option.map_eq_some_iff.mp taken
    exact ⟨self, after, own, found, stepped, rfl, rfl⟩
  · cases taken

/-- Every stream is in a run of its own in which its request is not overtaken, and the maps and the
calls agree with the subscriptions. -/
structure Apart (size : Nat) (history : List QuicEvent) (state : QuicClient) : Prop where
  runs : ∀ stream self, state.streams[stream]? = some self → ∃ request,
    (streamMachine size request).Run (fun self action => self.permitted size action = true)
      (eventsOf stream history) self
  unopened : ∀ stream, state.streams.length ≤ stream → eventsOf stream history = []
  routed : Routed history state.unsubChans state.subscriptions state.calls state.held

namespace Apart

theorem start : Apart size [] .new where
  runs _ _ found := by cases found
  unopened _ _ := rfl
  routed := .start

section

variable (apart : Apart size history state)

include apart

theorem sound (found : state.streams[stream]? = some self) :
    QuicStream.Sound (eventsOf stream history) self := by
  obtain ⟨request, run⟩ := apart.runs stream self found
  exact QuicStream.sound_of_run run

theorem opened {event : StreamEvent}
    (member : (stream, event) ∈ history) : ∃ self, state.streams[stream]? = some self := by
  by_contra absent
  have outside : state.streams.length ≤ stream :=
    Nat.le_of_not_lt fun inside => absent ⟨_, List.getElem?_eq_getElem inside⟩
  rw [← mem_eventsOf, apart.unopened stream outside] at member
  exact List.not_mem_nil member

variable {own : List StreamEvent}

theorem steps {unsubChans subscriptions : HashMap SubscriptionID Nat} {calls : List UnsubCall}
    (found : state.streams[stream]? = some self) (allowed : self.permitted size action = true)
    (stepped : self.step size action = some (after, own))
    (routed : Routed (history ++ own.map (Prod.mk stream)) unsubChans subscriptions calls
      (Function.update state.held stream after.client.subscription)) :
    Apart size (history ++ own.map (Prod.mk stream))
      { unsubChans, subscriptions, calls, streams := state.streams.set stream after } where
  runs other its there := by
    rw [eventsOf_append]
    rcases (Indexed.set_eq_some found).mp there with ⟨rfl, rfl⟩ | ⟨different, there⟩
    · obtain ⟨request, run⟩ := apart.runs other self found
      rw [eventsOf_own]
      exact ⟨request, run.step allowed stepped⟩
    · rw [eventsOf_other different, List.append_nil]
      exact apart.runs other its there
  unopened other outside := by
    rw [List.length_set] at outside
    have different : other ≠ stream := by
      rintro rfl
      rw [List.getElem?_eq_none outside] at found
      cases found
    rw [eventsOf_append, eventsOf_other different, List.append_nil]
    exact apart.unopened other outside
  routed := by
    rw [held_set found rfl]
    exact routed

theorem subscribes (request : Value) :
    Apart size history { state with streams := state.streams ++ [.opened request] } where
  runs other its there := by
    rcases Indexed.concat_eq_some.mp there with earlier | ⟨rfl, rfl⟩
    · exact apart.runs other its earlier
    · rw [apart.unopened _ (Nat.le_refl _)]
      exact ⟨request, .start⟩
  unopened other outside := by
    rw [List.length_append] at outside
    exact apart.unopened other (Nat.le_of_add_right_le outside)
  routed := by
    have same : ({ state with streams := state.streams ++ [.opened request] } : QuicClient).held =
        state.held := by
      funext other
      simp only [QuicClient.held]
      by_cases inside : other < state.streams.length
      · rw [List.getElem?_append_left inside]
      · have outside := Nat.le_of_not_lt inside
        rw [List.getElem?_append_right outside, List.getElem?_eq_none outside]
        cases (other - state.streams.length) <;> rfl
    rw [same]
    exact apart.routed

/-- A stream of which the maps do not know takes a step. -/
theorem ages (found : state.streams[stream]? = some self)
    (allowed : self.permitted size action = true)
    (stepped : self.step size action = some (after, own))
    (aged : Option.Rel Held.Ages self.client.subscription after.client.subscription)
    (unhanded : ∀ returned request, .handed returned request ∉ own) :
    Apart size (history ++ own.map (Prod.mk stream))
      { state with streams := state.streams.set stream after } := by
  refine apart.steps found allowed stepped (apart.routed.ages ?_ fun other => ?_)
  · intro other returned request
    refine List.mem_append.trans ⟨fun either => either.resolve_right fun new => ?_, Or.inl⟩
    obtain ⟨event, member, ⟨⟩⟩ := List.mem_map.mp new
    exact unhanded returned request member
  · rw [Function.update_apply]
    split
    · rename_i same
      simp only [same, QuicClient.held, found, Option.bind_some]
      exact aged
    · cases state.held other with
      | none => exact .none
      | some self => exact .some (.refl self)

theorem receives (allowed : state.permitted size (.receive stream) = true)
    (taken : state.step size (.receive stream) = some (next, events)) :
    Apart size (history ++ events) next := by
  simp only [step] at taken
  simp only [permitted] at allowed
  split at taken
  · rename_i subId answered
    rw [answered] at allowed
    obtain ⟨fresh, free⟩ := fresh_spec allowed
    obtain ⟨self, after, own, found, stepped, rfl, rfl⟩ := advance_eq_some taken
    replace answered : self.answered = some subId := by
      simpa only [found, Option.bind_some] using answered
    obtain ⟨client, rest, same⟩ := QuicStream.step_receive answered
    cases same.symm.trans stepped
    refine apart.steps found rfl stepped ?_
    rw [List.map_nil, List.append_nil]
    refine apart.routed.receives ?_ (fun returned request member => ?_) fresh free
    · simp only [QuicClient.held, found, Option.bind_some, client, Subscribing.subscription]
    · obtain ⟨held, its, _⟩ :=
        (apart.sound found).requests.handed returned request (mem_eventsOf.mpr member)
      cases client.symm.trans its
  · rename_i answered
    obtain ⟨self, after, own, found, stepped, rfl, rfl⟩ := advance_eq_some taken
    replace answered : self.answered = none := by
      simpa only [found, Option.bind_some] using answered
    obtain ⟨client, failed, rfl⟩ := QuicStream.step_receive_fails answered stepped
    refine apart.ages found rfl stepped ?_ fun _ _ => List.not_mem_nil
    rw [client, failed]
    exact .none

theorem enters (taken : state.step size (.enter stream) = some (next, events)) :
    Apart size (history ++ events) next := by
  simp only [step] at taken
  split at taken
  · rename_i held found
    obtain ⟨self, after, own, there, stepped, rfl, rfl⟩ := advance_eq_some taken
    obtain ⟨_, its, client⟩ := held_eq_some.mp found
    cases there.symm.trans its
    refine apart.steps there rfl stepped ?_
    cases QuicStream.step_effect stepped with
    | serves own => cases own
    | fails requested => cases client.symm.trans requested
    | spawns same spawning =>
      cases client.symm.trans same
      rw [List.map_nil, List.append_nil]
      exact apart.routed.enters found spawning
  · cases taken

/-- The sender of a task that waits for it is in the map. -/
theorem not_abandoned :
    state.step size (.abandon stream) = none := by
  simp only [step]
  split
  · rename_i held found
    split
    · rfl
    · rename_i dropped
      obtain ⟨self, there, client⟩ := held_eq_some.mp found
      simp only [advance, there, QuicStream.step, client]
      rw [if_neg]
      · rfl
      · rintro ⟨running, empty⟩
        refine dropped (apart.routed.senders stream held found ?_ ?_)
        · rw [running]
          rintro ⟨⟩
        · exact Option.isNone_iff_eq_none.mp empty
  · rfl

theorem unhanded {held : Held} (found : state.held stream = some held)
    (unhanded : ∀ returned request, (stream, .handed returned request) ∉ history) :
    held.unsubRx = none := by
  obtain ⟨self, there, client⟩ := held_eq_some.mp found
  refine Option.eq_none_iff_forall_ne_some.mpr fun request waits => ?_
  obtain ⟨returned, member⟩ := (apart.sound there).requests.waiting held request client waits
  exact unhanded returned request (mem_eventsOf.mp member)

theorem unsubscribes {id : RequestID} {method : String}
    (taken : state.step size (.unsubscribe id method subId) = some (next, events)) :
    Apart size (history ++ events) next := by
  have routed := apart.routed
  simp only [step] at taken
  split at taken
  · rename_i stream sender
    obtain ⟨named, unhanded⟩ := routed.unused subId stream sender
    obtain ⟨held, there, id⟩ := idAt_eq_some.mp named
    obtain ⟨self, after, own, found, stepped, rfl, rfl⟩ := advance_eq_some taken
    obtain ⟨_, its, client⟩ := held_eq_some.mp there
    cases found.symm.trans its
    refine apart.steps found rfl stepped ?_
    cases QuicStream.step_effect stepped with
    | serves own => cases own
    | fails requested => cases client.symm.trans requested
    | hands same reading =>
      cases client.symm.trans same
      refine (routed.hands sender there).calls_concat (AList.lookup_erase ..) ?_ ?_
      · rintro _ ⟨⟩
        exact idAt_eq_some.mpr ⟨_, Function.update_self .., id⟩
      · rintro _ ⟨⟩ ⟨request, member⟩
        have running : held.task = .running := by
          rcases mem_concat.mp member with earlier | new
          · exact absurd earlier (unhanded true request)
          · have event := congrArg Prod.snd new
            exact of_decide_eq_true (StreamEvent.handed.inj event).1.symm
        have live : held.Live := ⟨running, apart.unhanded there unhanded⟩
        refine ⟨id ▸ routed.entered stream held there live, fun other entry updated same => ?_⟩
        rcases update_eq_some.mp updated with ⟨_, rfl⟩ | ⟨different, others⟩
        · rw [running]
          rintro ⟨⟩
        · intro spawning
          refine different (routed.unique other stream entry held others there ?_ reading ?_)
          · rw [spawning]
            rintro ⟨⟩
          · rw [same, id]
    | drops same ended =>
      cases client.symm.trans same
      have unchanged : Function.update state.held stream self.client.subscription = state.held := by
        rw [client, Subscribing.subscription, ← there, Function.update_eq_self]
      rw [List.map_nil, List.append_nil, unchanged]
      have forgotten := routed.forgets sender there fun _ => ended
      refine forgotten.calls_concat (AList.lookup_erase ..) ?_ ?_
      · rintro _ ⟨⟩
        exact named
      · rintro _ ⟨⟩ ⟨request, member⟩
        exact absurd member (unhanded true request)
  · rename_i absent
    cases taken
    rw [List.append_nil]
    refine ⟨apart.runs, apart.unopened, routed.calls_concat absent ?_ ?_⟩
    · rintro _ ⟨⟩
    · rintro _ ⟨⟩

theorem closes {call : Nat} (taken : state.step size (.close call) = some (next, events)) :
    Apart size (history ++ events) next := by
  have routed := apart.routed
  simp only [step] at taken
  split at taken
  · rename_i self found
    obtain ⟨unreturned, taken⟩ := Option.ite_none_left_eq_some.mp taken
    have waits := Bool.eq_false_iff.mpr unreturned
    split at taken
    · rename_i stream entry
      obtain ⟨held, there, named⟩ :=
        idAt_eq_some.mp (routed.entries self.subId stream entry)
      obtain ⟨its, after, own, place, stepped, rfl, rfl⟩ := advance_eq_some taken
      obtain ⟨_, same, client⟩ := held_eq_some.mp there
      cases place.symm.trans same
      have allowed : its.permitted size .close = true := by
        simp only [QuicStream.permitted, client, Bool.or_eq_true, decide_eq_true_eq]
        exact (routed.pending self (List.mem_of_getElem? found) waits stream held there
          named).symm
      refine apart.steps place allowed stepped ?_
      cases QuicStream.step_effect stepped with
      | serves own => cases own
      | fails requested => cases client.symm.trans requested
      | closes same =>
        cases client.symm.trans same
        rw [List.map_nil, List.append_nil]
        exact routed.closes found waits entry there
    · rename_i absent
      cases taken
      rw [List.append_nil]
      exact ⟨apart.runs, apart.unopened, routed.returns found absent⟩
  · cases taken

theorem streams (allowed : state.permitted size (.stream stream action) = true)
    (taken : state.step size (.stream stream action) = some (next, events)) :
    Apart size (history ++ events) next := by
  obtain ⟨own, taken⟩ := Option.ite_none_right_eq_some.mp taken
  obtain ⟨self, after, local', found, stepped, rfl, rfl⟩ := advance_eq_some taken
  have permitted : self.permitted size action = true := by
    cases action with
    | read =>
      simp only [QuicClient.permitted, found] at allowed
      exact allowed
    | receive | spawn | hand | close | abandon => cases own
    | _ => rfl
  obtain ⟨aged, unhanded⟩ := (QuicStream.step_effect stepped).ages own
  exact apart.ages found permitted stepped aged unhanded

theorem step {action : QuicAction} (allowed : state.permitted size action = true)
    (taken : state.step size action = some (next, events)) :
    Apart size (history ++ events) next := by
  cases action with
  | subscribe id method params =>
    cases taken
    rw [List.append_nil]
    exact apart.subscribes _
  | receive stream => exact apart.receives allowed taken
  | enter stream => exact apart.enters taken
  | abandon stream =>
    rw [apart.not_abandoned] at taken
    cases taken
  | unsubscribe id method subId => exact apart.unsubscribes taken
  | close call => exact apart.closes taken
  | stream stream action => exact apart.streams allowed taken

end

end Apart

/-! ### Independence -/

/-- The subscriptions of a client do not depend on each other.

`unsubscribes`: a call about a live subscription hands its request to the task of that
subscription's own stream, and leaves all other streams as they are. `sends`: a request that was
handed to a task waits for it or was sent on its stream, unless the stream failed. `own`: a stream
sends nothing else. `closes`: when the call has returned, the subscription is closed. `isOpen`: a
live subscription is not closed by anybody. `ends`: a task ends because its stream failed, its
buffer was full, or it has sent its request. `delivers`: what was notified on a stream was received,
is buffered or is on its way, in the order of the notifications. -/
structure Independent (size : Nat) (history : List QuicEvent) (state : QuicClient) : Prop where
  unsubscribes : ∀ stream self held, state.streams[stream]? = some self →
    self.client = .held held → held.Live → ∀ id method,
      state.step size (.unsubscribe id method held.sub.id) =
        some ({ state.called held.sub.id (some stream) with
                unsubChans := state.unsubChans.erase held.sub.id
                streams := state.streams.set stream
                  { self with
                    client := .held
                      { held with unsubRx := some (unsubRequest id method held.sub.id) } } },
          [(stream, .handed true (unsubRequest id method held.sub.id))])
  sends : ∀ stream returned request, (stream, .handed returned request) ∈ history →
    (stream, .sent request) ∈ history ∨ (stream, .ended .failed) ∈ history ∨
      ∃ held, state.held stream = some held ∧ held.task ≠ .ended ∧ held.unsubRx = some request
  own : ∀ stream request, (stream, .sent request) ∈ history →
    ∃ returned, (stream, .handed returned request) ∈ history
  closes : ∀ call ∈ state.calls, call.returned = true → ∀ stream held, call.ch = some stream →
    state.held stream = some held → (∃ request, (stream, .handed true request) ∈ history) →
    held.sub.isOpen = false
  isOpen : ∀ stream held, state.held stream = some held → held.Live → held.sub.isOpen = true
  ends : ∀ stream held, state.held stream = some held → held.task = .ended →
    (stream, .ended .failed) ∈ history ∨ (stream, .ended .full) ∈ history ∨
      ∃ request, (stream, .sent request) ∈ history
  delivers : ∀ stream self held, state.streams[stream]? = some self → self.client = .held held →
    held.task ≠ .ended → self.serving ≠ .finished →
    receivedValues (eventsOf stream history) ++ held.sub.buffer ++ self.unread =
      notifiedValues (eventsOf stream history)

theorem Apart.independent (apart : Apart size history state) :
    Independent size history state := by
  have requests {stream : Nat} {self : QuicStream} (found : state.streams[stream]? = some self) :=
    (apart.sound found).requests
  constructor
  case unsubscribes =>
    intro stream self held found client live id method
    have there := held_eq_some.mpr ⟨self, found, client⟩
    have reading : held.task ≠ .ended := by
      rw [live.running]
      rintro ⟨⟩
    have sender := apart.routed.senders stream held there reading live.unsubRx
    simp only [QuicClient.step, sender, advance, called, found, QuicStream.step, client,
      live.unsubRx, live.running]
    rfl
  case sends =>
    intro stream returned request member
    obtain ⟨self, found⟩ := apart.opened member
    obtain ⟨held, client, _, ⟨reading, waits⟩ | ⟨_, sent | failed⟩⟩ :=
      (requests found).handed returned request (mem_eventsOf.mpr member)
    · exact Or.inr (Or.inr ⟨held, held_eq_some.mpr ⟨self, found, client⟩, reading, waits⟩)
    · exact Or.inl (mem_eventsOf.mp sent)
    · exact Or.inr (Or.inl (mem_eventsOf.mp failed))
  case own =>
    intro stream request member
    obtain ⟨self, found⟩ := apart.opened member
    exact ((requests found).sent request (mem_eventsOf.mpr member)).imp fun _ => mem_eventsOf.mp
  case closes =>
    intro call member returned stream held ch there handed
    rcases apart.routed.closing call member stream held ch there handed with closed | ⟨waits, _⟩
    · exact closed
    · cases returned.symm.trans waits
  case isOpen =>
    intro stream held there live
    obtain ⟨self, found, client⟩ := held_eq_some.mp there
    refine Bool.of_not_eq_false fun closed => ?_
    rcases (requests found).closed held client closed with ended | waits
    · cases live.running.symm.trans ended
    · rw [live.unsubRx] at waits
      cases waits
  case ends =>
    intro stream held there ended
    obtain ⟨self, found, client⟩ := held_eq_some.mp there
    exact ((requests found).ended held client ended).imp mem_eventsOf.mp
      (Or.imp mem_eventsOf.mp (Exists.imp fun _ => mem_eventsOf.mp))
  case delivers =>
    intro stream self held found client reading serving
    exact (apart.sound found).carried.held client serving reading

end QuicClient

/-- The subscriptions of a QUIC client are independent in every run in which every answer brings a
fresh identifier and no unsubscribe request is overtaken. -/
theorem quic_subscriptions_independent {size : Nat} {history : List QuicEvent} {state : QuicClient}
    (run : (quicMachine size).Run (fun state action => state.permitted size action = true)
      history state) : QuicClient.Independent size history state := by
  have apart : QuicClient.Apart size history state :=
    run.invariant (QuicClient.Apart size) .start
      fun _ _ _ _ _ apart allowed taken => apart.step allowed taken
  exact apart.independent

/-! ### Two subscriptions -/

/-- The server answers the request of a stream with a subscription of this identifier, and the
client enters it. -/
def answering (stream : Nat) (subId : SubscriptionID) : List QuicAction :=
  [.subscribe 1 "Sample.subscribe" .null, .stream stream (.accept true),
    .stream stream (.newSubscription subId), .stream stream (.answer (.ok (.ofUInt32 subId))),
    .receive stream, .enter stream]

/-- A value is notified on a stream and written to it. -/
def notifying (stream : Nat) (subId : SubscriptionID) : List QuicAction :=
  [.stream stream (.notify { subId, result := .bool true, method := "Sample.subscribe" }),
    .stream stream .writeNotification]

/-- The client unsubscribes from the first of two subscriptions, and the second still gets its
value. -/
theorem quic_subscriptions_independent_two :
    ∃ (history : List QuicEvent) (state : QuicClient),
      (quicMachine 8).Run (fun state action => state.permitted 8 action = true) history state ∧
      (0, .sent (unsubRequest 3 "Sample.unsubscribe" 7)) ∈ history ∧
      receivedValues (eventsOf 1 history) = [.bool true] ∧
      QuicClient.Independent 8 history state := by
  refine Machine.reach_run (fun history _ =>
      eventsOf 0 history = [.handed true (unsubRequest 3 "Sample.unsubscribe" 7),
        .sent (unsubRequest 3 "Sample.unsubscribe" 7), .ended .unsubscribed] ∧
      receivedValues (eventsOf 1 history) = [.bool true])
    (answering 0 7 ++ answering 1 8 ++
      [.unsubscribe 3 "Sample.unsubscribe" 7, .close 0, .stream 0 .takeRequest] ++
      notifying 1 8 ++ [.stream 1 .read, .stream 1 .recv]) ⟨_, rfl, rfl, rfl⟩
    fun history _ run ⟨first, second⟩ => ⟨?_, second, quic_subscriptions_independent run⟩
  rw [← mem_eventsOf, first]
  exact List.mem_cons_of_mem _ List.mem_cons_self

/-- Two subscriptions with the identifier 7: the task of the first ends as soon as the second is
answered, and the unsubscribe request reaches the second. A single subscription: the request waits
while a value is read, which the closed subscription refuses, and is never sent. -/
theorem quic_subscriptions_collide :
    (∃ (history : List QuicEvent) (state : QuicClient),
      (quicMachine 8).Run (fun _ _ => True) history state ∧
      eventsOf 0 history = [.ended .abandoned] ∧
      eventsOf 1 history = [.handed true (unsubRequest 3 "Sample.unsubscribe" 7)] ∧
      (state.held 0).map (fun held => (held.sub.id, held.sub.isOpen)) = some (7, true)) ∧
    ∃ (history : List QuicEvent) (state : QuicClient),
      (quicMachine 8).Run (fun _ _ => True) history state ∧
      eventsOf 0 history =
        [.notified { subId := 7, result := .bool true, method := "Sample.subscribe" },
          .handed true (unsubRequest 3 "Sample.unsubscribe" 7), .ended .closed] ∧
      (state.held 0).map Held.task = some .ended := by
  constructor
  · exact Machine.trace_holds (answering 0 7 ++ answering 1 7 ++
      [.abandon 0, .unsubscribe 3 "Sample.unsubscribe" 7, .close 0]) ⟨_, rfl, rfl, rfl, rfl⟩
  · exact Machine.trace_holds (answering 0 7 ++ notifying 0 7 ++
      [.unsubscribe 3 "Sample.unsubscribe" 7, .close 0, .stream 0 .read]) ⟨_, rfl, rfl, rfl⟩

end Karyon.Jsonrpc
