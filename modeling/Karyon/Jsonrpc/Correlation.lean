/-
This file is about the way of a response on a multiplexed client, from the read of the io loop to
the call that it is for.

The loop reads a message, takes the sender of its identifier out of the dispatcher, and sends the
response on the channel of the call, which has room for one. These are three steps here, as the
calls register, time out, unregister and return between them; the steps of the calls are those of
the client.

A response may be read before a call registers its identifier and dispatched after that
(`mux_response_read_early`). Otherwise the calls are kept apart, when their identifiers are
distinct: a call returns only a response with its own identifier that was dispatched after its
registration, no response goes to two calls, the loop never waits on a channel, and when all calls
have returned the dispatcher is empty (`mux_calls_correlated`).
-/

import Karyon.Jsonrpc.MuxClient

namespace Karyon.Jsonrpc

open Json Transition

/-! ### The io loop in three steps -/

/-- What the io loop has in hand: nothing, a message that it has read, or a response and the sender
of the call that it is for. The messages are numbered in the order of the reads. -/
inductive Hand where
  | empty
  | read (number : Nat) (msg : Value)
  | dispatching (number call : Nat) (res : Message.Response)

structure MuxLoop where
  client : MuxClient
  hand : Hand
  reads : Nat

inductive LoopAction where
  | read (msg : Value)
  | handle
  | deliver
  | client (action : ClientAction)

inductive LoopEvent where
  | registered (call : Nat)
  | read (number : Nat) (msg : Value)
  | dispatched (number call : Nat)
  | delivered (number call : Nat) (res : Message.Response)
  | returned (call : Nat) (res : Message.Response)

namespace MuxLoop

def new : MuxLoop where
  client := .new
  hand := .empty
  reads := 0

variable (config : ClientConfig) (state : MuxLoop)

/-- A call takes a step of its own, or the callback of the loop does. -/
def run (action : ClientAction) (events : List LoopEvent) : Option (MuxLoop × List LoopEvent) :=
  (state.client.step config action).map fun reached =>
    ({ state with client := reached.1 }, events)

/-- The response that a call returns when it receives from its channel. -/
def returning (call : Nat) : List LoopEvent :=
  match state.client.calls[call]? with
  | some self =>
    match self.chan with
    | .filled res =>
      match checkResponseId self.id res with
      | .ok res => [.returned call res]
      | .error _ => []
    | _ => []
  | none => []

def dropHand : MuxLoop :=
  match state.hand with
  | .dispatching _ call _ =>
    { state with
      client := { state.client with calls := state.client.calls.modify call Call.close }
      hand := .empty }
  | _ => { state with hand := .empty }

/-- The loop reads and writes only with an empty hand, and it sends a response only when there is
room for it. -/
def step : LoopAction → Option (MuxLoop × List LoopEvent)
  | .read msg =>
    match state.client.loop, state.hand with
    | .running, .empty =>
      some ({ state with hand := .read state.reads msg, reads := state.reads + 1 },
        [.read state.reads msg])
    | _, _ => none
  | .handle =>
    match state.hand with
    | .read number msg =>
      match NewMsg.fromValue msg with
      | some (.response res) =>
        match state.client.messageDispatcher.dispatch res with
        | .ok (call, messageDispatcher) =>
          some ({ state with
                  client := { state.client with messageDispatcher }
                  hand := .dispatching number call res },
            [.dispatched number call])
        | .error _ => some ({ state with hand := .empty }, [])
      | _ =>
        some ({ state with client := (state.client.handleMessage config msg).1, hand := .empty },
          [])
    | _ => none
  | .deliver =>
    match state.hand with
    | .dispatching number call res =>
      match state.client.calls[call]? with
      | some self =>
        match self.chan with
        | .filled _ => none
        | .empty =>
          some ({ state with
                  client :=
                    { state.client with calls := state.client.calls.set call (self.fill res) }
                  hand := .empty },
            [.delivered number call res])
        | _ => some ({ state with hand := .empty }, [])
      | none => some ({ state with hand := .empty }, [])
    | _ => none
  | .client (.message _) => none
  | .client .takeOutbound =>
    match state.hand with
    | .empty => state.run config .takeOutbound []
    | _ => none
  | .client .loopEnds => state.dropHand.run config .loopEnds []
  | .client (.register call) => state.run config (.register call) [.registered call]
  | .client (.receive call) => state.run config (.receive call) (state.returning call)
  | .client action => state.run config action []

end MuxLoop

/-- A multiplexed client whose io loop reads, dispatches and delivers in separate steps. -/
def loopMachine (config : ClientConfig) : Machine MuxLoop LoopAction LoopEvent where
  start := .new
  step := MuxLoop.step config

/-- Every call draws an identifier that no other call has. -/
def MuxLoop.distinctIds (state : MuxLoop) : LoopAction → Bool
  | .client (.request id _ _ _) => state.client.calls.all fun call => call.id ≠ id
  | _ => true

/-! ### What a step does to the calls -/

/-- A call between its registration and its return is one whose sender may be registered. -/
def CallPhase.isRegistered : CallPhase → Bool
  | .registered | .waiting | .failing => true
  | _ => false

theorem Call.isRegistered_next (self : Call) (res : Message.Response) :
    (self.next res).isRegistered = false ∧ self.next res ≠ .checked := by
  unfold Call.next
  split
  · exact ⟨rfl, by decide⟩
  · exact ⟨rfl, by decide⟩
  · split
    · exact ⟨rfl, by rintro ⟨⟩⟩
    · exact ⟨rfl, by decide⟩
  · exact ⟨rfl, by rintro ⟨⟩⟩

namespace MuxClient

/-- The dispatcher and the calls after a step of the client. -/
inductive CallEffect (state : MuxClient) :
    ClientAction → HashMap RequestID Nat → List Call → Prop
  | same {action : ClientAction} :
      CallEffect state action state.messageDispatcher.chans state.calls
  | requests {id : RequestID} {method : String} {params : Value} {kind : CallKind} :
      CallEffect state (.request id method params kind) state.messageDispatcher.chans
        (state.calls ++ [{ id, method, params, kind, phase := .checked, chan := .unmade }])
  | registers {call : Nat} {self : Call} (found : state.calls[call]? = some self)
      (checked : self.phase = .checked) :
      CallEffect state (.register call) (state.messageDispatcher.chans.insert self.id call)
        ((state.dropSender self.id).set call { self with phase := .registered, chan := .empty })
  | moves {action : ClientAction} {call : Nat} {self : Call} {phase : CallPhase}
      (found : state.calls[call]? = some self) (before : self.phase ≠ .checked)
      (after : phase ≠ .checked) (registered : phase.isRegistered = self.phase.isRegistered) :
      CallEffect state action state.messageDispatcher.chans
        (state.calls.set call { self with phase })
  | receives {call : Nat} {self : Call} {res : Message.Response}
      (found : state.calls[call]? = some self) (waiting : self.phase = .waiting)
      (filled : self.chan = .filled res) :
      CallEffect state (.receive call) state.messageDispatcher.chans
        (state.calls.set call { self with phase := self.next res })
  | unregisters {call : Nat} {self : Call} (found : state.calls[call]? = some self)
      (failing : self.phase = .failing) :
      CallEffect state (.unregister call) (state.messageDispatcher.chans.erase self.id)
        ((state.dropSender self.id).set call { self with phase := .returned, chan := .closed })
  | clears :
      CallEffect state .clearDispatcher ∅
        (state.calls.mapIdx fun call self =>
          if call ∈ state.messageDispatcher.chans.entries.map Sigma.snd then self.close else self)

theorem step_calls {config : ClientConfig} {state next : MuxClient} {action : ClientAction}
    {events : List ClientEvent} (other : ∀ msg, action ≠ .message msg)
    (stepped : state.step config action = some (next, events)) :
    CallEffect state action next.messageDispatcher.chans next.calls := by
  cases steps_of_step stepped with
  | handles runs handled => exact absurd rfl (other _)
  | requests connected => exact .requests
  | registers found checked => exact .registers found checked
  | calls found turn =>
    cases turn with
    | receives waiting filled => exact .receives found waiting filled
    | sends phase | fails phase | timesOut phase =>
      refine .moves found ?_ (by decide) ?_ <;> rw [phase]
      · decide
      · rfl
  | unregisters found failing => exact .unregisters found failing
  | subscribes found phase | unsubscribes found phase =>
    refine .moves found ?_ (by decide) ?_ <;> rw [phase]
    · rintro ⟨⟩
    · rfl
  | clearsDispatcher cleared => exact .clears
  | _ => exact .same

end MuxClient

/-! ### Calls with identifiers of their own -/

/-- What the events before an event must have. -/
def LoopEvent.Follows (before : List LoopEvent) : LoopEvent → Prop
  | .registered _ | .read _ _ => True
  | .dispatched _ call => .registered call ∈ before
  | .delivered number call res => .dispatched number call ∈ before ∧
      ∃ msg, .read number msg ∈ before ∧ NewMsg.fromValue msg = some (.response res)
  | .returned call res => ∃ number, .delivered number call res ∈ before

/-- The dispatcher and the calls: the identifiers are distinct, an entry is that of a call which
waits for its response, and a call that has not registered has no channel. -/
structure Matched (chans : HashMap RequestID Nat) (calls : List Call) : Prop where
  distinct : ∀ (first second : Nat) (self other : Call), calls[first]? = some self →
    calls[second]? = some other → self.id = other.id → first = second
  entries : ∀ id call, chans.lookup id = some call → ∃ self, calls[call]? = some self ∧
    self.id = id ∧ self.chan = .empty ∧ self.phase.isRegistered = true
  unmade : ∀ self ∈ calls, self.phase = .checked → self.chan = .unmade

namespace Matched

variable {chans : HashMap RequestID Nat} {calls : List Call} {call : Nat} {self after : Call}

theorem start : Matched ∅ [] where
  distinct _ _ _ _ found := by cases found
  entries _ _ found := by cases found
  unmade _ member := absurd member List.not_mem_nil

section

variable (matched : Matched chans calls)

include matched

theorem concat (fresh : ∀ other ∈ calls, other.id ≠ self.id) (unmade : self.chan = .unmade) :
    Matched chans (calls ++ [self]) where
  distinct first second one another found its same := by
    rcases Indexed.concat_eq_some.mp found with earlier | ⟨rfl, rfl⟩ <;>
      rcases Indexed.concat_eq_some.mp its with before | ⟨rfl, rfl⟩
    · exact matched.distinct first second one another earlier before same
    · exact absurd same (fresh one (List.mem_of_getElem? earlier))
    · exact absurd same.symm (fresh another (List.mem_of_getElem? before))
    · rfl
  entries id call registered := by
    obtain ⟨entry, its, promised⟩ := matched.entries id call registered
    exact ⟨entry, Indexed.concat_eq_some.mpr (Or.inl its), promised⟩
  unmade entry member checked := by
    rcases mem_concat.mp member with earlier | rfl
    · exact matched.unmade entry earlier checked
    · exact unmade

theorem erase (id : RequestID) : Matched (chans.erase id) calls := by
  refine { matched with entries := fun other call registered => ?_ }
  exact matched.entries other call (HashMap.lookup_erase_eq_some.mp registered).2

variable (found : calls[call]? = some self)

include found

/-- The sender of a call is registered under its identifier, or there is none. -/
theorem lookup_own :
    chans.lookup self.id = none ∨
      chans.lookup self.id = some call ∧ self.chan = .empty ∧ self.phase.isRegistered = true := by
  cases registered : chans.lookup self.id with
  | none => exact Or.inl rfl
  | some place =>
    obtain ⟨entry, its, id, empty, phase⟩ := matched.entries self.id place registered
    cases matched.distinct place call entry self its found id
    cases found.symm.trans its
    exact Or.inr ⟨rfl, empty, phase⟩

theorem set (id : after.id = self.id) (phase : after.phase ≠ .checked)
    (kept : chans.lookup self.id = some call →
      after.chan = .empty ∧ after.phase.isRegistered = true) :
    Matched chans (calls.set call after) where
  distinct first second one another its others same := by
    have back {place : Nat} {entry : Call} (there : (calls.set call after)[place]? = some entry) :
        ∃ before : Call, calls[place]? = some before ∧ before.id = entry.id := by
      rcases (Indexed.set_eq_some found).mp there with ⟨rfl, rfl⟩ | ⟨_, before⟩
      · exact ⟨self, found, id.symm⟩
      · exact ⟨entry, before, rfl⟩
    obtain ⟨before, was, ids⟩ := back its
    obtain ⟨earlier, itsWas, itsIds⟩ := back others
    exact matched.distinct first second before earlier was itsWas
      (ids.trans (same.trans itsIds.symm))
  entries other place registered := by
    obtain ⟨entry, its, named, promised⟩ := matched.entries other place registered
    by_cases same : place = call
    · rw [same] at its registered ⊢
      cases found.symm.trans its
      rw [← named] at registered
      exact ⟨after, (Indexed.set_eq_some found).mpr (Or.inl ⟨rfl, rfl⟩), id.trans named,
        kept registered⟩
    · exact ⟨entry, (Indexed.set_eq_some found).mpr (Or.inr ⟨same, its⟩), named, promised⟩
  unmade entry member checked := by
    rcases List.mem_or_eq_of_mem_set member with earlier | rfl
    · exact matched.unmade entry earlier checked
    · exact absurd checked phase

theorem insert (empty : self.chan = .empty) (phase : self.phase.isRegistered = true) :
    Matched (chans.insert self.id call) calls := by
  refine { matched with entries := fun other place registered => ?_ }
  rcases HashMap.lookup_insert_eq_some.mp registered with ⟨same, rfl⟩ | ⟨_, before⟩
  · exact ⟨self, found, same.symm, empty, phase⟩
  · exact matched.entries other place before

theorem registers :
    Matched (chans.insert self.id call)
      (calls.set call { self with phase := .registered, chan := .empty }) := by
  have moved : Matched chans (calls.set call { self with phase := .registered, chan := .empty }) :=
    matched.set found rfl (by rintro ⟨⟩) fun _ => ⟨rfl, rfl⟩
  have there : (calls.set call { self with phase := .registered, chan := .empty })[call]? =
      some { self with phase := .registered, chan := .empty } :=
    List.getElem?_set_self (List.getElem?_eq_some_iff.mp found).1
  have inserted := moved.insert there rfl rfl
  exact inserted

theorem moves {phase : CallPhase} (later : phase ≠ .checked)
    (kept : phase.isRegistered = self.phase.isRegistered) :
    Matched chans (calls.set call { self with phase }) := by
  refine matched.set found rfl later fun registered => ?_
  rcases matched.lookup_own found with absent | ⟨_, empty, before⟩
  · cases absent.symm.trans registered
  · exact ⟨empty, kept.trans before⟩

variable {res : Message.Response}

theorem receives (filled : self.chan = .filled res) :
    Matched chans (calls.set call { self with phase := self.next res }) := by
  refine matched.set found rfl (self.isRegistered_next res).2 fun registered => ?_
  rcases matched.lookup_own found with absent | ⟨_, empty, _⟩
  · cases absent.symm.trans registered
  · cases filled.symm.trans empty

theorem unregisters :
    Matched (chans.erase self.id)
      (calls.set call { self with phase := .returned, chan := .closed }) := by
  refine (matched.erase self.id).set found rfl (by rintro ⟨⟩) fun registered => ?_
  rw [AList.lookup_erase] at registered
  cases registered

end

theorem dropSender_set {state : MuxClient}
    (matched : Matched state.messageDispatcher.chans state.calls)
    (found : state.calls[call]? = some self) (after : Call) :
    (state.dropSender self.id).set call after = state.calls.set call after := by
  unfold MuxClient.dropSender
  rcases matched.lookup_own found with absent | ⟨registered, _⟩
  · rw [absent]
  · rw [registered]
    exact Indexed.set_modify after

end Matched

/-! ### The way of a response -/

variable (history : List LoopEvent)

/-- A message that the loop has read was not delivered before. -/
structure HasRead (reads number : Nat) : Prop where
  bound : number < reads
  fresh : ∀ call res, .delivered number call res ∉ history

/-- The response in the hand of the loop is for a call that has registered, whose sender is out of
the dispatcher and whose channel has room or is closed. -/
structure Dispatches (chans : HashMap RequestID Nat) (calls : List Call) (number call : Nat)
    (res : Message.Response) : Prop where
  dispatched : .dispatched number call ∈ history
  read : ∃ msg, .read number msg ∈ history ∧ NewMsg.fromValue msg = some (.response res)
  target : ∃ self, calls[call]? = some self ∧ res.id = some (.ofUInt32 self.id) ∧
    self.phase ≠ .checked ∧ chans.lookup self.id = none ∧
    (self.chan = .empty ∨ self.chan = .closed)

/-- The calls, the dispatcher and the hand of the loop agree with the history. -/
structure Traced (chans : HashMap RequestID Nat) (calls : List Call) (hand : Hand) (reads : Nat) :
    Prop where
  matched : Matched chans calls
  made : ∀ (call : Nat) (self : Call), calls[call]? = some self → self.phase ≠ .checked →
    .registered call ∈ history
  filled : ∀ (call : Nat) (self : Call) (res : Message.Response), calls[call]? = some self →
    self.chan = .filled res → ∃ number, .delivered number call res ∈ history
  owned : ∀ number call res, .delivered number call res ∈ history →
    ∃ self, calls[call]? = some self ∧ res.id = some (.ofUInt32 self.id)
  once : ∀ number call other res another, .delivered number call res ∈ history →
    .delivered number other another ∈ history → call = other
  numbered : ∀ number call res, .delivered number call res ∈ history → number < reads
  reading : ∀ number msg, hand = .read number msg →
    HasRead history reads number ∧ .read number msg ∈ history
  dispatching : ∀ number call res, hand = .dispatching number call res →
    HasRead history reads number ∧ Dispatches history chans calls number call res
  justified : Justified LoopEvent.Follows history

namespace Traced

variable {history : List LoopEvent} {chans next : HashMap RequestID Nat} {calls : List Call}
  {hand : Hand} {reads call : Nat} {self after : Call} {event : LoopEvent}

theorem start : Traced [] ∅ [] .empty 0 where
  matched := .start
  made _ _ found := by cases found
  filled _ _ _ found := by cases found
  owned _ _ _ member := absurd member List.not_mem_nil
  once _ _ _ _ _ member := absurd member List.not_mem_nil
  numbered _ _ _ member := absurd member List.not_mem_nil
  reading _ _ same := by cases same
  dispatching _ _ _ same := by cases same
  justified := .nil

section

variable (traced : Traced history chans calls hand reads)

include traced

theorem empty :
    Traced history chans calls .empty reads :=
  { traced with
    reading := by rintro _ _ ⟨⟩
    dispatching := by rintro _ _ _ ⟨⟩ }

theorem note (follows : event.Follows history)
    (other : ∀ number call res, event ≠ .delivered number call res) :
    Traced (history ++ [event]) chans calls hand reads := by
  have earlier {number call : Nat} {res : Message.Response}
      (member : .delivered number call res ∈ history ++ [event]) :
      .delivered number call res ∈ history :=
    (mem_concat.mp member).resolve_right fun new => other number call res new.symm
  have fresh {number : Nat} (known : HasRead history reads number) :
      HasRead (history ++ [event]) reads number :=
    ⟨known.bound, fun call res member => known.fresh call res (earlier member)⟩
  constructor
  case matched => exact traced.matched
  case made =>
    intro call self found phase
    exact List.mem_append_left _ (traced.made call self found phase)
  case filled =>
    intro call self res found filled
    exact (traced.filled call self res found filled).imp fun _ => List.mem_append_left _
  case owned => exact fun number call res member => traced.owned number call res (earlier member)
  case once =>
    intro number call other res another member its
    exact traced.once number call other res another (earlier member) (earlier its)
  case numbered =>
    exact fun number call res member => traced.numbered number call res (earlier member)
  case reading =>
    intro number msg holds
    exact (traced.reading number msg holds).imp fresh (List.mem_append_left _)
  case dispatching =>
    intro number call res holds
    obtain ⟨known, dispatches⟩ := traced.dispatching number call res holds
    exact ⟨fresh known, List.mem_append_left _ dispatches.dispatched,
      dispatches.read.imp fun _ => And.imp_left (List.mem_append_left _), dispatches.target⟩
  case justified => exact traced.justified.concat follows

theorem set (found : calls[call]? = some self)
    (matched : Matched next (calls.set call after)) (id : after.id = self.id)
    (phase : after.phase ≠ .checked) (registered : .registered call ∈ history)
    (chan : after.chan = self.chan ∨ after.chan = .empty ∧ self.phase = .checked ∨
      after.chan = .closed ∨
      hand = .empty ∧ ∃ number res, after.chan = .filled res ∧ .delivered number call res ∈ history)
    (absent : ∀ (other : Nat) (entry : Call), calls[other]? = some entry →
      entry.phase ≠ .checked → chans.lookup entry.id = none → next.lookup entry.id = none) :
    Traced history next (calls.set call after) hand reads := by
  constructor
  case matched => exact matched
  case made =>
    intro other entry its moved
    rcases (Indexed.set_eq_some found).mp its with ⟨rfl, _⟩ | ⟨_, before⟩
    · exact registered
    · exact traced.made other entry before moved
  case filled =>
    intro other entry res its holds
    rcases (Indexed.set_eq_some found).mp its with ⟨rfl, rfl⟩ | ⟨_, before⟩
    · rw [holds] at chan
      rcases chan with same | ⟨⟨⟩, _⟩ | ⟨⟨⟩⟩ | ⟨_, number, _, ⟨⟩, delivered⟩
      · exact traced.filled other self res found same.symm
      · exact ⟨number, delivered⟩
    · exact traced.filled other entry res before holds
  case owned =>
    intro number other res member
    obtain ⟨entry, its, identified⟩ := traced.owned number other res member
    by_cases same : other = call
    · rw [same] at its ⊢
      cases found.symm.trans its
      exact ⟨after, (Indexed.set_eq_some found).mpr (Or.inl ⟨rfl, rfl⟩), id ▸ identified⟩
    · exact ⟨entry, (Indexed.set_eq_some found).mpr (Or.inr ⟨same, its⟩), identified⟩
  case once => exact traced.once
  case numbered => exact traced.numbered
  case reading => exact traced.reading
  case dispatching =>
    intro number other res holds
    obtain ⟨known, dispatched, read, entry, its, identified, made, gone, room⟩ :=
      traced.dispatching number other res holds
    refine ⟨known, dispatched, read, ?_⟩
    have still := absent other entry its made gone
    by_cases same : other = call
    · rw [same] at its ⊢
      cases found.symm.trans its
      refine ⟨after, (Indexed.set_eq_some found).mpr (Or.inl ⟨rfl, rfl⟩), id ▸ identified, phase,
        id ▸ still, ?_⟩
      rcases chan with same | ⟨_, checked⟩ | closed | ⟨empty, _⟩
      · rw [same]
        exact room
      · exact absurd checked made
      · exact Or.inr closed
      · cases empty.symm.trans holds
    · exact ⟨entry, (Indexed.set_eq_some found).mpr (Or.inr ⟨same, its⟩), identified, made, still,
        room⟩
  case justified => exact traced.justified

theorem concat (fresh : ∀ other ∈ calls, other.id ≠ self.id) (checked : self.phase = .checked)
    (unmade : self.chan = .unmade) : Traced history chans (calls ++ [self]) hand reads := by
  have kept {place : Nat} {entry : Call} (found : calls[place]? = some entry) :
      (calls ++ [self])[place]? = some entry := Indexed.concat_eq_some.mpr (Or.inl found)
  refine { traced with
    matched := traced.matched.concat fresh unmade
    made := fun place entry found phase => ?_
    filled := fun place entry res found holds => ?_
    owned := fun number place res member => ?_
    dispatching := fun number place res holds => ?_ }
  · rcases Indexed.concat_eq_some.mp found with earlier | ⟨_, rfl⟩
    · exact traced.made place entry earlier phase
    · exact absurd checked phase
  · rcases Indexed.concat_eq_some.mp found with earlier | ⟨_, rfl⟩
    · exact traced.filled place entry res earlier holds
    · cases unmade.symm.trans holds
  · exact (traced.owned number place res member).imp fun _ => And.imp_left kept
  · obtain ⟨known, dispatched, read, target⟩ := traced.dispatching number place res holds
    exact ⟨known, dispatched, read, target.imp fun _ => And.imp_left kept⟩

theorem clear {change : Nat → Call → Call} (changes : ∀ call self, change call self = self ∨
      self.chan = .empty ∧ change call self = { self with chan := .closed }) :
    Traced history ∅ (calls.mapIdx change) hand reads := by
  have forth {place : Nat} {self : Call} (found : calls[place]? = some self) :
      ∃ after, (calls.mapIdx change)[place]? = some after ∧ after.id = self.id ∧
        after.phase = self.phase ∧
        (self.chan = .empty ∨ self.chan = .closed →
          after.chan = .empty ∨ after.chan = .closed) := by
    refine ⟨change place self, by rw [List.getElem?_mapIdx, found]; rfl, ?_⟩
    rcases changes place self with same | ⟨_, closed⟩
    · rw [same]
      exact ⟨rfl, rfl, id⟩
    · rw [closed]
      exact ⟨rfl, rfl, fun _ => Or.inr rfl⟩
  have back {place : Nat} {after : Call} (found : (calls.mapIdx change)[place]? = some after) :
      ∃ self, calls[place]? = some self ∧ self.id = after.id ∧ self.phase = after.phase ∧
        (self.chan = after.chan ∨ self.chan = .empty ∧ after.chan = .closed) := by
    rw [List.getElem?_mapIdx, Option.map_eq_some_iff] at found
    obtain ⟨self, its, rfl⟩ := found
    refine ⟨self, its, ?_⟩
    rcases changes place self with same | ⟨empty, closed⟩
    · rw [same]
      exact ⟨rfl, rfl, Or.inl rfl⟩
    · rw [closed]
      exact ⟨rfl, rfl, Or.inr ⟨empty, rfl⟩⟩
  have matched : Matched ∅ (calls.mapIdx change) := by
    refine ⟨fun first second one another found its same => ?_, fun _ _ found => ?_,
      fun entry member checked => ?_⟩
    · obtain ⟨before, was, id, _⟩ := back found
      obtain ⟨earlier, itsWas, itsId, _⟩ := back its
      exact traced.matched.distinct first second before earlier was itsWas
        (id.trans (same.trans itsId.symm))
    · cases found
    · obtain ⟨place, found⟩ := List.mem_iff_getElem?.mp member
      obtain ⟨before, was, _, phase, chan⟩ := back found
      have unmade := traced.matched.unmade before (List.mem_of_getElem? was) (phase.trans checked)
      rcases chan with same | ⟨empty, _⟩
      · exact same.symm.trans unmade
      · cases unmade.symm.trans empty
  refine { traced with
    matched
    made := fun place entry found phase => ?_
    filled := fun place entry res found holds => ?_
    owned := fun number place res member => ?_
    dispatching := fun number place res holds => ?_ }
  · obtain ⟨before, was, _, same, _⟩ := back found
    exact traced.made place before was (same ▸ phase)
  · obtain ⟨before, was, _, _, same | ⟨_, closed⟩⟩ := back found
    · exact traced.filled place before res was (same.trans holds)
    · cases closed.symm.trans holds
  · obtain ⟨before, was, identified⟩ := traced.owned number place res member
    obtain ⟨after, is, id, _⟩ := forth was
    exact ⟨after, is, id ▸ identified⟩
  · obtain ⟨known, dispatched, read, before, was, identified, phase, _, room⟩ :=
      traced.dispatching number place res holds
    obtain ⟨after, is, id, same, kept⟩ := forth was
    exact ⟨known, dispatched, read, after, is, id ▸ identified, same ▸ phase, rfl, kept room⟩

end

theorem effect {state : MuxClient} {action : ClientAction}
    (traced : Traced history state.messageDispatcher.chans state.calls hand reads)
    (effect : state.CallEffect action chans calls)
    (fresh : ∀ id method params kind, action = .request id method params kind →
      ∀ other ∈ state.calls, other.id ≠ id)
    (registered : ∀ call, action = .register call → .registered call ∈ history) :
    Traced history chans calls hand reads := by
  cases effect with
  | same => exact traced
  | requests => exact traced.concat (fresh _ _ _ _ rfl) rfl rfl
  | @registers call self found checked =>
    rw [traced.matched.dropSender_set found]
    refine traced.set found (traced.matched.registers found) rfl (by rintro ⟨⟩)
      (registered call rfl)
      (Or.inr (Or.inl ⟨rfl, checked⟩)) fun other entry its phase gone => ?_
    -- The new entry is that of a call which had not registered.
    rw [AList.lookup_insert_ne, gone]
    intro same
    cases traced.matched.distinct other call entry self its found same
    cases found.symm.trans its
    exact phase checked
  | @moves _ call self phase found before after kept =>
    exact traced.set found (traced.matched.moves found after kept) rfl after
      (traced.made call self found before) (Or.inl rfl) fun _ _ _ _ => id
  | @receives call self res found waiting filled =>
    have made := traced.made call self found (by rw [waiting]; rintro ⟨⟩)
    exact traced.set found (traced.matched.receives found filled) rfl
      (self.isRegistered_next res).2 made (Or.inl rfl) fun _ _ _ _ => id
  | @unregisters call self found failing =>
    rw [traced.matched.dropSender_set found]
    have made := traced.made call self found (by rw [failing]; rintro ⟨⟩)
    refine traced.set found (traced.matched.unregisters found) rfl (by rintro ⟨⟩) made
      (Or.inr (Or.inr (Or.inl rfl))) fun other entry _ _ gone => ?_
    by_cases same : entry.id = self.id
    · rw [same]
      exact AList.lookup_erase ..
    · rw [AList.lookup_erase_ne same]
      exact gone
  | clears =>
    refine traced.clear fun call self => ?_
    split
    · unfold Call.close
      split
      · rename_i empty
        exact Or.inr ⟨empty, rfl⟩
      · exact Or.inl rfl
    · exact Or.inl rfl

theorem reads_message (traced : Traced history chans calls hand reads) (msg : Value) :
    Traced (history ++ [.read reads msg]) chans calls (.read reads msg) (reads + 1) := by
  have noted : Traced (history ++ [.read reads msg]) chans calls .empty reads :=
    traced.empty.note trivial (by rintro _ _ _ ⟨⟩)
  refine { noted with
    numbered := fun number call res member =>
      Nat.lt_succ_of_lt (noted.numbered number call res member)
    reading := ?_
    dispatching := by rintro _ _ _ ⟨⟩ }
  rintro number msg ⟨⟩
  refine ⟨⟨Nat.lt_succ_self _, fun call res member => ?_⟩,
    List.mem_concat_self⟩
  exact Nat.lt_irrefl _ (noted.numbered _ call res member)

theorem dispatches {number : Nat} {msg : Value} {id : RequestID}
    (traced : Traced history chans calls (.read number msg) reads)
    (response : NewMsg.fromValue msg = some (.response res))
    (identified : res.id = some (.ofUInt32 id)) (registered : chans.lookup id = some call) :
    Traced (history ++ [.dispatched number call]) (chans.erase id) calls
      (.dispatching number call res) reads := by
  obtain ⟨self, found, rfl, empty, phase⟩ := traced.matched.entries id call registered
  have checked : self.phase ≠ .checked := by
    intro checked
    rw [checked] at phase
    cases phase
  obtain ⟨known, read⟩ := traced.reading number msg rfl
  have noted : Traced (history ++ [.dispatched number call]) chans calls .empty reads :=
    traced.empty.note (traced.made call self found checked) (by rintro _ _ _ ⟨⟩)
  refine { noted with
    matched := traced.matched.erase self.id
    reading := by rintro _ _ ⟨⟩
    dispatching := ?_ }
  rintro _ _ _ ⟨⟩
  refine ⟨⟨known.bound, fun other another member => ?_⟩,
    ⟨List.mem_concat_self,
      ⟨msg, List.mem_append_left _ read, response⟩,
      ⟨self, found, identified, checked, AList.lookup_erase .., Or.inl empty⟩⟩⟩
  rcases mem_concat.mp member with earlier | ⟨⟨⟩⟩
  exact known.fresh other another earlier

theorem delivers {number : Nat}
    (traced : Traced history chans calls (.dispatching number call res) reads)
    (found : calls[call]? = some self) :
    Traced (history ++ [.delivered number call res]) chans (calls.set call (self.fill res)) .empty
      reads := by
  obtain ⟨known, dispatched, read, entry, its, identified, made, gone, _⟩ :=
    traced.dispatching number call res rfl
  cases found.symm.trans its
  have old {other place : Nat} {another : Message.Response}
      (member : .delivered other place another ∈ history ++ [.delivered number call res]) :
      .delivered other place another ∈ history ∨
        other = number ∧ place = call ∧ another = res := by
    refine (mem_concat.mp member).imp_right ?_
    rintro ⟨⟩
    exact ⟨rfl, rfl, rfl⟩
  have noted : Traced (history ++ [.delivered number call res]) chans calls .empty reads := by
    refine { traced with
      made := fun place entry there phase =>
        List.mem_append_left _ (traced.made place entry there phase)
      filled := fun place entry another there holds =>
        (traced.filled place entry another there holds).imp fun _ => List.mem_append_left _
      owned := fun other place another member => ?_
      once := fun one place other another third member others => ?_
      numbered := fun other place another member => ?_
      reading := by rintro _ _ ⟨⟩
      dispatching := by rintro _ _ _ ⟨⟩
      justified := traced.justified.concat ⟨dispatched, read⟩ }
    · rcases old member with earlier | ⟨_, rfl, rfl⟩
      · exact traced.owned other place another earlier
      · exact ⟨self, found, identified⟩
    · rcases old member with earlier | ⟨rfl, rfl, rfl⟩ <;>
        rcases old others with before | ⟨same, rfl, rfl⟩
      · exact traced.once one place other another third earlier before
      · rw [same] at earlier
        exact absurd earlier (known.fresh place another)
      · exact absurd before (known.fresh other third)
      · rfl
    · rcases old member with earlier | ⟨rfl, _⟩
      · exact traced.numbered other place another earlier
      · exact known.bound
  have matched : Matched chans (calls.set call (self.fill res)) := by
    refine traced.matched.set found rfl made fun registered => ?_
    cases gone.symm.trans registered
  exact noted.set found matched rfl made (noted.made call self found made)
    (.inr (.inr (.inr ⟨rfl, number, res, rfl, List.mem_concat_self⟩))) fun _ _ _ _ gone => gone

end Traced

/-! ### Runs -/

namespace MuxLoop

variable {config : ClientConfig} {state next : MuxLoop} {action : ClientAction}
  {history events : List LoopEvent}

def Tracked (history : List LoopEvent) (state : MuxLoop) : Prop :=
  Traced history state.client.messageDispatcher.chans state.client.calls state.hand state.reads

theorem Tracked.run (tracked : Tracked history state) (other : ∀ msg, action ≠ .message msg)
    (fresh : ∀ id method params kind, action = .request id method params kind →
      ∀ other ∈ state.client.calls, other.id ≠ id)
    (registered : ∀ call, action = .register call → .registered call ∈ history)
    (taken : state.run config action events = some (next, events)) : Tracked history next := by
  obtain ⟨⟨client, own⟩, stepped, ⟨⟩⟩ := Option.map_eq_some_iff.mp taken
  exact Traced.effect tracked (MuxClient.step_calls other stepped) fresh registered

theorem checkResponseId_eq_ok {id : RequestID} {res other : Message.Response}
    (checked : checkResponseId id res = .ok other) : other = res := by
  revert checked
  fun_cases checkResponseId <;> rintro ⟨⟩
  rfl

section

variable (tracked : Tracked history state)

include tracked

/-- A call that receives a response returns one that was delivered to it. -/
theorem Tracked.returning (call : Nat) :
    Tracked (history ++ state.returning call) state := by
  have unchanged : Tracked (history ++ []) state := by
    rw [List.append_nil]
    exact tracked
  fun_cases MuxLoop.returning
  case case1 self found res filled other checked =>
    rw [checkResponseId_eq_ok checked]
    exact Traced.note tracked (tracked.filled call self res found filled) (by rintro _ _ _ ⟨⟩)
  all_goals exact unchanged

/-- The loop ends with a response in hand: its sender is dropped. -/
theorem Tracked.dropHand : Tracked history state.dropHand := by
  unfold MuxLoop.dropHand
  split
  · rename_i number call res hand
    obtain ⟨_, _, _, self, found, _, made, gone, room⟩ := tracked.dispatching number call res hand
    have phase : self.close.phase = self.phase ∧ self.close.id = self.id ∧
        self.close.chan = .closed := by
      unfold Call.close
      rcases room with empty | shut
      · rw [empty]
        exact ⟨rfl, rfl, rfl⟩
      · rw [shut]
        exact ⟨rfl, rfl, shut⟩
    have moved : self.close.phase ≠ .checked := by
      rw [phase.1]
      exact made
    have matched : Matched state.client.messageDispatcher.chans
        (state.client.calls.set call self.close) := by
      refine tracked.matched.set found phase.2.1 moved fun registered => ?_
      cases gone.symm.trans registered
    have dropped := (Traced.set tracked found matched phase.2.1 moved
      (tracked.made call self found made) (Or.inr (Or.inr (Or.inl phase.2.2)))
      fun _ _ _ _ => id).empty
    rw [← Indexed.modify_eq_set found] at dropped
    exact dropped
  · exact Traced.empty tracked

omit tracked in
theorem handleMessage_calls (config : ClientConfig) (client : MuxClient) {msg : Value}
    (other : ∀ res, NewMsg.fromValue msg ≠ some (.response res)) :
    (client.handleMessage config msg).1.messageDispatcher = client.messageDispatcher ∧
      (client.handleMessage config msg).1.calls = client.calls := by
  unfold MuxClient.handleMessage
  split
  · rename_i res response
    exact absurd response (other res)
  · split
    · fun_cases MuxClient.notify <;> exact ⟨rfl, rfl⟩
    · exact ⟨rfl, rfl⟩
  · exact ⟨rfl, rfl⟩

theorem Tracked.handle (taken : state.step config .handle = some (next, events)) :
    Tracked (history ++ events) next := by
  simp only [step] at taken
  split at taken
  · rename_i number msg hand
    split at taken
    · rename_i res response
      split at taken
      · rename_i call messageDispatcher dispatched
        cases taken
        obtain ⟨id, identified, registered, rfl⟩ := MessageDispatcher.dispatch_eq_ok dispatched
        have held : Traced history state.client.messageDispatcher.chans state.client.calls
            (.read number msg) state.reads := hand ▸ tracked
        exact held.dispatches response identified registered
      · cases taken
        rw [List.append_nil]
        exact Traced.empty tracked
    · rename_i other
      cases taken
      obtain ⟨dispatcher, calls⟩ := handleMessage_calls config state.client other
      simp only [Tracked, dispatcher, calls, List.append_nil]
      exact Traced.empty tracked
  · cases taken

theorem Tracked.deliver (taken : state.step config .deliver = some (next, events)) :
    Tracked (history ++ events) next := by
  have dropped : Traced (history ++ []) state.client.messageDispatcher.chans state.client.calls
      .empty state.reads := by
    rw [List.append_nil]
    exact Traced.empty tracked
  simp only [step] at taken
  split at taken
  · rename_i number call res hand
    split at taken
    · rename_i self found
      split at taken
      · cases taken
      · cases taken
        have held : Traced history state.client.messageDispatcher.chans state.client.calls
            (.dispatching number call res) state.reads := hand ▸ tracked
        exact held.delivers found
      · cases taken
        exact dropped
    · cases taken
      exact dropped
  · cases taken

omit tracked in
theorem run_eq_some {own : List LoopEvent}
    (taken : state.run config action own = some (next, events)) :
    events = own ∧ state.run config action [] = some (next, []) := by
  obtain ⟨reached, stepped, ⟨⟩⟩ := Option.map_eq_some_iff.mp taken
  exact ⟨rfl, Option.map_eq_some_iff.mpr ⟨reached, stepped, rfl⟩⟩

theorem Tracked.step {action : LoopAction} (allowed : state.distinctIds action = true)
    (taken : state.step config action = some (next, events)) :
    Tracked (history ++ events) next := by
  have unchanged {state next : MuxLoop} {own : ClientAction} (tracked : Tracked history state)
      (other : ∀ msg, own ≠ .message msg)
      (fresh : ∀ id method params kind, own = .request id method params kind →
        ∀ other ∈ state.client.calls, other.id ≠ id)
      (quiet : ∀ call, own ≠ .register call)
      (taken : state.run config own [] = some (next, events)) :
      Tracked (history ++ events) next := by
    obtain ⟨rfl, taken⟩ := run_eq_some taken
    rw [List.append_nil]
    exact tracked.run other fresh (fun call same => absurd same (quiet call)) taken
  cases action with
  | read msg =>
    simp only [MuxLoop.step] at taken
    split at taken
    · cases taken
      exact Traced.reads_message tracked msg
    · cases taken
  | handle => exact tracked.handle taken
  | deliver => exact tracked.deliver taken
  | client action =>
    cases action with
    | message msg => cases taken
    | takeOutbound =>
      simp only [MuxLoop.step] at taken
      split at taken
      · exact unchanged tracked (by rintro _ ⟨⟩) (by rintro _ _ _ _ ⟨⟩) (by rintro _ ⟨⟩) taken
      · cases taken
    | loopEnds =>
      exact unchanged tracked.dropHand (by rintro _ ⟨⟩) (by rintro _ _ _ _ ⟨⟩) (by rintro _ ⟨⟩)
        taken
    | register call =>
      obtain ⟨rfl, taken⟩ := run_eq_some taken
      have noted : Tracked (history ++ [.registered call]) state :=
        Traced.note tracked trivial (by rintro _ _ _ ⟨⟩)
      refine noted.run (by rintro _ ⟨⟩) (by rintro _ _ _ _ ⟨⟩) ?_ taken
      rintro _ ⟨⟩
      exact List.mem_concat_self
    | receive call =>
      obtain ⟨rfl, taken⟩ := run_eq_some taken
      exact (tracked.returning call).run (by rintro _ ⟨⟩) (by rintro _ _ _ _ ⟨⟩)
        (by rintro _ ⟨⟩) taken
    | request id method params kind =>
      refine unchanged tracked (by rintro _ ⟨⟩) ?_ (by rintro _ ⟨⟩) taken
      rintro _ _ _ _ ⟨⟩ other member
      exact of_decide_eq_true (List.all_eq_true.mp allowed other member)
    | _ =>
      exact unchanged tracked (by rintro _ ⟨⟩) (by rintro _ _ _ _ ⟨⟩) (by rintro _ ⟨⟩) taken

end

/-- The calls and the responses are matched.

`answered`: a call returns only a response with its own identifier, which was read, and was
dispatched and delivered to it after it had registered. `once`: no response is delivered to two
calls. `handles` and `delivers`: the loop can always handle the message and send the response that
it has in hand. `emptied`: when all calls have returned, the dispatcher is empty. -/
structure Correlated (config : ClientConfig) (history : List LoopEvent) (state : MuxLoop) :
    Prop where
  answered : ∀ before call res, before ++ [.returned call res] <+: history →
    ∃ self number msg, state.client.calls[call]? = some self ∧
      res.id = some (.ofUInt32 self.id) ∧ .read number msg ∈ before ∧
      NewMsg.fromValue msg = some (.response res) ∧
      [.registered call, .dispatched number call, .delivered number call res].Sublist before
  once : ∀ number call other res another, .delivered number call res ∈ history →
    .delivered number other another ∈ history → call = other
  handles : ∀ number msg, state.hand = .read number msg →
    (state.step config .handle).isSome = true
  delivers : ∀ number call res, state.hand = .dispatching number call res →
    (state.step config .deliver).isSome = true
  emptied : (∀ call ∈ state.client.calls, call.phase = .returned) →
    state.client.messageDispatcher.chans = ∅

section

variable (tracked : Tracked history state)

include tracked

/-- The events of a call that returns a response, in their order. -/
theorem Tracked.answered {before : List LoopEvent} {call : Nat}
    (start : before ++ [.returned call res] <+: history) :
    ∃ self number msg, state.client.calls[call]? = some self ∧
      res.id = some (.ofUInt32 self.id) ∧ .read number msg ∈ before ∧
      NewMsg.fromValue msg = some (.response res) ∧
      [.registered call, .dispatched number call, .delivered number call res].Sublist before := by
  have earlier : before <+: history := (List.prefix_append _ _).trans start
  obtain ⟨number, delivered⟩ := tracked.justified before (.returned call res) start
  obtain ⟨self, found, id⟩ := tracked.owned number call res (earlier.subset delivered)
  have justified := tracked.justified.of_prefix earlier
  obtain ⟨first, toFirst, dispatched, msg, read, response⟩ := justified.of_mem delivered
  have within : first <+: before := (List.prefix_append _ _).trans toFirst
  obtain ⟨second, toSecond, registered⟩ := (justified.of_prefix within).of_mem dispatched
  refine ⟨self, number, msg, found, id, within.subset read, response, ?_⟩
  have one := List.singleton_sublist.mpr registered
  have two := (one.append (List.Sublist.refl [.dispatched number call])).trans toSecond.sublist
  exact (two.append (List.Sublist.refl [.delivered number call res])).trans toFirst.sublist

/-- The channel of the call that the response in hand is for has room, or is closed. -/
theorem Tracked.delivers {number call : Nat} (hand : state.hand = .dispatching number call res) :
    (state.step config .deliver).isSome = true := by
  obtain ⟨_, _, _, self, found, _, _, _, room⟩ := tracked.dispatching number call res hand
  simp only [MuxLoop.step, hand, found]
  rcases room with empty | closed
  · rw [empty]
    rfl
  · rw [closed]
    rfl

/-- An entry of the dispatcher is that of a call which has not returned. -/
theorem Tracked.emptied (returned : ∀ call ∈ state.client.calls, call.phase = .returned) :
    state.client.messageDispatcher.chans = ∅ := by
  refine AList.ext (List.eq_nil_iff_forall_not_mem.mpr ?_)
  rintro ⟨id, call⟩ member
  obtain ⟨self, found, _, _, registered⟩ :=
    tracked.matched.entries id call (AList.mem_lookup_iff.mpr member)
  rw [returned self (List.mem_of_getElem? found)] at registered
  cases registered

end

end MuxLoop

/-- In every run of a client whose calls draw distinct identifiers, the calls and the responses are
matched. -/
theorem mux_calls_correlated {config : ClientConfig} {history : List LoopEvent} {state : MuxLoop}
    (run : (loopMachine config).Run (fun state action => state.distinctIds action = true)
      history state) : MuxLoop.Correlated config history state := by
  have tracked : MuxLoop.Tracked history state := by
    refine run.invariant MuxLoop.Tracked ?_ ?_
    · exact Traced.start
    · intro _ _ _ _ _ tracked allowed taken
      exact tracked.step allowed taken
  exact
    { answered := fun _ _ _ start => tracked.answered start
      once := tracked.once
      handles := fun _ _ hand => by
        simp only [MuxLoop.step, hand]
        split
        · split <;> rfl
        · rfl
      delivers := fun _ _ _ hand => tracked.delivers hand
      emptied := tracked.emptied }

/-- A call of one string, up to the write of its request. -/
def calling (call : Nat) (id : RequestID) : List LoopAction :=
  [.client (.request id "Sample.echo" .null .call), .client (.register call),
    .client (.send call), .client .takeOutbound]

/-- The loop reads a response and delivers it. -/
def responding (id : RequestID) : List LoopAction :=
  [.read (subscribed id 5), .handle, .deliver]

/-- Two calls are answered in the other order, the second of them twice, and return. -/
theorem mux_calls_correlated_two :
    ∃ history state, (loopMachine sampleConfig).Run
        (fun state action => state.distinctIds action = true) history state ∧
      state.client.calls.map Call.phase = [.returned, .returned] ∧
      state.client.messageDispatcher.chans = ∅ ∧
      MuxLoop.Correlated sampleConfig history state := by
  refine Machine.reach_run
    (fun _ state => state.client.calls.map Call.phase = [.returned, .returned])
    (calling 0 7 ++ calling 1 8 ++ responding 8 ++ [.read (subscribed 8 5), .handle] ++
      responding 7 ++ [.client (.receive 0), .client (.receive 1)]) ⟨_, rfl, rfl⟩
    fun _ state run observed => ?_
  have correlated := mux_calls_correlated run
  refine ⟨observed, correlated.emptied fun call member => ?_, correlated⟩
  have phase : call.phase ∈ state.client.calls.map Call.phase := List.mem_map_of_mem member
  rw [observed] at phase
  simpa using phase

/-- The response is read before the call with its identifier registers, and dispatched after
that. -/
theorem mux_response_read_early :
    ∃ history state, (loopMachine sampleConfig).Run
        (fun state action => state.distinctIds action = true) history state ∧
      history =
        [.read 0 (subscribed 7 5), .registered 0, .dispatched 0 0,
          .delivered 0 0 (respond (some (.ofUInt32 7)) (.ok (.ofUInt32 5))),
          .returned 0 (respond (some (.ofUInt32 7)) (.ok (.ofUInt32 5)))] ∧
      ¬∃ number msg, [.registered 0, .read number msg].Sublist history := by
  refine Machine.reach_run _
    [.read (subscribed 7 5), .client (.request 7 "Sample.echo" .null .call),
      .client (.register 0), .handle, .deliver, .client (.send 0), .client (.receive 0)]
    ⟨_, rfl, rfl⟩ fun history _ _ events => ⟨events, ?_⟩
  rintro ⟨number, msg, order⟩
  simp [show history = _ from events, List.sublist_cons_iff] at order

end Karyon.Jsonrpc
