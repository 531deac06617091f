/-
This file follows the events of an event emitter to the channels of its listeners, as a machine:
tasks that emit, listeners that are registered, cancelled and dropped, and receivers that take
events out of their channels, in any order.

An emission takes the listeners that are registered for its topic and event type when it starts, and
then awaits one send for each of them, in any order. A send waits while the channel is full and
fails when the receiver is gone; the emission ends when every send has ended. A task emits one event
after another.

Every event of an emission that has ended was put exactly once into the channel of every listener
that it found and whose receiver was there until then, and into no other; the events of a task are
put in the order in which it emitted them (`event_delivery`).
-/

import Karyon.Lib.Indexed
import Karyon.Lib.Transition
import Karyon.Utils.EventEmitter

namespace Karyon.Utils

open Transition

/-! ### The emitter with its emissions -/

/-- An emission: the listeners that it found, those whose sends are awaited, and those whose
sends failed. -/
structure Emission (Topic Event : Type) where
  task : Nat
  topic : Topic
  eventId : String
  event : Event
  targets : List (EventListenerID × Nat)
  pending : List (EventListenerID × Nat)
  failed : List EventListenerID
  completed : Bool

structure EmitterTasks (Topic Event : Type) where
  emitter : EventEmitter Topic Event
  emissions : List (Emission Topic Event)

inductive EmitterAction (Topic Event : Type) where
  | register (topic : Topic) (eventId : String) (id : EventListenerID)
  | cancel (topic : Topic) (eventId : String) (id : EventListenerID)
  | drop (channel : Nat)
  | recv (channel : Nat)
  | emit (task : Nat) (topic : Topic) (eventId : String) (event : Event)
  | send (emission : Nat) (target : EventListenerID × Nat)
  | complete (emission : Nat)

/-- An emission that has taken its listeners or has ended, an event that was put into a channel
or taken out of it, and a receiver that was dropped. -/
inductive EmitterEvent (Event : Type) where
  | emitted (emission task : Nat) (listeners : List Nat)
  | put (emission channel : Nat)
  | completed (emission : Nat)
  | received (channel : Nat) (event : Event)
  | dropped (channel : Nat)

/-- An event that says nothing about emissions. -/
def EmitterEvent.isQuiet {Event : Type} : EmitterEvent Event → Bool
  | .received _ _ | .dropped _ => true
  | _ => false

/-- The channels of the listeners that an emission found. -/
def Emission.listeners {Topic Event : Type} (emission : Emission Topic Event) : List Nat :=
  emission.targets.map Prod.snd

namespace EmitterTasks

variable {Topic Event : Type} [DecidableEq Topic] (debug : Topic → String)

def step (state : EmitterTasks Topic Event) :
    EmitterAction Topic Event → Option (EmitterTasks Topic Event × List (EmitterEvent Event))
  | .register topic eventId id =>
    match state.emitter.register topic eventId id with
    | some (emitter, _) => some ({ state with emitter }, [])
    | none => none
  | .cancel topic eventId id =>
    some ({ state with emitter := state.emitter.remove topic eventId [id] }, [])
  | .drop channel =>
    match state.emitter.channels[channel]? with
    | some ⟨_, true⟩ =>
      some ({ state with emitter := state.emitter.drop channel }, [.dropped channel])
    | _ => none
  | .recv channel =>
    match state.emitter.recv channel with
    | some (event, emitter) => some ({ state with emitter }, [.received channel event])
    | none => none
  | .emit task topic eventId event =>
    if state.emissions.any fun emission => emission.task == task && !emission.completed then none
    else
      match state.emitter.send debug topic eventId with
      | .error _ => some (state, [])
      | .ok targets =>
        some ({ state with
                emissions := state.emissions ++ [{ task, topic, eventId, event, targets,
                                                   pending := targets, failed := [],
                                                   completed := false }] },
          [.emitted state.emissions.length task (targets.map Prod.snd)])
  | .send emission target =>
    match state.emissions[emission]? with
    | some self =>
      if self.pending.contains target then
        match trySend state.emitter.listenerBufferSize state.emitter.channels target.2 self.event
          with
        | .sent channels =>
          some ({ emitter := { state.emitter with channels }
                  emissions := state.emissions.set emission
                    { self with pending := self.pending.erase target } },
            [.put emission target.2])
        | .full => none
        | .closed =>
          some ({ state with
                  emissions := state.emissions.set emission
                    { self with
                      pending := self.pending.erase target
                      failed := self.failed ++ [target.1] } }, [])
      else none
    | none => none
  | .complete emission =>
    match state.emissions[emission]? with
    | some self =>
      if self.pending.isEmpty && !self.completed then
        some ({ emitter :=
                  if self.failed.isEmpty then state.emitter
                  else state.emitter.remove self.topic self.eventId self.failed
                emissions := state.emissions.set emission { self with completed := true } },
          [.completed emission])
      else none
    | none => none

end EmitterTasks

/-- An emitter with channels of this size, before anything is registered or emitted. -/
def emitterMachine {Topic Event : Type} [DecidableEq Topic] (debug : Topic → String)
    (size : Nat) : Machine (EmitterTasks Topic Event) (EmitterAction Topic Event)
      (EmitterEvent Event) where
  start := { emitter := { EventEmitter.new with listenerBufferSize := size }, emissions := [] }
  step := EmitterTasks.step debug

/-! ### What one step can do -/

namespace EmitterTasks

variable {Topic Event : Type} [DecidableEq Topic] {debug : Topic → String}
  {state next : EmitterTasks Topic Event} {action : EmitterAction Topic Event}
  {history events : List (EmitterEvent Event)}

/-- The steps, each with the state that it needs. -/
inductive Effect (debug : Topic → String) (state : EmitterTasks Topic Event) :
    EmitterTasks Topic Event → List (EmitterEvent Event) → Prop
  | idle : Effect debug state state []
  | registers {topic : Topic} {eventId : String} {id : EventListenerID}
      {emitter : EventEmitter Topic Event} {channel : Nat}
      (done : state.emitter.register topic eventId id = some (emitter, channel)) :
      Effect debug state { state with emitter } []
  | removes (topic : Topic) (eventId : String) (ids : List EventListenerID) :
      Effect debug state { state with emitter := state.emitter.remove topic eventId ids } []
  | drops {channel : Nat} {queue : List Event}
      (found : state.emitter.channels[channel]? = some ⟨queue, true⟩) :
      Effect debug state { state with emitter := state.emitter.drop channel } [.dropped channel]
  | receives {channel : Nat} {event : Event} {queue : List Event}
      (found : state.emitter.channels[channel]? = some ⟨event :: queue, true⟩) :
      Effect debug state
        { state with
          emitter := { state.emitter with
            channels := state.emitter.channels.set channel ⟨queue, true⟩ } }
        [.received channel event]
  | emits {task : Nat} {topic : Topic} {eventId : String} {event : Event}
      {targets : List (EventListenerID × Nat)}
      (free : ∀ emission ∈ state.emissions, emission.task = task → emission.completed = true)
      (sent : state.emitter.send debug topic eventId = .ok targets) :
      Effect debug state
        { state with
          emissions := state.emissions ++ [{ task, topic, eventId, event, targets,
                                             pending := targets, failed := [],
                                             completed := false }] }
        [.emitted state.emissions.length task (targets.map Prod.snd)]
  | sends {emission : Nat} {self : Emission Topic Event} {target : EventListenerID × Nat}
      {queue : List Event} (found : state.emissions[emission]? = some self)
      (awaited : target ∈ self.pending)
      (room : state.emitter.channels[target.2]? = some ⟨queue, true⟩) :
      Effect debug state
        { emitter := { state.emitter with
            channels := state.emitter.channels.set target.2 ⟨queue ++ [self.event], true⟩ }
          emissions := state.emissions.set emission
            { self with pending := self.pending.erase target } }
        [.put emission target.2]
  | fails {emission : Nat} {self : Emission Topic Event} {target : EventListenerID × Nat}
      (found : state.emissions[emission]? = some self) (awaited : target ∈ self.pending)
      (closed : ∀ queue, state.emitter.channels[target.2]? ≠ some ⟨queue, true⟩) :
      Effect debug state
        { state with
          emissions := state.emissions.set emission
            { self with
              pending := self.pending.erase target
              failed := self.failed ++ [target.1] } } []
  | completes {emission : Nat} {self : Emission Topic Event} {emitter : EventEmitter Topic Event}
      (found : state.emissions[emission]? = some self) (ended : self.pending = [])
      (kept : emitter = state.emitter ∨
        emitter = state.emitter.remove self.topic self.eventId self.failed) :
      Effect debug state
        { emitter
          emissions := state.emissions.set emission { self with completed := true } }
        [.completed emission]

theorem step_effect (stepped : state.step debug action = some (next, events)) :
    Effect debug state next events := by
  revert stepped
  fun_cases step debug state action
  all_goals rintro ⟨⟩
  next done => exact .registers done
  next topic eventId id => exact .removes topic eventId [id]
  next found => exact .drops found
  next taken =>
    revert taken
    fun_cases EventEmitter.recv <;> rintro ⟨⟩
    next found => exact .receives found
  next => exact .idle
  next busy targets sent =>
    refine .emits (fun emission member same => ?_) sent
    by_contra running
    refine busy (List.any_eq_true.mpr ⟨emission, member, ?_⟩)
    rw [Bool.not_eq_true] at running
    simp only [same, running, beq_self_eq_true, Bool.not_false, Bool.and_self]
  next found awaited channels sent =>
    revert sent
    fun_cases trySend <;> rintro ⟨⟩
    next room _ => exact .sends found (List.contains_iff_mem.mp awaited) room
  next found awaited closed =>
    refine .fails found (List.contains_iff_mem.mp awaited) fun queue isOpen => ?_
    rw [trySend, isOpen] at closed
    simp only at closed
    split at closed <;> cases closed
  next found ready =>
    obtain ⟨ended, _⟩ := Bool.and_eq_true_iff.mp ready
    refine .completes found (List.isEmpty_iff.mp ended) ?_
    split
    · exact Or.inl rfl
    · exact Or.inr rfl

end EmitterTasks

/-! ### What the history says about a channel -/

section History

variable {Event : Type}

/-- The emissions whose events were put into a channel, in this order. -/
def delivered (channel : Nat) (history : List (EmitterEvent Event)) : List Nat :=
  history.filterMap fun
    | .put emission target => if target = channel then some emission else none
    | _ => none

/-- The events that were taken out of a channel, in this order. -/
def takenOut (channel : Nat) (history : List (EmitterEvent Event)) : List Event :=
  history.filterMap fun
    | .received source event => if source = channel then some event else none
    | _ => none

variable {history events : List (EmitterEvent Event)} {channel : Nat}

theorem delivered_append :
    delivered channel (history ++ events) = delivered channel history ++ delivered channel events :=
  List.filterMap_append

theorem takenOut_append :
    takenOut channel (history ++ events) = takenOut channel history ++ takenOut channel events :=
  List.filterMap_append

theorem delivered_put (emission target : Nat) :
    delivered channel [(.put emission target : EmitterEvent Event)] =
      if target = channel then [emission] else [] := by
  by_cases same : target = channel
  · simp only [delivered, List.filterMap_cons, if_pos same, List.filterMap_nil]
  · simp only [delivered, List.filterMap_cons, if_neg same, List.filterMap_nil]

theorem takenOut_received (source : Nat) (event : Event) :
    takenOut channel [.received source event] = if source = channel then [event] else [] := by
  by_cases same : source = channel
  · simp only [takenOut, List.filterMap_cons, if_pos same, List.filterMap_nil]
  · simp only [takenOut, List.filterMap_cons, if_neg same, List.filterMap_nil]

/-- One item stands before another when one more is added, or the other is the new one. -/
theorem pair_sublist_concat {Item : Type} {items : List Item} {first second last : Item}
    (within : [first, second].Sublist (items ++ [last])) :
    [first, second].Sublist items ∨ second = last ∧ first ∈ items := by
  obtain ⟨front, back, split, inFront, inBack⟩ := List.sublist_append_iff.mp within
  match front, split with
  | [], split =>
    obtain rfl : [first, second] = back := split
    have short := inBack.length_le
    simp only [List.length_cons, List.length_nil] at short
    omega
  | [_], split =>
    obtain ⟨rfl, rfl⟩ := List.cons.inj split
    exact Or.inr ⟨List.mem_singleton.mp (List.singleton_sublist.mp inBack),
      List.singleton_sublist.mp inFront⟩
  | [_, _], split =>
    obtain ⟨rfl, rest⟩ := List.cons.inj split
    obtain ⟨rfl, rest⟩ := List.cons.inj rest
    exact Or.inl inFront

/-- One item stands before another when more are added that the other is not among. -/
theorem pair_sublist_append {Item : Type} {items more : List Item} {first second : Item}
    (within : [first, second].Sublist (items ++ more)) (absent : second ∉ more) :
    [first, second].Sublist items := by
  obtain ⟨front, back, split, inFront, inBack⟩ := List.sublist_append_iff.mp within
  rcases List.eq_nil_or_concat back with rfl | ⟨others, last, rfl⟩
  · rw [List.append_nil] at split
    exact split ▸ inFront
  · rw [List.concat_eq_append, ← List.append_assoc] at split
    have same : second = last := by
      have lasts := congrArg List.getLast? split
      rw [List.getLast?_concat] at lasts
      exact Option.some.inj lasts
    refine absurd (inBack.subset ?_) absent
    rw [List.concat_eq_append, same]
    exact List.mem_concat_self

end History

/-! ### What the emitter keeps -/

namespace EmitterTasks

variable {Topic Event : Type} [DecidableEq Topic] (history : List (EmitterEvent Event))

/-- What is known of an emission: the sends that it awaits, and what became of the others. -/
structure Progress (channels : Nat) (emission : Nat) (known : Emission Topic Event) : Prop where
  announced : .emitted emission known.task known.listeners ∈ history
  awaited : ∀ target ∈ known.pending, target ∈ known.targets
  once : known.pending.Nodup
  distinct : ∀ first ∈ known.targets, ∀ second ∈ known.targets, first.2 = second.2 → first = second
  bounded : ∀ target ∈ known.targets, target.2 < channels
  each : ∀ target ∈ known.targets, target ∈ known.pending ∨
    emission ∈ delivered target.2 history ∨ .dropped target.2 ∈ history
  unsent : ∀ target ∈ known.pending, emission ∉ delivered target.2 history
  ended : known.completed = true → known.pending = []

def eventOf (emissions : List (Emission Topic Event)) (emission : Nat) : Option Event :=
  emissions[emission]?.map Emission.event

/-- An emission ends when its event was put into the channels of all its listeners whose receivers
are there. -/
def justifies : EmitterEvent Event → Prop
  | .completed emission => ∃ task listeners, .emitted emission task listeners ∈ history ∧
      ∀ channel ∈ listeners, emission ∈ delivered channel history ∨ .dropped channel ∈ history
  | _ => True

structure Tracked (state : EmitterTasks Topic Event) : Prop where
  wired : state.emitter.Wired
  alive : ∀ (channel : Nat) (found : Channel Event), state.emitter.channels[channel]? = some found →
    found.isOpen = false → .dropped channel ∈ history
  numbered : ∀ emission task listeners, .emitted emission task listeners ∈ history →
    ∃ self, state.emissions[emission]? = some self ∧ self.task = task ∧ self.listeners = listeners
  progress : ∀ emission self, state.emissions[emission]? = some self →
    Progress history state.emitter.channels.length emission self
  owned : ∀ channel emission, emission ∈ delivered channel history →
    ∃ self, state.emissions[emission]? = some self ∧ channel ∈ self.listeners
  once : ∀ channel, (delivered channel history).Nodup
  sequential : ∀ first second task listeners others,
    [.emitted first task listeners, .emitted second task others].Sublist history →
    ∃ self, state.emissions[first]? = some self ∧ self.completed = true
  ordered : ∀ first second task listeners others,
    [.emitted first task listeners, .emitted second task others].Sublist history →
    ∀ channel, first ∈ delivered channel history → second ∈ delivered channel history →
      [first, second].Sublist (delivered channel history)
  within : ∀ channel event, .received channel event ∈ history →
    channel < state.emitter.channels.length
  contents : ∀ channel queue, state.emitter.channels[channel]? = some ⟨queue, true⟩ →
    takenOut channel history ++ queue =
      (delivered channel history).filterMap (eventOf state.emissions)
  justified : Justified justifies history

variable {debug : Topic → String} {state next : EmitterTasks Topic Event}
  {history events : List (EmitterEvent Event)} {emission : Nat} {self : Emission Topic Event}

omit [DecidableEq Topic] in
/-- What is known of an emission stays when its event is put nowhere else. -/
theorem Progress.later {channels more : Nat} (progress : Progress history channels emission self)
    (silent : ∀ channel, emission ∉ delivered channel events) (fewer : channels ≤ more) :
    Progress (history ++ events) more emission self where
  announced := List.mem_append_left _ progress.announced
  awaited := progress.awaited
  once := progress.once
  distinct := progress.distinct
  bounded target member := Nat.lt_of_lt_of_le (progress.bounded target member) fewer
  each target member := by
    rw [delivered_append, List.mem_append, List.mem_append]
    exact (progress.each target member).imp_right (Or.imp Or.inl Or.inl)
  unsent target member := by
    rw [delivered_append, List.mem_append, not_or]
    exact ⟨progress.unsent target member, silent target.2⟩
  ended := progress.ended

omit [DecidableEq Topic] in
/-- A send ends: its target is served by the new events, or its receiver was dropped. -/
theorem Progress.erase {channels : Nat} {target : EventListenerID × Nat}
    (progress : Progress history channels emission self) (awaited : target ∈ self.pending)
    (served : emission ∈ delivered target.2 (history ++ events) ∨
      .dropped target.2 ∈ history ++ events)
    (silent : ∀ channel ≠ target.2, emission ∉ delivered channel events)
    (failed : List EventListenerID) :
    Progress (history ++ events) channels emission
      { self with pending := self.pending.erase target, failed } where
  announced := List.mem_append_left _ progress.announced
  awaited other member := progress.awaited other (List.mem_of_mem_erase member)
  once := progress.once.erase target
  distinct := progress.distinct
  bounded := progress.bounded
  each other member := by
    by_cases own : other = target
    · exact Or.inr (own ▸ served)
    · rw [delivered_append, List.mem_append, List.mem_append]
      exact (progress.each other member).imp (List.mem_erase_of_ne own).mpr
        (Or.imp Or.inl Or.inl)
  unsent other member := by
    obtain ⟨different, pending⟩ := progress.once.mem_erase_iff.mp member
    rw [delivered_append, List.mem_append, not_or]
    refine ⟨progress.unsent other pending, silent other.2 fun equal => different ?_⟩
    exact progress.distinct other (progress.awaited other pending) target
      (progress.awaited target awaited) equal
  ended completed := by
    rw [progress.ended completed] at awaited
    cases awaited

namespace Tracked

theorem start (debug : Topic → String) (size : Nat) :
    Tracked [] (emitterMachine debug size : Machine (EmitterTasks Topic Event) _ _).start where
  wired := ⟨nofun, nofun⟩
  alive := nofun
  numbered := nofun
  progress := nofun
  owned := nofun
  once _ := List.nodup_nil
  sequential := nofun
  ordered := nofun
  within := nofun
  contents := nofun
  justified := .nil

variable {emitter : EventEmitter Topic Event} {queue : List Event}

section

variable (tracked : Tracked history state)

include tracked

theorem quiet (silent : ∀ event ∈ events, event.isQuiet = true)
    (wired : emitter.Wired) (more : state.emitter.channels.length ≤ emitter.channels.length)
    (alive : ∀ (channel : Nat) (found : Channel Event), emitter.channels[channel]? = some found →
      found.isOpen = false → .dropped channel ∈ history ++ events)
    (within : ∀ channel event, .received channel event ∈ events →
      channel < emitter.channels.length)
    (contents : ∀ channel queue, emitter.channels[channel]? = some ⟨queue, true⟩ →
      takenOut channel (history ++ events) ++ queue =
        (delivered channel history).filterMap (eventOf state.emissions)) :
    Tracked (history ++ events) { state with emitter } := by
  have unmarked (emission task : Nat) (listeners : List Nat) :
      .emitted emission task listeners ∉ events := fun member =>
    Bool.noConfusion (silent _ member)
  have undelivered (channel : Nat) : delivered channel events = [] := by
    refine List.filterMap_eq_nil_iff.mpr fun event member => ?_
    have isQuiet := silent event member
    cases event with
    | put emission target => cases isQuiet
    | _ => rfl
  have same (channel : Nat) :
      delivered channel (history ++ events) = delivered channel history := by
    rw [delivered_append, undelivered, List.append_nil]
  refine
    { wired, alive
      numbered := fun emission task listeners member => ?_
      progress := fun emission self found => ?_
      owned := fun channel emission member => ?_
      once := fun channel => ?_
      sequential := fun first second task listeners others pair =>
        tracked.sequential first second task listeners others
          (pair_sublist_append pair (unmarked _ _ _))
      ordered := fun first second task listeners others pair channel => ?_
      within := fun channel event member => ?_
      contents := fun channel queue found => ?_
      justified := tracked.justified.append fun event member before => ?_ }
  · exact tracked.numbered emission task listeners
      ((List.mem_append.mp member).resolve_right (unmarked _ _ _))
  · refine (tracked.progress emission self found).later (fun channel => ?_) more
    rw [undelivered]
    exact List.not_mem_nil
  · rw [same] at member
    exact tracked.owned channel emission member
  · rw [same]
    exact tracked.once channel
  · rw [same]
    exact tracked.ordered first second task listeners others
      (pair_sublist_append pair (unmarked _ _ _)) channel
  · rcases List.mem_append.mp member with old | new
    · exact Nat.lt_of_lt_of_le (tracked.within channel event old) more
    · exact within channel event new
  · rw [same]
    exact contents channel queue found
  · have isQuiet := silent event member
    cases event with
    | completed emission => cases isQuiet
    | _ => exact trivial

theorem undelivered (channel : Nat) :
    state.emissions.length ∉ delivered channel history := by
  intro member
  obtain ⟨self, found, _⟩ := tracked.owned channel _ member
  rw [List.getElem?_eq_none (Nat.le_refl _)] at found
  cases found

theorem emits {task : Nat} {topic : Topic} {eventId : String}
    {event : Event} {targets : List (EventListenerID × Nat)}
    (free : ∀ emission ∈ state.emissions, emission.task = task → emission.completed = true)
    (sent : state.emitter.send debug topic eventId = .ok targets) :
    Tracked (history ++ [.emitted state.emissions.length task (targets.map Prod.snd)])
      { state with
        emissions := state.emissions ++ [{ task, topic, eventId, event, targets,
                                           pending := targets, failed := [],
                                           completed := false }] } := by
  obtain ⟨registered, distinctIds⟩ := EventEmitter.send_targets sent
  have same (channel : Nat) :
      delivered channel (history ++ [.emitted state.emissions.length task (targets.map Prod.snd)]) =
        delivered channel history := by
    rw [delivered_append]
    exact List.append_nil _
  have kept {emission : Nat} {self last : Emission Topic Event}
      (found : state.emissions[emission]? = some self) :
      (state.emissions ++ [last])[emission]? = some self :=
    Indexed.concat_eq_some.mpr (Or.inl found)
  refine
    { wired := tracked.wired
      alive := fun channel found isChannel closed =>
        List.mem_append_left _ (tracked.alive channel found isChannel closed)
      numbered := fun emission other listeners member => ?_
      progress := fun emission self found => ?_
      owned := fun channel emission member => ?_
      once := fun channel => ?_
      sequential := fun first second other listeners others pair => ?_
      ordered := fun first second other listeners others pair channel inFirst inSecond => ?_
      within := fun channel event member => ?_
      contents := fun channel queue found => ?_
      justified := tracked.justified.concat trivial }
  · rcases mem_concat.mp member with old | ⟨⟨⟩⟩
    · obtain ⟨self, found, known⟩ := tracked.numbered emission other listeners old
      exact ⟨self, kept found, known⟩
    · exact ⟨_, List.getElem?_concat_length, rfl, rfl⟩
  · rcases Indexed.concat_eq_some.mp found with old | ⟨rfl, rfl⟩
    · exact (tracked.progress emission self old).later (fun _ => List.not_mem_nil) (Nat.le_refl _)
    · refine ⟨List.mem_concat_self, fun _ member => member,
        distinctIds.of_map, ?_, ?_, fun _ member => Or.inl member, fun target member => ?_, nofun⟩
      · rintro ⟨first, channel⟩ isFirst ⟨second, other⟩ isSecond (rfl : channel = other)
        have sameId := tracked.wired.distinct topic eventId first second channel
          ((registered first channel).mp isFirst) ((registered second channel).mp isSecond)
        rw [sameId]
      · rintro ⟨id, channel⟩ member
        exact tracked.wired.bounded topic eventId id channel ((registered id channel).mp member)
      · rw [same]
        exact tracked.undelivered target.2
  · rw [same] at member
    obtain ⟨self, found, listed⟩ := tracked.owned channel emission member
    exact ⟨self, kept found, listed⟩
  · rw [same]
    exact tracked.once channel
  · rcases pair_sublist_concat pair with old | ⟨new, earlier⟩
    · obtain ⟨self, found, completed⟩ := tracked.sequential first second other listeners others old
      exact ⟨self, kept found, completed⟩
    · cases new
      obtain ⟨self, found, itsTask, _⟩ := tracked.numbered first task listeners earlier
      exact ⟨self, kept found, free self (List.mem_of_getElem? found) itsTask⟩
  · rw [same] at inFirst inSecond ⊢
    rcases pair_sublist_concat pair with old | ⟨new, _⟩
    · exact tracked.ordered first second other listeners others old channel inFirst inSecond
    · cases new
      exact absurd inSecond (tracked.undelivered channel)
  · rcases mem_concat.mp member with old | ⟨⟨⟩⟩
    exact tracked.within channel event old
  · rw [same, takenOut_append]
    have content := tracked.contents channel queue found
    rw [show takenOut channel [(.emitted state.emissions.length task (targets.map Prod.snd) :
      EmitterEvent Event)] = [] from rfl, List.append_nil, content]
    refine List.filterMap_congr fun emission member => ?_
    obtain ⟨self, isSelf, _⟩ := tracked.owned channel emission member
    rw [eventOf, eventOf, isSelf, kept isSelf]

/-- An emission goes on: its event may be put into the channel of a listener whose send it awaits,
and it may end. -/
theorem advance (found : state.emissions[emission]? = some self)
    (after : Emission Topic Event) (events : List (EmitterEvent Event))
    (task : after.task = self.task) (targets : after.targets = self.targets)
    (event : after.event = self.event) (keeps : self.completed = true → after.completed = true)
    (wired : emitter.Wired) (same : emitter.channels.length = state.emitter.channels.length)
    (alive : ∀ (channel : Nat) (channelFound : Channel Event),
      emitter.channels[channel]? = some channelFound → channelFound.isOpen = false →
      .dropped channel ∈ history)
    (unmarked : ∀ other task listeners, .emitted other task listeners ∉ events)
    (untaken : ∀ channel event, .received channel event ∉ events)
    (only : ∀ channel other, other ∈ delivered channel events → other = emission ∧
      self.completed = false ∧ channel ∈ self.listeners)
    (once : ∀ channel, (delivered channel (history ++ events)).Nodup)
    (progress : Progress (history ++ events) state.emitter.channels.length emission after)
    (contents : ∀ channel queue, emitter.channels[channel]? = some ⟨queue, true⟩ →
      takenOut channel history ++ queue =
        (delivered channel (history ++ events)).filterMap (eventOf state.emissions))
    (justified : Justified justifies (history ++ events)) :
    Tracked (history ++ events) { emitter, emissions := state.emissions.set emission after } := by
  have placed {other : Nat} {known : Emission Topic Event}
      (isKnown : state.emissions[other]? = some known) :
      ∃ later, (state.emissions.set emission after)[other]? = some later ∧
        later.task = known.task ∧ later.listeners = known.listeners ∧ later.event = known.event ∧
        (known.completed = true → later.completed = true) := by
    by_cases own : other = emission
    · subst own
      cases found.symm.trans isKnown
      exact ⟨after, (Indexed.set_eq_some found).mpr (Or.inl ⟨rfl, rfl⟩), task,
        congrArg (List.map Prod.snd) targets, event, keeps⟩
    · exact ⟨known, (Indexed.set_eq_some found).mpr (Or.inr ⟨own, isKnown⟩), rfl, rfl, rfl, id⟩
  have sameEvents : eventOf (state.emissions.set emission after) = eventOf state.emissions := by
    funext other
    rw [eventOf, eventOf]
    by_cases own : other = emission
    · rw [own, found, (Indexed.set_eq_some found).mpr (Or.inl ⟨rfl, rfl⟩), Option.map_some, event,
        Option.map_some]
    · rw [List.getElem?_set_ne (Ne.symm own)]
  refine
    { wired
      alive := fun channel isChannel itsFound closed =>
        List.mem_append_left _ (alive channel isChannel itsFound closed)
      numbered := fun other itsTask listeners member => ?_
      progress := fun other known isKnown => ?_
      owned := fun channel other member => ?_
      once
      sequential := fun first second itsTask listeners others pair => ?_
      ordered := fun first second itsTask listeners others pair channel inFirst inSecond => ?_
      within := fun channel taken member => ?_
      contents := fun channel queue itsFound => ?_
      justified }
  · have old := (List.mem_append.mp member).resolve_right (unmarked other itsTask listeners)
    obtain ⟨known, isKnown, rfl, rfl⟩ := tracked.numbered other itsTask listeners old
    obtain ⟨later, isLater, sameTask, sameListeners, _⟩ := placed isKnown
    exact ⟨later, isLater, sameTask, sameListeners⟩
  · show Progress _ emitter.channels.length other known
    rw [same]
    rcases (Indexed.set_eq_some found).mp isKnown with ⟨rfl, rfl⟩ | ⟨different, old⟩
    · exact progress
    · exact (tracked.progress other known old).later
        (fun channel member => different (only channel other member).1) (Nat.le_refl _)
  · rw [delivered_append, List.mem_append] at member
    rcases member with old | new
    · obtain ⟨known, isKnown, listed⟩ := tracked.owned channel other old
      obtain ⟨later, isLater, _, sameListeners, _⟩ := placed isKnown
      exact ⟨later, isLater, sameListeners ▸ listed⟩
    · obtain ⟨rfl, _, listed⟩ := only channel other new
      obtain ⟨later, isLater, _, sameListeners, _⟩ := placed found
      exact ⟨later, isLater, sameListeners ▸ listed⟩
  · obtain ⟨known, isKnown, completed⟩ := tracked.sequential first second itsTask listeners others
      (pair_sublist_append pair (unmarked _ _ _))
    obtain ⟨later, isLater, _, _, _, stays⟩ := placed isKnown
    exact ⟨later, isLater, stays completed⟩
  · have old := pair_sublist_append pair (unmarked _ _ _)
    rw [delivered_append, List.mem_append] at inFirst inSecond
    rw [delivered_append]
    rcases inFirst with firstOld | firstNew
    · rcases inSecond with secondOld | secondNew
      · exact (tracked.ordered first second itsTask listeners others old channel firstOld
          secondOld).trans (List.sublist_append_left _ _)
      · exact (List.singleton_sublist.mpr firstOld).append (List.singleton_sublist.mpr secondNew)
    · -- A task emits again only after its emission has ended, so the first one puts nothing more.
      obtain ⟨rfl, running, _⟩ := only channel first firstNew
      obtain ⟨known, isKnown, completed⟩ :=
        tracked.sequential first second itsTask listeners others old
      cases found.symm.trans isKnown
      rw [running] at completed
      cases completed
  · show channel < emitter.channels.length
    rw [same]
    exact tracked.within channel taken ((List.mem_append.mp member).resolve_right (untaken _ _))
  · have nothing : takenOut channel events = [] := by
      refine List.filterMap_eq_nil_iff.mpr fun other member => ?_
      cases other with
      | received source value => exact absurd member (untaken source value)
      | _ => rfl
    rw [takenOut_append, nothing, List.append_nil, sameEvents]
    exact contents channel queue itsFound

variable {target : EventListenerID × Nat}

section

variable (found : state.emissions[emission]? = some self)

include found

/-- A send puts the event of an emission behind what is in the channel. -/
theorem sends (awaited : target ∈ self.pending)
    (room : state.emitter.channels[target.2]? = some ⟨queue, true⟩) :
    Tracked (history ++ [.put emission target.2])
      { emitter := { state.emitter with
          channels := state.emitter.channels.set target.2 ⟨queue ++ [self.event], true⟩ }
        emissions := state.emissions.set emission
          { self with pending := self.pending.erase target } } := by
  have progress := tracked.progress emission self found
  have new (channel : Nat) : delivered channel [(.put emission target.2 : EmitterEvent Event)] =
      if target.2 = channel then [emission] else [] := delivered_put emission target.2
  have length : (state.emitter.channels.set target.2 ⟨queue ++ [self.event], true⟩).length =
      state.emitter.channels.length := List.length_set
  refine tracked.advance found { self with pending := self.pending.erase target }
    [.put emission target.2] rfl rfl rfl id (tracked.wired.withChannels length) length ?_ ?_ ?_ ?_
    ?_ ?_ ?_ (tracked.justified.concat trivial)
  · intro channel isChannel itsFound closed
    rcases (Indexed.set_eq_some room).mp itsFound with ⟨_, rfl⟩ | ⟨_, old⟩
    · cases closed
    · exact tracked.alive channel isChannel old closed
  · intro other task listeners member
    cases List.mem_singleton.mp member
  · intro channel event member
    cases List.mem_singleton.mp member
  · intro channel other member
    rw [new] at member
    split at member
    · rename_i same
      refine ⟨List.mem_singleton.mp member, ?_, ?_⟩
      · refine Bool.eq_false_iff.mpr fun completed => ?_
        rw [progress.ended completed] at awaited
        cases awaited
      · exact List.mem_map.mpr ⟨target, progress.awaited target awaited, same⟩
    · cases member
  · intro channel
    rw [delivered_append, new]
    split
    · rename_i same
      rw [← List.concat_eq_append]
      exact (tracked.once channel).concat (same ▸ progress.unsent target awaited)
    · rw [List.append_nil]
      exact tracked.once channel
  · refine progress.erase awaited (Or.inl ?_) (fun channel apart => ?_) self.failed
    · rw [delivered_append, new, if_pos rfl]
      exact List.mem_concat_self
    · rw [new, if_neg apart.symm]
      exact List.not_mem_nil
  · intro channel content itsFound
    have event : eventOf state.emissions emission = some self.event := by
      rw [eventOf, found]
      rfl
    rw [delivered_append, new, List.filterMap_append]
    rcases (Indexed.set_eq_some room).mp itsFound with ⟨rfl, same⟩ | ⟨different, old⟩
    · cases same
      rw [if_pos rfl, ← tracked.contents target.2 queue room, List.append_assoc,
        List.filterMap_cons, event]
      rfl
    · rw [if_neg (Ne.symm different), List.filterMap_nil, List.append_nil]
      exact tracked.contents channel content old

/-- A send that fails was to a listener whose receiver was dropped. -/
theorem fails (awaited : target ∈ self.pending)
    (closed : ∀ queue, state.emitter.channels[target.2]? ≠ some ⟨queue, true⟩) :
    Tracked (history ++ [])
      { state with
        emissions := state.emissions.set emission
          { self with
            pending := self.pending.erase target
            failed := self.failed ++ [target.1] } } := by
  have progress := tracked.progress emission self found
  have gone : .dropped target.2 ∈ history := by
    have inside := progress.bounded target (progress.awaited target awaited)
    cases isChannel : state.emitter.channels[target.2]? with
    | none => exact absurd (List.getElem?_eq_none_iff.mp isChannel) (Nat.not_le.mpr inside)
    | some channel =>
      obtain ⟨queue, isOpen⟩ := channel
      cases isOpen with
      | true => exact absurd isChannel (closed queue)
      | false => exact tracked.alive target.2 ⟨queue, false⟩ isChannel rfl
  refine tracked.advance found
    { self with pending := self.pending.erase target, failed := self.failed ++ [target.1] } [] rfl
    rfl rfl id tracked.wired rfl tracked.alive (fun _ _ _ => List.not_mem_nil)
    (fun _ _ => List.not_mem_nil) (fun _ _ member => absurd member List.not_mem_nil) ?_
    (progress.erase awaited (Or.inr (List.mem_append_left _ gone)) (fun _ _ => List.not_mem_nil) _)
    ?_ ?_ <;> rw [List.append_nil]
  · exact tracked.once
  · exact tracked.contents
  · exact tracked.justified

theorem completes (ended : self.pending = []) (kept : emitter = state.emitter ∨
      emitter = state.emitter.remove self.topic self.eventId self.failed) :
    Tracked (history ++ [.completed emission])
      { emitter, emissions := state.emissions.set emission { self with completed := true } } := by
  have progress := tracked.progress emission self found
  have wired : emitter.Wired := by
    rcases kept with rfl | rfl
    · exact tracked.wired
    · exact tracked.wired.remove self.topic self.eventId self.failed
  have channels : emitter.channels = state.emitter.channels := by
    rcases kept with rfl | rfl <;> rfl
  have unchanged (channel : Nat) :
      delivered channel (history ++ [.completed emission]) = delivered channel history := by
    rw [delivered_append]
    exact List.append_nil _
  have justified : Justified justifies (history ++ [.completed emission]) := by
    refine tracked.justified.concat ⟨_, _, progress.announced, fun channel listed => ?_⟩
    obtain ⟨target, isTarget, rfl⟩ := List.mem_map.mp listed
    refine (progress.each target isTarget).resolve_left fun pending => ?_
    rw [ended] at pending
    cases pending
  refine tracked.advance found { self with completed := true } [.completed emission] rfl rfl rfl
    (fun _ => rfl) wired (congrArg List.length channels) ?_ ?_ ?_ ?_ ?_ ?_ ?_ justified
  · rw [channels]
    exact tracked.alive
  · intro other task listeners member
    cases List.mem_singleton.mp member
  · intro channel event member
    cases List.mem_singleton.mp member
  · intro channel other member
    cases member
  · intro channel
    rw [unchanged]
    exact tracked.once channel
  · have later : Progress (history ++ [.completed emission]) _ emission self :=
      progress.later (fun _ => List.not_mem_nil) (Nat.le_refl _)
    exact ⟨later.announced, later.awaited, later.once, later.distinct, later.bounded, later.each,
      later.unsent, fun _ => ended⟩
  · intro channel queue isChannel
    rw [unchanged]
    rw [channels] at isChannel
    exact tracked.contents channel queue isChannel

end

theorem registers {topic : Topic} {eventId : String} {id : EventListenerID} {channel : Nat}
    (done : state.emitter.register topic eventId id = some (emitter, channel)) :
    Tracked (history ++ []) { state with emitter } := by
  obtain ⟨_, channels, _⟩ := EventEmitter.register_spec done
  refine tracked.quiet (fun _ member => absurd member List.not_mem_nil)
    (tracked.wired.register done) ?_ ?_ (fun _ _ member => absurd member List.not_mem_nil) ?_
  · rw [channels, List.length_append]
    exact Nat.le_add_right _ _
  · intro other isChannel itsFound closed
    rw [List.append_nil]
    rw [channels] at itsFound
    rcases Indexed.concat_eq_some.mp itsFound with old | ⟨_, rfl⟩
    · exact tracked.alive other isChannel old closed
    · cases closed
  · intro other queue itsFound
    rw [List.append_nil]
    rw [channels] at itsFound
    rcases Indexed.concat_eq_some.mp itsFound with old | ⟨rfl, same⟩
    · exact tracked.contents other queue old
    · cases same
      have unsent : delivered state.emitter.channels.length history = [] := by
        refine List.eq_nil_iff_forall_not_mem.mpr fun emission member => ?_
        obtain ⟨self, found, listed⟩ := tracked.owned _ emission member
        obtain ⟨target, isTarget, same⟩ := List.mem_map.mp listed
        have bounded := (tracked.progress emission self found).bounded target isTarget
        exact Nat.lt_irrefl _ (same ▸ bounded)
      have untaken : takenOut state.emitter.channels.length history = [] := by
        refine List.filterMap_eq_nil_iff.mpr fun event member => ?_
        cases event with
        | received source value =>
          exact if_neg (Nat.ne_of_lt (tracked.within source value member))
        | _ => rfl
      rw [unsent, untaken]
      rfl

theorem removes (topic : Topic) (eventId : String) (ids : List EventListenerID) :
    Tracked (history ++ [])
      { state with emitter := state.emitter.remove topic eventId ids } := by
  refine tracked.quiet (fun _ member => absurd member List.not_mem_nil)
    (tracked.wired.remove topic eventId ids) (Nat.le_refl _) ?_
    (fun _ _ member => absurd member List.not_mem_nil) ?_
  · intro channel isChannel itsFound closed
    rw [List.append_nil]
    exact tracked.alive channel isChannel itsFound closed
  · rw [List.append_nil]
    exact tracked.contents

/-- A receiver that is dropped takes the contents of its channel with it. -/
theorem drops {channel : Nat} (found : state.emitter.channels[channel]? = some ⟨queue, true⟩) :
    Tracked (history ++ [.dropped channel])
      { state with emitter := state.emitter.drop channel } := by
  have length : (state.emitter.channels.set channel ⟨[], false⟩).length =
      state.emitter.channels.length := List.length_set
  refine tracked.quiet (fun event member => by rw [List.mem_singleton.mp member]; rfl)
    (tracked.wired.withChannels length) (Nat.le_of_eq length.symm) ?_ ?_ ?_
  · intro other isChannel itsFound closed
    rcases (Indexed.set_eq_some found).mp itsFound with ⟨rfl, _⟩ | ⟨_, old⟩
    · exact List.mem_concat_self
    · exact List.mem_append_left _ (tracked.alive other isChannel old closed)
  · intro other event member
    cases List.mem_singleton.mp member
  · intro other content itsFound
    rcases (Indexed.set_eq_some found).mp itsFound with ⟨_, same⟩ | ⟨_, old⟩
    · cases same
    · rw [takenOut_append]
      exact (congrArg (· ++ content) (List.append_nil _)).trans
        (tracked.contents other content old)

theorem receives {channel : Nat} {event : Event}
    (found : state.emitter.channels[channel]? = some ⟨event :: queue, true⟩) :
    Tracked (history ++ [.received channel event])
      { state with
        emitter := { state.emitter with
          channels := state.emitter.channels.set channel ⟨queue, true⟩ } } := by
  have length : (state.emitter.channels.set channel ⟨queue, true⟩).length =
      state.emitter.channels.length := List.length_set
  refine tracked.quiet (fun event member => by rw [List.mem_singleton.mp member]; rfl)
    (tracked.wired.withChannels length) (Nat.le_of_eq length.symm) ?_ ?_ ?_
  · intro other isChannel itsFound closed
    rcases (Indexed.set_eq_some found).mp itsFound with ⟨_, rfl⟩ | ⟨_, old⟩
    · cases closed
    · exact List.mem_append_left _ (tracked.alive other isChannel old closed)
  · intro other taken member
    cases List.mem_singleton.mp member
    show channel < (state.emitter.channels.set channel ⟨queue, true⟩).length
    rw [length]
    exact (List.getElem?_eq_some_iff.mp found).1
  · intro other content itsFound
    rw [takenOut_append, takenOut_received]
    rcases (Indexed.set_eq_some found).mp itsFound with ⟨rfl, same⟩ | ⟨different, old⟩
    · cases same
      rw [if_pos rfl, List.append_assoc]
      exact tracked.contents other (event :: queue) found
    · rw [if_neg (Ne.symm different), List.append_nil]
      exact tracked.contents other content old

theorem step {action : EmitterAction Topic Event}
    (taken : state.step debug action = some (next, events)) :
    Tracked (history ++ events) next := by
  cases step_effect taken with
  | idle =>
    rw [List.append_nil]
    exact tracked
  | registers done => exact tracked.registers done
  | removes topic eventId ids => exact tracked.removes topic eventId ids
  | drops found => exact tracked.drops found
  | receives found => exact tracked.receives found
  | emits free sent => exact tracked.emits free sent
  | sends found awaited room => exact tracked.sends found awaited room
  | fails found awaited closed => exact tracked.fails found awaited closed
  | completes found ended kept => exact tracked.completes found ended kept

end

end Tracked

/-! ### Delivery -/

/-- What is promised of the events. An emission finds the listeners that are registered for its
topic and event type. Its event is put into no other channel, and once it has ended, exactly once
into the channel of every listener that it found and whose receiver was not dropped until then. The
events of a task are put in the order in which they are emitted. What is put into a channel is
taken out of it in the same order. -/
structure Delivers (debug : Topic → String) (history : List (EmitterEvent Event))
    (state : EmitterTasks Topic Event) : Prop where
  found : ∀ task topic eventId event next emission owner listeners,
    state.step debug (.emit task topic eventId event) =
      some (next, [.emitted emission owner listeners]) →
    emission = state.emissions.length ∧ owner = task ∧ ∀ channel, channel ∈ listeners ↔
      ∃ id, (state.emitter.registered topic eventId).lookup id = some channel
  others : ∀ emission task listeners, .emitted emission task listeners ∈ history →
    ∀ channel, channel ∉ listeners → emission ∉ delivered channel history
  once : ∀ emission task listeners, .emitted emission task listeners ∈ history →
    ∀ before after, history = before ++ .completed emission :: after →
      ∀ channel ∈ listeners, .dropped channel ∉ before →
        (delivered channel history).count emission = 1
  ordered : ∀ first second task listeners others,
    [.emitted first task listeners, .emitted second task others].Sublist history →
    ∀ channel, first ∈ delivered channel history → second ∈ delivered channel history →
      [first, second].Sublist (delivered channel history)
  contents : ∀ channel queue, state.emitter.channels[channel]? = some ⟨queue, true⟩ →
    takenOut channel history ++ queue =
      (delivered channel history).filterMap (eventOf state.emissions)

theorem Tracked.delivers (tracked : Tracked history state) : Delivers debug history state where
  found task topic eventId event next emission owner listeners taken := by
    obtain ⟨_, taken⟩ := Option.ite_none_left_eq_some.mp taken
    split at taken
    · cases taken
    · rename_i targets sent
      cases taken
      refine ⟨rfl, rfl, fun channel => ?_⟩
      obtain ⟨registered, _⟩ := EventEmitter.send_targets sent
      rw [List.mem_map]
      constructor
      · rintro ⟨⟨id, _⟩, member, rfl⟩
        exact ⟨id, (registered id _).mp member⟩
      · rintro ⟨id, found⟩
        exact ⟨(id, channel), (registered id channel).mpr found, rfl⟩
  others emission task listeners member channel unlisted put := by
    obtain ⟨self, found, _, rfl⟩ := tracked.numbered emission task listeners member
    obtain ⟨known, isKnown, listed⟩ := tracked.owned channel emission put
    cases found.symm.trans isKnown
    exact unlisted listed
  once emission task listeners member before after split channel listed present := by
    have ended : before ++ [.completed emission] <+: history := by
      rw [split]
      exact ⟨after, List.append_assoc _ _ _⟩
    obtain ⟨otherTask, others, announced, each⟩ := tracked.justified before _ ended
    have inHistory : .emitted emission otherTask others ∈ history := by
      rw [split]
      exact List.mem_append_left _ announced
    obtain ⟨self, found, _, rfl⟩ := tracked.numbered emission task listeners member
    obtain ⟨known, isKnown, _, rfl⟩ := tracked.numbered emission otherTask others inHistory
    cases found.symm.trans isKnown
    have put : emission ∈ delivered channel history := by
      rw [split, delivered_append]
      exact List.mem_append_left _ ((each channel listed).resolve_right present)
    exact List.count_eq_one_of_mem (tracked.once channel) put
  ordered := tracked.ordered
  contents := tracked.contents

end EmitterTasks

/-- Every event is delivered as promised, in every run: whoever registers, cancels, drops, receives
and emits, and in whatever order the sends of the emissions end. -/
theorem event_delivery {Topic Event : Type} [DecidableEq Topic] {debug : Topic → String}
    {size : Nat} {history : List (EmitterEvent Event)} {state : EmitterTasks Topic Event}
    (run : (emitterMachine debug size).Run (fun _ _ => True) history state) :
    EmitterTasks.Delivers debug history state := by
  have tracked : EmitterTasks.Tracked history state :=
    run.invariant EmitterTasks.Tracked (EmitterTasks.Tracked.start debug size)
      fun _ _ _ _ _ tracked _ taken => tracked.step taken
  exact tracked.delivers

/-- Two listeners, of which the second is cancelled while the first event is on its way; both get
it, and the first one also gets the second event. -/
theorem event_delivery_two_listeners :
    ∃ (history : List (EmitterEvent Nat)) (state : EmitterTasks Unit Nat),
      (emitterMachine (fun _ => "topic") 1).Run (fun _ _ => True) history state ∧
      delivered 0 history = [0, 1] ∧ delivered 1 history = [0] ∧
      EmitterTasks.Delivers (fun _ => "topic") history state := by
  exact Machine.trace_run
    (fun history _ => delivered 0 history = [0, 1] ∧ delivered 1 history = [0])
    [.register () "event" 5, .register () "event" 6, .emit 0 () "event" 7, .send 0 (6, 1),
      .cancel () "event" 6, .send 0 (5, 0), .complete 0, .recv 0, .emit 0 () "event" 8,
      .send 1 (5, 0), .complete 1] (by decide +kernel)
    fun _ _ run ⟨first, second⟩ => ⟨first, second, event_delivery run⟩

end Karyon.Utils
