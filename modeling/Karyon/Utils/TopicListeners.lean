/-
This file follows the topics of an event emitter, which `unregister_topic` and `clear` also
take out of it.

A removal of listeners leaves their topic in the outer map, and `has_listeners` looks only
there. It is exact until a removal takes the last listener of a topic, and wrong after that
(`has_listeners_exact_iff`).
-/

import Karyon.Utils.EventDelivery

namespace Karyon.Utils

open Transition

namespace EventEmitter

variable {Topic Event : Type} [DecidableEq Topic] (emitter : EventEmitter Topic Event)
  (topic : Topic)

/-- Returns true if the given topic has any registered listeners. -/
def hasListeners : Bool :=
  (emitter.listeners.lookup topic).isSome

/-- Removes all topics and event listeners. -/
def clear : EventEmitter Topic Event :=
  { emitter with listeners := ∅ }

/-- Unregisters all event listeners for the given topic. -/
def unregisterTopic : EventEmitter Topic Event :=
  { emitter with listeners := emitter.listeners.erase topic }

/-- A listener is registered for some event id on the topic. -/
def Listened : Prop :=
  ∃ eventId id channel, (emitter.registered topic eventId).lookup id = some channel

/-- `has_listeners` is right about every topic. -/
def Exact : Prop :=
  ∀ topic, emitter.hasListeners topic = true ↔ emitter.Listened topic

/-- A removal leaves a listener on its topic. -/
def Leaves (topic : Topic) (eventId : String) (ids : List EventListenerID) : Prop :=
  emitter.hasListeners topic = true → (emitter.remove topic eventId ids).Listened topic

variable {emitter} {next : EventEmitter Topic Event} {topic : Topic} {eventId : String}

theorem clear_exact : emitter.clear.Exact := by
  intro topic
  simp [clear, hasListeners, Listened, registered]

variable (exact : emitter.Exact)

include exact

theorem Exact.unregisterTopic : (emitter.unregisterTopic topic).Exact := by
  intro other
  by_cases same : other = topic
  · subst same
    simp [EventEmitter.unregisterTopic, hasListeners, Listened, registered]
  · simpa only [EventEmitter.unregisterTopic, hasListeners, Listened, registered,
      AList.lookup_erase_ne same] using exact other

theorem Exact.register {id : EventListenerID} {channel : Nat}
    (done : emitter.register topic eventId id = some (next, channel)) : next.Exact := by
  intro other
  have listed := lookup_registered_register done topic eventId id
  rw [if_pos ⟨rfl, rfl, rfl⟩] at listed
  obtain ⟨_, ⟨⟩⟩ := Option.ite_none_left_eq_some.mp done
  by_cases same : other = topic
  · subst same
    exact iff_of_true (by simp [hasListeners]) ⟨eventId, id, _, listed⟩
  · simpa only [hasListeners, Listened, registered, AList.lookup_insert_ne same] using exact other

theorem Exact.remove (ids : List EventListenerID) :
    (emitter.remove topic eventId ids).Exact ↔ emitter.Leaves topic eventId ids := by
  have kept (other : Topic) :
      (emitter.remove topic eventId ids).hasListeners other = emitter.hasListeners other := by
    simp only [hasListeners, EventEmitter.remove, HashMap.lookup_modify]
    split
    · exact Option.isSome_map
    · rfl
  constructor
  · intro after present
    exact (after topic).mp ((kept topic).trans present)
  · intro leaves other
    rw [kept]
    constructor
    · intro present
      by_cases same : other = topic
      · subst same
        exact leaves present
      · simpa only [Listened, EventEmitter.remove, registered, HashMap.lookup_modify,
          if_neg same] using (exact other).mp present
    · rintro ⟨otherId, id, channel, found⟩
      exact (exact other).mpr ⟨otherId, id, channel, lookup_registered_of_remove found⟩

end EventEmitter

inductive TopicAction (Topic Event : Type) where
  | task (action : EmitterAction Topic Event)
  | unregisterTopic (topic : Topic)
  | clear

namespace EmitterTasks

variable {Topic Event : Type} [DecidableEq Topic] (debug : Topic → String)
  (state : EmitterTasks Topic Event)

def topicStep :
    TopicAction Topic Event → Option (EmitterTasks Topic Event × List (EmitterEvent Event))
  | .task action => state.step debug action
  | .unregisterTopic topic =>
    some ({ state with emitter := state.emitter.unregisterTopic topic }, [])
  | .clear => some ({ state with emitter := state.emitter.clear }, [])

/-- A cancellation, or the end of an emission with failed sends, leaves a listener on its topic. -/
def Leaves : TopicAction Topic Event → Prop
  | .task (.cancel topic eventId id) => state.emitter.Leaves topic eventId [id]
  | .task (.complete emission) =>
    ∀ self ∈ state.emissions[emission]?, self.failed ≠ [] →
      state.emitter.Leaves self.topic self.eventId self.failed
  | _ => True

variable {debug state} {next : EmitterTasks Topic Event} {action : TopicAction Topic Event}
  {events : List (EmitterEvent Event)}

theorem topicStep_exact (exact : state.emitter.Exact)
    (stepped : state.topicStep debug action = some (next, events)) :
    next.emitter.Exact ↔ state.Leaves action := by
  cases action with
  | unregisterTopic topic =>
    cases stepped
    exact iff_of_true exact.unregisterTopic trivial
  | clear =>
    cases stepped
    exact iff_of_true state.emitter.clear_exact trivial
  | task action =>
    revert stepped
    simp only [topicStep]
    fun_cases step debug state action
    all_goals rintro ⟨⟩
    next done => exact iff_of_true (exact.register done) trivial
    next topic eventId id => exact exact.remove [id]
    next => exact iff_of_true exact trivial
    next taken =>
      revert taken
      fun_cases EventEmitter.recv <;> rintro ⟨⟩
      exact iff_of_true exact trivial
    iterate 4 exact iff_of_true exact trivial
    next emission self found ready =>
      by_cases failed : self.failed = []
      · simpa [Leaves, found, failed] using exact
      · simpa [Leaves, found, failed] using exact.remove self.failed

end EmitterTasks

/-- An emitter with channels of this size, whose topics can be taken out. -/
def topicMachine {Topic Event : Type} [DecidableEq Topic] (debug : Topic → String) (size : Nat) :
    Machine (EmitterTasks Topic Event) (TopicAction Topic Event) (EmitterEvent Event) where
  start := (emitterMachine debug size).start
  step := EmitterTasks.topicStep debug

/-- As long as every removal leaves a listener on its topic, `has_listeners` is exact, and the
first removal that does not makes it wrong. -/
theorem has_listeners_exact_iff {Topic Event : Type} [DecidableEq Topic] {debug : Topic → String}
    {size : Nat} {history : List (EmitterEvent Event)} {state : EmitterTasks Topic Event}
    (run : (topicMachine debug size).Run EmitterTasks.Leaves history state) :
    state.emitter.Exact ∧
      ∀ action next events, (topicMachine debug size).step state action = some (next, events) →
        (next.emitter.Exact ↔ state.Leaves action) := by
  have exact : state.emitter.Exact := by
    refine run.invariant (fun _ state => state.emitter.Exact) ?_ ?_
    · exact (EventEmitter.new : EventEmitter Topic Event).clear_exact
    · exact fun _ _ _ _ _ exact leaves stepped =>
        (EmitterTasks.topicStep_exact exact stepped).mpr leaves
  exact ⟨exact, fun _ _ _ => EmitterTasks.topicStep_exact exact⟩

/-- Two listeners are registered and one of them is cancelled: their topic has one. -/
theorem has_listeners_exact_iff_registered :
    ∃ (history : List (EmitterEvent Nat)) (state : EmitterTasks Unit Nat),
      (topicMachine (fun _ => "topic") 1).Run EmitterTasks.Leaves history state ∧
      (state.emitter.registered () "event").keys = [6] ∧
      state.emitter.hasListeners () = true ∧ state.emitter.Listened () := by
  have registers (state : EmitterTasks Unit Nat) (id : EventListenerID) :
      state.Leaves (.task (.register () "event" id)) := trivial
  have first : (topicMachine (fun _ : Unit => "topic") 1).Run EmitterTasks.Leaves _ _ :=
    .step .start (registers _ 5) rfl
  have second := Machine.Run.step first (registers _ 6) rfl
  have run := Machine.Run.step second
    (show EmitterTasks.Leaves _ (.task (.cancel () "event" 5)) from fun _ => ⟨"event", 6, _, rfl⟩)
    rfl
  exact ⟨_, _, run, rfl, rfl, ((has_listeners_exact_iff run).1 ()).mp rfl⟩

/-- The only listener of a topic is cancelled. -/
theorem has_listeners_exact_iff_counterexample :
    ∃ (history : List (EmitterEvent Nat)) (state : EmitterTasks Unit Nat),
      (topicMachine (fun _ => "topic") 1).Run (fun _ _ => True) history state ∧
      state.emitter.hasListeners () = true ∧ ¬state.emitter.Listened () := by
  refine Machine.trace_holds [.task (.register () "event" 5), .task (.cancel () "event" 5)]
    ⟨_, rfl, rfl, ?_⟩
  rintro ⟨eventId, id, channel, found⟩
  by_cases same : eventId = "event"
  · subst same
    cases found
  · have before := EventEmitter.lookup_registered_of_remove found
    simp only [EventEmitter.registered, AList.lookup_insert, Option.getD_some,
      AList.lookup_insert_ne same] at before
    cases before

end Karyon.Utils
