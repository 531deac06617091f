/-
This file is a small library of state machines that emit events.

A machine takes steps by actions; an action that is not possible in a state gives
no next state. A run is the states a machine goes through while every action is
one of the allowed ones, with the events emitted along it. What holds at the start
and is kept by every allowed step holds at the end of every run (`Run.invariant`).
A machine whose steps are matched by those of another machine has, for each of its
runs, a run of the other machine with the same events (`Run.simulated`). A history is
justified when each of its events is by those before it (`Justified`).
-/

import Mathlib.Logic.Basic

namespace Transition

variable {State Action Event : Type}

/-- A state machine that emits events. -/
structure Machine (State Action Event : Type) where
  start : State
  step : State → Action → Option (State × List Event)

/-- The machine reaches the state by allowed actions and has emitted the events. -/
inductive Machine.Run (machine : Machine State Action Event) (allowed : State → Action → Prop) :
    List Event → State → Prop
  | start : Run machine allowed [] machine.start
  | step {history : List Event} {state : State} {action : Action} {next : State}
      {events : List Event} :
      Run machine allowed history state → allowed state action →
      machine.step state action = some (next, events) →
      Run machine allowed (history ++ events) next

variable {machine : Machine State Action Event} {allowed : State → Action → Prop}
  {history : List Event} {state : State}

/-- What holds at the start and is kept by every allowed step holds in every run. -/
theorem Machine.Run.invariant (property : List Event → State → Prop)
    (initial : property [] machine.start)
    (kept : ∀ history state action next events, property history state → allowed state action →
      machine.step state action = some (next, events) → property (history ++ events) next)
    (run : machine.Run allowed history state) : property history state := by
  induction run with
  | start => exact initial
  | step _ isAllowed step inductionHypothesis =>
    exact kept _ _ _ _ _ inductionHypothesis isAllowed step

/-- Every run of a machine whose steps another machine matches is a run of that machine. -/
theorem Machine.Run.simulated {Abstract Command : Type} (abstract : Machine Abstract Command Event)
    (relation : State → Abstract → Prop) (initial : relation machine.start abstract.start)
    (matched : ∀ state action next events image, relation state image → allowed state action →
      machine.step state action = some (next, events) →
        (events = [] ∧ relation next image) ∨
          ∃ command after, abstract.step image command = some (after, events) ∧
            relation next after)
    (run : machine.Run allowed history state) :
    ∃ image, abstract.Run (fun _ _ => True) history image ∧ relation state image := by
  induction run with
  | start => exact ⟨_, .start, initial⟩
  | step _ isAllowed step inductionHypothesis =>
    obtain ⟨image, imageRun, related⟩ := inductionHypothesis
    rcases matched _ _ _ _ image related isAllowed step with
      ⟨rfl, unchanged⟩ | ⟨command, after, abstractStep, later⟩
    · rw [List.append_nil]
      exact ⟨image, imageRun, unchanged⟩
    · exact ⟨after, imageRun.step trivial abstractStep, later⟩

theorem Machine.Run.mono {permitted : State → Action → Prop}
    (more : ∀ state action, allowed state action → permitted state action)
    (run : machine.Run allowed history state) : machine.Run permitted history state := by
  induction run with
  | start => exact .start
  | step _ isAllowed step inductionHypothesis =>
    exact inductionHypothesis.step (more _ _ isAllowed) step

/-- Take the actions one after another, as long as they are allowed and possible. -/
def Machine.exec (machine : Machine State Action Event) (allowed : State → Action → Bool) :
    List Event → State → List Action → Option (List Event × State)
  | history, state, [] => some (history, state)
  | history, state, action :: rest =>
    if allowed state action then
      match machine.step state action with
      | some (next, events) => machine.exec allowed (history ++ events) next rest
      | none => none
    else none

/-- Actions that can be taken from the end of a run extend it. -/
theorem Machine.Run.exec {permitted : State → Action → Bool} {actions : List Action}
    {later : List Event} {last : State}
    (run : machine.Run (fun state action => permitted state action = true) history state)
    (taken : machine.exec permitted history state actions = some (later, last)) :
    machine.Run (fun state action => permitted state action = true) later last := by
  induction actions generalizing history state with
  | nil =>
    cases taken
    exact run
  | cons action rest inductionHypothesis =>
    obtain ⟨isAllowed, taken⟩ := Option.ite_none_right_eq_some.mp taken
    split at taken
    · rename_i next events step
      exact inductionHypothesis (run.step isAllowed step) taken
    · cases taken

/-- Take the actions one after another from the start, as long as they are allowed and possible. -/
def Machine.reach (machine : Machine State Action Event) (allowed : State → Action → Bool)
    (actions : List Action) : Option (List Event × State) :=
  machine.exec allowed [] machine.start actions

/-- Take the actions one after another from the start, as long as they are possible. -/
def Machine.trace (machine : Machine State Action Event) (actions : List Action) :
    Option (List Event × State) :=
  machine.reach (fun _ _ => true) actions

section

variable {permitted : State → Action → Bool} {property result : List Event → State → Prop}
  {actions : List Action} {Image : Type} {observe : List Event × State → Image} {image : Image}

theorem Machine.Run.of_reach (taken : machine.reach permitted actions = some (history, state)) :
    machine.Run (fun state action => permitted state action = true) history state :=
  Machine.Run.exec .start taken

theorem Machine.Run.of_trace (taken : machine.trace actions = some (history, state)) :
    machine.Run (fun _ _ => True) history state :=
  (Machine.Run.of_reach taken).mono fun _ _ _ => trivial

/-- What is observed after actions that can be taken from the start is observed after a run. -/
theorem Machine.reach_observed
    (taken : (machine.reach permitted actions).map observe = some image) :
    ∃ history last, machine.Run (fun state action => permitted state action = true) history last ∧
      observe (history, last) = image := by
  obtain ⟨⟨history, last⟩, result, observed⟩ := Option.map_eq_some_iff.mp taken
  exact ⟨history, last, Machine.Run.of_reach result, observed⟩

theorem Machine.trace_observed (taken : (machine.trace actions).map observe = some image) :
    ∃ history last, machine.Run (fun _ _ => True) history last ∧
      observe (history, last) = image := by
  obtain ⟨history, last, run, observed⟩ := Machine.reach_observed taken
  exact ⟨history, last, run.mono fun _ _ _ => trivial, observed⟩

variable (actions)

/-- What holds after actions that can be taken from the start holds after a run. -/
theorem Machine.reach_holds
    (holds : ∃ reached ∈ machine.reach permitted actions, property reached.1 reached.2) :
    ∃ history last, machine.Run (fun state action => permitted state action = true) history last ∧
      property history last := by
  obtain ⟨⟨history, last⟩, taken, holds⟩ := holds
  exact ⟨history, last, .of_reach taken, holds⟩

theorem Machine.trace_holds
    (holds : ∃ reached ∈ machine.trace actions, property reached.1 reached.2) :
    ∃ history last, machine.Run (fun _ _ => True) history last ∧ property history last := by
  obtain ⟨history, last, run, holds⟩ := Machine.reach_holds actions holds
  exact ⟨history, last, run.mono fun _ _ _ => trivial, holds⟩

variable (property)

/-- A run to what the actions reach, with what follows from a property of that. -/
theorem Machine.reach_run
    (holds : ∃ reached ∈ machine.reach permitted actions, property reached.1 reached.2)
    (follows : ∀ history last,
      machine.Run (fun state action => permitted state action = true) history last →
        property history last → result history last) :
    ∃ history last, machine.Run (fun state action => permitted state action = true) history last ∧
      result history last := by
  obtain ⟨history, last, run, holds⟩ := Machine.reach_holds actions holds
  exact ⟨history, last, run, follows history last run holds⟩

theorem Machine.trace_run (holds : ∃ reached ∈ machine.trace actions, property reached.1 reached.2)
    (follows : ∀ history last, machine.Run (fun _ _ => True) history last →
      property history last → result history last) :
    ∃ history last, machine.Run (fun _ _ => True) history last ∧ result history last := by
  obtain ⟨history, last, run, holds⟩ := Machine.trace_holds actions holds
  exact ⟨history, last, run, follows history last run holds⟩

end

theorem mem_concat {Item : Type*} {item added : Item} {items : List Item} :
    item ∈ items ++ [added] ↔ item ∈ items ∨ item = added := by
  rw [List.mem_append, List.mem_singleton]

/-! ### Justified histories -/

/-- Every event is justified by the events before it. -/
def Justified (justifies : List Event → Event → Prop) (history : List Event) : Prop :=
  ∀ before event, before ++ [event] <+: history → justifies before event

variable {justifies : List Event → Event → Prop}

theorem Justified.nil : Justified justifies [] := by
  intro before event start
  have short := start.length_le
  simp at short

section

variable (justified : Justified justifies history)

include justified

theorem Justified.concat {event : Event} (new : justifies history event) :
    Justified justifies (history ++ [event]) := by
  intro before other start
  rcases List.prefix_concat_iff.mp start with whole | earlier
  · obtain ⟨rfl, ⟨⟩⟩ := List.append_inj' whole rfl
    exact new
  · exact justified before other earlier

/-- An event stands after the events that justify it. -/
theorem Justified.of_mem {event : Event} (member : event ∈ history) :
    ∃ before, before ++ [event] <+: history ∧ justifies before event := by
  obtain ⟨before, after, rfl⟩ := List.append_of_mem member
  have start : before ++ [event] <+: before ++ event :: after :=
    ⟨after, (List.append_cons before event after).symm⟩
  exact ⟨before, start, justified before event start⟩

theorem Justified.of_prefix {before : List Event} (start : before <+: history) :
    Justified justifies before :=
  fun earlier event within => justified earlier event (within.trans start)

theorem Justified.append {events : List Event}
    (free : ∀ event ∈ events, ∀ before, justifies before event) :
    Justified justifies (history ++ events) := by
  induction events generalizing history with
  | nil =>
    rw [List.append_nil]
    exact justified
  | cons event rest inductionHypothesis =>
    rw [List.append_cons]
    exact inductionHypothesis (justified.concat (free event List.mem_cons_self history))
      fun other member => free other (List.mem_cons_of_mem _ member)

end

end Transition
