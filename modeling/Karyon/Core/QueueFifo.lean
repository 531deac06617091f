/-
This file proves that the bounded queue is a bounded first-in first-out buffer,
whatever calls are in flight and whichever of them are dropped.

The abstract buffer has only the list of its items and two operations that either
happen as a whole or are not possible. Every step of the queue either is invisible
or is one such operation, so every run of the queue is a run of the buffer with the
same completions in the same order (`asyncQueue_simulates`). What the buffer
conserves, the queue conserves.
-/

import Karyon.Core.AsyncQueue

namespace Karyon.Core

open Transition

variable {Item : Type}

/-! ### The abstract buffer -/

inductive BufferCommand (Item : Type) where
  | push (item : Item)
  | pop

def boundedBuffer (Item : Type) (capacity : Nat) :
    Machine (List Item) (BufferCommand Item) (QueueEvent Item) where
  start := []
  step items
    | .push item =>
      if items.length < capacity then some (items ++ [item], [.pushed item]) else none
    | .pop =>
      match items with
      | [] => none
      | item :: rest => some (rest, [.received item])

variable (history : List (QueueEvent Item))

/-- The items of the completed pushes, in the order of their completion. -/
def pushedItems : List Item :=
  history.filterMap fun
    | .pushed item => some item
    | .received _ => none

def receivedItems : List Item :=
  history.filterMap fun
    | .pushed _ => none
    | .received item => some item

variable {capacity : Nat} {self : AsyncQueue Item} {events : List (QueueEvent Item)}
  {history : List (QueueEvent Item)}

/-- What was returned and what is left is what was pushed, in order. -/
theorem boundedBuffer_conserves {items : List Item}
    (run : (boundedBuffer Item capacity).Run (fun _ _ => True) history items) :
    receivedItems history ++ items = pushedItems history := by
  refine run.invariant (fun history items => receivedItems history ++ items = pushedItems history)
    rfl fun history items command next events conserves _ step => ?_
  rw [receivedItems, pushedItems, List.filterMap_append, List.filterMap_append]
  rw [receivedItems, pushedItems] at conserves
  rw [← conserves]
  cases command with
  | push item =>
    obtain ⟨_, ⟨⟩⟩ := Option.ite_none_right_eq_some.mp step
    simp
  | pop =>
    cases items with
    | nil => cases step
    | cons item rest =>
      cases step
      simp

/-! ### The queue simulates the buffer -/

namespace AsyncQueue

theorem Effect.items {next : AsyncQueue Item} {action : QueueAction Item}
    (effect : Effect self action next events) :
    (events = [] ∧ next.queue = self.queue) ∨
      ∃ task met its, action = .run task met ∧ self.tasks[task]? = some its ∧
        its.phase.wantsMutex = true ∧ next.tasks = self.withPhase task .finished ∧
        its.call.Serves self.queue next.queue events := by
  cases effect with
  | starts _ _ queue | grants _ _ queue | parks _ _ _ _ _ queue => exact Or.inl ⟨rfl, queue⟩
  | completes found wants _ tasks _ serves =>
    exact Or.inr ⟨_, _, _, rfl, found, wants, tasks, serves⟩
  | wakes _ _ _ _ _ queue | cancels _ _ _ _ queue | abandons _ _ _ _ _ queue =>
    exact Or.inl ⟨rfl, queue⟩

end AsyncQueue

/-- A call that completes within the capacity is an operation of the buffer. -/
theorem Call.Serves.command {call : Call Item} {before after : List Item}
    (serves : call.Serves before after events) (bounded : after.length ≤ capacity) :
    ∃ command, (boundedBuffer Item capacity).step before command = some (after, events) := by
  cases serves with
  | @push item =>
    rw [List.length_append, List.length_singleton] at bounded
    exact ⟨.push item, if_pos bounded⟩
  | recv => exact ⟨.pop, rfl⟩

/-- Every run of the queue is a run of the buffer with the same completions. -/
theorem asyncQueue_simulates {positive : 0 < capacity}
    {allowed : AsyncQueue Item → QueueAction Item → Prop} {queue : AsyncQueue Item}
    (run : (queueMachine Item capacity positive).Run allowed history queue) :
    (boundedBuffer Item capacity).Run (fun _ _ => True) history queue.queue ∧
      queue.capacity = capacity := by
  obtain ⟨items, image, rfl, same⟩ := run.simulated (boundedBuffer Item capacity)
    (fun queue items => items = queue.queue ∧ queue.capacity = capacity) ⟨rfl, rfl⟩
    fun queue action next events items related _ step => by
      obtain ⟨rfl, same⟩ := related
      have effect := AsyncQueue.step_effect step
      have capacity := effect.capacity_eq.trans same
      rcases effect.items with ⟨quiet, unchanged⟩ | ⟨_, _, _, _, _, _, _, serves⟩
      · exact Or.inl ⟨quiet, unchanged.symm, capacity⟩
      · obtain ⟨command, matched⟩ := serves.command (capacity ▸ next.bounded)
        exact Or.inr ⟨command, _, matched, rfl, capacity⟩
  exact ⟨image, same⟩

/-! ### The calls that completed -/

/-- The call whose completion is observed. -/
def QueueEvent.call : QueueEvent Item → Call Item
  | .pushed item => .push item
  | .received _ => .recv

def completions (tasks : List (Task Item)) : List (Call Item) :=
  tasks.filterMap fun its => if its.phase = .finished then some its.call else none

theorem filterMap_modify {Element Selected : Type} (select : Element → Option Selected)
    (change : Element → Element) {elements : List Element} {index : Nat} {element : Element}
    (found : elements[index]? = some element) (unselected : select element = none) :
    ((elements.modify index change).filterMap select).Perm
      ((select (change element)).toList ++ elements.filterMap select) := by
  induction elements generalizing index with
  | nil => cases found
  | cons head tail inductionHypothesis =>
    cases index with
    | zero =>
      cases found
      rw [List.modify_zero_cons, List.filterMap_cons, List.filterMap_cons, unselected]
      cases select (change element) <;> exact .refl _
    | succ index =>
      have rest := inductionHypothesis found
      rw [List.modify_succ_cons, List.filterMap_cons, List.filterMap_cons]
      cases select head with
      | none => exact rest
      | some selected => exact (rest.cons selected).trans List.perm_middle.symm

namespace AsyncQueue

theorem completions_withPhase {task : Nat} {its : Task Item} (found : self.tasks[task]? = some its)
    (unfinished : its.phase ≠ .finished) (phase : CallPhase) :
    (completions (self.withPhase task phase)).Perm
      ((if phase = .finished then [its.call] else []) ++ completions self.tasks) := by
  have changed := filterMap_modify
    (fun its : Task Item => if its.phase = .finished then some its.call else none)
    (fun its => { its with phase }) found (if_neg unfinished)
  refine changed.trans (.of_eq (congrArg (· ++ _) ?_))
  split <;> rfl

theorem unfinished_of_wants {phase : CallPhase} (wants : phase.wantsMutex = true) :
    phase ≠ .finished := by
  rintro rfl
  cases wants

theorem Call.Serves.calls {call : Call Item} {before after : List Item}
    (serves : call.Serves before after events) :
    events.map QueueEvent.call = [call] := by
  cases serves <;> rfl

theorem Effect.completions {next : AsyncQueue Item} {action : QueueAction Item}
    (effect : Effect self action next events) :
    (completions next.tasks).Perm (events.map QueueEvent.call ++ completions self.tasks) := by
  cases effect with
  | starts tasks _ _ =>
    rw [tasks, Core.completions, List.filterMap_append]
    simp [Core.completions]
  | grants tasks _ _ =>
    rw [tasks]
    exact .refl _
  | parks found wants _ tasks _ _ =>
    rw [tasks]
    exact completions_withPhase found (unfinished_of_wants wants) _
  | completes found wants _ tasks _ serves =>
    rw [tasks, Call.Serves.calls serves]
    exact completions_withPhase found (unfinished_of_wants wants) _
  | wakes found parked _ tasks _ _ =>
    rw [tasks]
    exact completions_withPhase found (by rw [parked]; nofun) _
  | cancels found wants tasks _ _ =>
    rw [tasks]
    exact completions_withPhase found (unfinished_of_wants wants) _
  | abandons found parked _ tasks _ _ =>
    rw [tasks]
    exact completions_withPhase found (by rw [parked]; nofun) _

end AsyncQueue

/-- The queue is a bounded first-in first-out buffer under cancellation. In every run, with any
calls in flight and any of them dropped at any await point: the observed completions are those of
the abstract buffer, in their order, and they are exactly the calls that completed, each once;
the queue never holds more than its capacity; the items returned, followed by the items still
queued, are the items of the completed pushes in the order of completion; and dropping a call
changes no item and completes no call. -/
theorem asyncQueue_fifo (capacity : Nat) (positive : 0 < capacity)
    (history : List (QueueEvent Item)) (queue : AsyncQueue Item)
    (run : (queueMachine Item capacity positive).Run (fun _ _ => True) history queue) :
    (boundedBuffer Item capacity).Run (fun _ _ => True) history queue.queue ∧
      (history.map QueueEvent.call).Perm (completions queue.tasks) ∧
      queue.queue.length ≤ capacity ∧
      receivedItems history ++ queue.queue = pushedItems history ∧
      ∀ task met next events, queue.step (.drop task met) = some (next, events) →
        next.queue = queue.queue ∧ events = [] ∧
          (completions next.tasks).Perm (completions queue.tasks) := by
  obtain ⟨image, same⟩ := asyncQueue_simulates run
  have completed := run.invariant
    (fun history queue => (history.map QueueEvent.call).Perm (completions queue.tasks))
    (.refl _) fun history state action next events completed _ step => by
      rw [List.map_append]
      refine (completed.append_right _).trans (List.perm_append_comm.trans ?_)
      exact (AsyncQueue.step_effect step).completions.symm
  refine ⟨image, completed, same ▸ queue.bounded, boundedBuffer_conserves image,
    fun task met next events step => ?_⟩
  have effect := AsyncQueue.step_effect step
  rcases effect.items with ⟨rfl, unchanged⟩ | ⟨_, _, _, other, _⟩
  · exact ⟨unchanged, rfl, effect.completions⟩
  · cases other

/-- A push, a return and a dropped push. -/
theorem asyncQueue_fifo_dropped :
    ∃ history queue, (queueMachine Nat 1 Nat.one_pos).Run (fun _ _ => True) history queue ∧
      receivedItems history = [7] ∧ receivedItems history ++ queue.queue = pushedItems history ∧
      queue.tasks = [⟨.push 7, .finished⟩, ⟨.push 8, .dropped⟩, ⟨.recv, .finished⟩] := by
  refine Machine.trace_run (fun history queue => receivedItems history = [7] ∧
      queue.tasks = [⟨.push 7, .finished⟩, ⟨.push 8, .dropped⟩, ⟨.recv, .finished⟩])
    [.start (.push 7), .grant 0, .run 0 0, .start (.push 8), .grant 1, .run 1 0,
      .start .recv, .grant 2, .run 2 0, .drop 1 0] ⟨_, rfl, rfl, rfl⟩
    fun history queue run ⟨received, tasks⟩ => ?_
  obtain ⟨_, _, _, conserves, _⟩ := asyncQueue_fifo 1 Nat.one_pos history queue run
  exact ⟨received, conserves, tasks⟩

end Karyon.Core
