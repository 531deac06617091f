/-
This file follows the tasks of a group through every action on it.

The map of the group and the cancel flags of its tasks are kept in step with the tasks, in any
order of their ends, their panics and the calls of `cancel` (`taskGroup_bookkeeping`).
-/

import Karyon.Core.TaskGroup

namespace Karyon.Core

open Transition

def taskActionMachine : Machine TaskGroup TaskAction TaskAction where
  start := .new
  step group action := (group.step action).map fun taken => (taken.1, [action])

/-- A handler that `remove` has returned is not dropped. -/
def TaskAction.keepsHandler : TaskAction → Bool
  | .abort _ => false
  | _ => true

@[grind =]
def GroupTask.ended (task : GroupTask) : Bool :=
  match task.phase with
  | .panicked | .ended => true
  | _ => false

namespace TaskGroup

variable (history : List TaskAction) (id : TaskID)

/-- The handlers that each call of `cancel` has drained. -/
def drainedHandlers : List (List TaskID) :=
  history.filterMap fun
    | .cancel order => some order
    | _ => none

@[grind =]
def TakenOut : Prop :=
  .remove id ∈ history ∨ ∃ order, .cancel order ∈ history ∧ id ∈ order

/-- The callback has finished, with the result of a task that has completed or was cancelled. -/
@[grind =]
def CallbackDone : Prop :=
  .callbackDone id ∈ history ∧ (.complete id ∈ history ∨ .stop id ∈ history)

/-- What has happened to a task, by its phase. -/
@[grind =]
def Reports (task : GroupTask) : Prop :=
  match task.phase with
  | .running => True
  | .calling _ => .complete id ∈ history ∨ .stop id ∈ history
  | .signalling => CallbackDone history id
  | .panicked => .panic id ∈ history
  | .removing | .ended => task.cancelFlag = true

@[grind cases]
structure Entry (tasks : HashSet TaskID) (task : GroupTask) : Prop where
  absent : task.ended = true → id ∉ tasks
  member : task.ended = false → id ∈ tasks ∨ TakenOut history id
  settled : task.cancelFlag = true → .panic id ∈ history ∨ CallbackDone history id
  reports : Reports history id task

structure Booked (group : TaskGroup) : Prop where
  entries : ∀ id task, group.spawned[id]? = some task → Entry history id group.tasks task
  numbered : (drainedHandlers history).length = group.pending.length
  calls : ∀ (call : Nat) (order handlers : List TaskID),
    (drainedHandlers history)[call]? = some order → group.pending[call]? = some handlers →
      ∀ id ∈ order, id ∈ handlers ∨ .panic id ∈ history ∨ CallbackDone history id

variable {history id} {group next : TaskGroup} {action : TaskAction} {tasks : HashSet TaskID}
  {task : GroupTask}

theorem Entry.concat (entry : Entry history id group.tasks task)
    (fewer : id ∈ tasks → id ∈ group.tasks)
    (gone : id ∈ group.tasks → id ∈ tasks ∨ TakenOut (history ++ [action]) id) :
    Entry (history ++ [action]) id tasks task := by
  constructor <;> grind

section

variable (silent : drainedHandlers [action] = [])

include silent

theorem drainedHandlers_concat :
    drainedHandlers (history ++ [action]) = drainedHandlers history := by
  rw [drainedHandlers, List.filterMap_append]
  exact (congrArg _ silent).trans (List.append_nil _)

variable (booked : Booked history group)

include booked

theorem Booked.concat (pending : next.pending = group.pending)
    (entries : ∀ id task, next.spawned[id]? = some task →
      Entry (history ++ [action]) id next.tasks task) : Booked (history ++ [action]) next := by
  obtain ⟨_, numbered, calls⟩ := booked
  refine ⟨entries, ?_, ?_⟩ <;> rw [drainedHandlers_concat silent, pending]
  · exact numbered
  · grind

theorem Booked.works {ready : GroupTask → Bool} {change : GroupTask → GroupTask}
    (shrink : HashSet TaskID → HashSet TaskID) (worked : group.work id ready change = some next)
    (others : ∀ other ≠ id, other ∈ shrink group.tasks ↔ other ∈ group.tasks)
    (entry : ∀ task, ready task = true → Entry history id group.tasks task →
      Entry (history ++ [action]) id (shrink group.tasks) (change task)) :
    Booked (history ++ [action]) { next with tasks := shrink next.tasks } := by
  revert worked
  fun_cases work <;> rintro ⟨⟩
  refine booked.concat silent rfl fun other task found => ?_
  have entries := booked.entries
  by_cases same : id = other
  · grind [update]
  · refine Entry.concat (entries other task ?_) ?_ ?_ <;> grind [update]

end

theorem Booked.step {events : List TaskEvent} (booked : Booked history group)
    (keeps : action.keepsHandler = true) (step : group.step action = some (next, events)) :
    Booked (history ++ [action]) next := by
  have ⟨entries, numbered, calls⟩ := booked
  cases action with
  | spawn parent =>
    obtain ⟨_, spawned, ⟨⟩⟩ := Option.map_eq_some_iff.mp step
    obtain ⟨_, ⟨⟩⟩ := Option.ite_none_right_eq_some.mp spawned
    refine booked.concat rfl rfl fun id task found => ?_
    rcases Indexed.concat_eq_some.mp found with old | ⟨rfl, rfl⟩
    · have bound := (List.getElem?_eq_some_iff.mp old).1
      refine (entries id task old).concat ?_ ?_ <;> grind [AList.mem_insert]
    · exact ⟨nofun, fun _ => .inl ((AList.mem_insert _).mpr (.inl rfl)), nofun, trivial⟩
  | complete | stop | callbackDone | signalFlag | signalPanicked =>
    obtain ⟨_, worked, ⟨⟩⟩ := Option.map_eq_some_iff.mp step
    refine booked.works rfl (fun tasks => tasks) worked (fun _ _ => .rfl) fun task ready entry => ?_
    constructor <;> grind
  | removeSelf | panic =>
    obtain ⟨_, worked, ⟨⟩⟩ := Option.map_eq_some_iff.mp step
    refine booked.works rfl _ worked (fun _ different => ?_) fun task ready entry => ?_
    · exact AList.mem_erase.trans (and_iff_right different)
    · constructor <;> grind [AList.mem_erase]
  | remove target =>
    obtain ⟨_, ⟨⟩⟩ := Option.ite_none_right_eq_some.mp step
    refine booked.concat rfl rfl fun id task found => ?_
    refine (entries id task found).concat ?_ ?_ <;> grind [AList.mem_erase]
  | abort target => cases keeps
  | cancel order =>
    obtain ⟨whole, ⟨⟩⟩ := Option.ite_none_right_eq_some.mp step
    have all : drainedHandlers (history ++ [.cancel order]) = drainedHandlers history ++ [order] :=
      List.filterMap_append
    refine ⟨fun id task found => (entries id task found).concat nofun fun present => ?_, ?_, ?_⟩
    · have member := (List.isPerm_iff.mp whole).mem_iff.mpr (AList.mem_keys.mp present)
      exact .inr (.inr ⟨order, List.mem_concat_self, member⟩)
    · grind [pending]
    · grind [pending, handlers_next]
  | signalStop call =>
    obtain ⟨_, signalled, ⟨⟩⟩ := Option.map_eq_some_iff.mp step
    revert signalled
    fun_cases signalStop <;> rintro ⟨⟩
    refine booked.concat rfl (List.ext_getElem? fun _ => ?_) fun id task found => ?_
    · grind [pending, CancelPhase.handlers]
    · obtain ⟨before, own, phase, flag⟩ : ∃ before, group.spawned[id]? = some before ∧
          task.phase = before.phase ∧ task.cancelFlag = before.cancelFlag := by grind [update]
      have entry := entries id before own
      constructor <;> grind [update]
  | awaitFlag call =>
    rw [TaskGroup.step] at step
    revert step
    fun_cases awaitFlag <;> rintro ⟨⟩
    rename_i flagged
    have settled := (entries _ _ flagged).settled rfl
    refine ⟨fun id task found => (entries id task found).concat (fun same => same) .inl, ?_, ?_⟩
      <;> rw [drainedHandlers_concat rfl]
    · grind [pending]
    · grind [pending, CancelPhase.handlers, handlers_next]

end TaskGroup

/-- In every run in which no handler that `remove` has returned is dropped, a task that has ended
is out of the group with its cancel flag set or to be set, one that has not is in the group unless
it was taken out, and the drained tasks that have not panicked have finished their callbacks when
`cancel` has returned. -/
theorem taskGroup_bookkeeping {history : List TaskAction} {group : TaskGroup}
    (run : taskActionMachine.Run (fun _ action => action.keepsHandler = true) history group) :
    (∀ id task, group.spawned[id]? = some task →
      (task.ended = true → id ∉ group.tasks ∧
        (task.cancelFlag = true ∨ (group.step (.signalPanicked id)).isSome = true)) ∧
      (task.ended = false → id ∈ group.tasks ∨ TaskGroup.TakenOut history id)) ∧
    ∀ (call : Nat) (order : List TaskID),
      (TaskGroup.drainedHandlers history)[call]? = some order →
      group.cancels[call]? = some .returned →
      ∀ id ∈ order, .panic id ∈ history ∨ TaskGroup.CallbackDone history id := by
  have booked : TaskGroup.Booked history group := by
    refine run.invariant TaskGroup.Booked ⟨by rintro _ _ ⟨⟩, rfl, by rintro _ _ _ ⟨⟩⟩ ?_
    intro history group action next events before keeps step
    obtain ⟨_, taken, ⟨⟩⟩ := Option.map_eq_some_iff.mp step
    exact before.step keeps taken
  refine ⟨fun id task found => ?_, fun call order drained returned id member => ?_⟩
  · obtain ⟨absent, inGroup, _, reports⟩ := booked.entries id task found
    refine ⟨fun ended => ⟨absent ended, ?_⟩, inGroup⟩
    cases phase : task.phase with
    | panicked => exact .inr (by simp [TaskGroup.step, TaskGroup.work, found, phase])
    | _ => grind
  · have left : group.pending[call]? = some [] := by
      rw [TaskGroup.pending, List.getElem?_map, returned]
      rfl
    exact (booked.calls call order [] drained left id member).resolve_left List.not_mem_nil

/-- Of two tasks one panics, and the other is drained. -/
theorem taskGroup_bookkeeping_two :
    ∃ history group,
      taskActionMachine.Run (fun _ action => action.keepsHandler = true) history group ∧
      (TaskGroup.drainedHandlers history)[0]? = some [1] ∧ group.cancels[0]? = some .returned ∧
      (.panic 1 ∈ history ∨ TaskGroup.CallbackDone history 1) := by
  have taken : taskActionMachine.reach (fun _ => TaskAction.keepsHandler)
      [.spawn none, .spawn none, .panic 0, .cancel [1], .signalStop 0, .stop 1, .callbackDone 1,
        .signalFlag 1, .awaitFlag 0] = some (_, _) := rfl
  have run := Machine.Run.of_reach taken
  exact ⟨_, _, run, rfl, rfl, (taskGroup_bookkeeping run).2 0 [1] rfl rfl 1 List.mem_cons_self⟩

end Karyon.Core
