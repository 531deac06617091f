/-
This file models the task group of `core/src/async_util/task_group.rs`.

A spawned task waits for its stop signal or its future, runs its callback, signals its cancel flag
and takes itself out of the group. `cancel` takes all handlers out of the group at once and then
goes through them: it signals one to stop and waits for its flag. A step is what one task, or one
call of `cancel`, does from one await point to the next; the order in which the hash map yields the
handlers is an argument.

Meanwhile the tasks that `cancel` has not reached yet still run and may spawn others, which are not
among the handlers (`taskGroup_cancel_misses`). When nothing is spawned in that time, and the group
has all running tasks when it is cancelled, nothing runs after `cancel` has returned
(`taskGroup_cancel_stops`).
-/

import Karyon.Lib.Indexed
import Karyon.Lib.Transition

namespace Karyon.Core

open Transition

/-! ### The group and its steps -/

abbrev TaskID := Nat

inductive TaskResult where
  | completed
  | cancelled
  deriving DecidableEq

/-- Where a spawned task is: in its future, in its callback, before it signals its cancel flag,
before it takes itself out of the group, or at its end. The flag of a task that has panicked is
signalled by a task of its own. -/
inductive TaskPhase where
  | running
  | calling (result : TaskResult)
  | signalling
  | removing
  | panicked
  | ended
  deriving DecidableEq

/-- Something of the task is left to run before it signals its cancel flag. -/
def TaskPhase.active : TaskPhase → Bool
  | .running | .calling _ | .signalling => true
  | .removing | .panicked | .ended => false

/-- A task that was spawned into the group. -/
structure GroupTask where
  phase : TaskPhase
  stopSignal : Bool
  cancelFlag : Bool

def GroupTask.new : GroupTask where
  phase := .running
  stopSignal := false
  cancelFlag := false

/-- Where a call of `cancel` is: about to signal a handler to stop, waiting for its cancel flag,
or returned. -/
inductive CancelPhase where
  | signalling (id : TaskID) (rest : List TaskID)
  | waiting (id : TaskID) (rest : List TaskID)
  | returned

/-- The next handler, or the end of the loop. -/
def CancelPhase.next : List TaskID → CancelPhase
  | [] => .returned
  | id :: rest => .signalling id rest

def CancelPhase.handlers : CancelPhase → List TaskID
  | .signalling id rest => id :: rest
  | .waiting id rest => id :: rest
  | .returned => []

/-- The group: the ids in its map, all tasks that were ever spawned, the handlers that were taken
out by their id, and the calls of `cancel`. -/
structure TaskGroup where
  tasks : HashSet TaskID
  spawned : List GroupTask
  removed : List TaskID
  cancels : List CancelPhase

inductive TaskAction where
  | spawn (parent : Option TaskID)
  | complete (id : TaskID)
  | stop (id : TaskID)
  | callbackDone (id : TaskID)
  | signalFlag (id : TaskID)
  | removeSelf (id : TaskID)
  | panic (id : TaskID)
  | signalPanicked (id : TaskID)
  | remove (id : TaskID)
  | abort (id : TaskID)
  | cancel (order : List TaskID)
  | signalStop (call : Nat)
  | awaitFlag (call : Nat)

/-- A call of `cancel` returns. -/
inductive TaskEvent where
  | returned (call : Nat)

namespace TaskGroup

def new : TaskGroup :=
  { tasks := ∅, spawned := [], removed := [], cancels := [] }

variable (group : TaskGroup)

def update (id : TaskID) (change : GroupTask → GroupTask) : TaskGroup :=
  { group with spawned := group.spawned.modify id change }

/-- The task of the id goes on if it is in one of the phases. -/
def work (id : TaskID) (ready : GroupTask → Bool) (change : GroupTask → GroupTask) :
    Option TaskGroup :=
  match group.spawned[id]? with
  | some task => if ready task then some (group.update id change) else none
  | none => none

/-- Tasks are spawned from outside, and by the futures and callbacks of the group. -/
def spawns : Option TaskID → Bool
  | none => true
  | some id =>
    match group.spawned[id]? with
    | some ⟨.running, _, _⟩ => true
    | some ⟨.calling _, _, _⟩ => true
    | _ => false

def spawn (parent : Option TaskID) : Option TaskGroup :=
  if group.spawns parent then
    some
      { group with
        tasks := group.tasks.insert group.spawned.length ()
        spawned := group.spawned ++ [.new] }
  else none

/-- The events of a call of `cancel` that goes on to a phase. -/
def returns (call : Nat) : CancelPhase → List TaskEvent
  | .returned => [.returned call]
  | _ => []

/-- All handlers are taken out of the group, in any order. -/
def cancel (order : List TaskID) : Option (TaskGroup × List TaskEvent) :=
  if order.isPerm group.tasks.keys then
    some (
      { group with tasks := ∅, cancels := group.cancels ++ [.next order] },
      returns group.cancels.length (.next order))
  else none

def signalStop (call : Nat) : Option TaskGroup :=
  match group.cancels[call]? with
  | some (.signalling id rest) => some
      { group.update id fun task => { task with stopSignal := true } with
        cancels := group.cancels.set call (.waiting id rest) }
  | _ => none

/-- A call of `cancel` has waited for the cancel flag of a task. -/
def awaitFlag (call : Nat) : Option (TaskGroup × List TaskEvent) :=
  match group.cancels[call]? with
  | some (.waiting id rest) =>
    match group.spawned[id]? with
    | some ⟨_, _, true⟩ => some (
        { group with cancels := group.cancels.set call (.next rest) },
        returns call (.next rest))
    | _ => none
  | _ => none

def step : TaskAction → Option (TaskGroup × List TaskEvent)
  | .spawn parent => (group.spawn parent).map (·, [])
  | .complete id =>
    (group.work id (fun task => task.phase = .running)
      fun task => { task with phase := .calling .completed }).map (·, [])
  | .stop id =>
    (group.work id (fun task => task.phase = .running ∧ task.stopSignal)
      fun task => { task with phase := .calling .cancelled }).map (·, [])
  | .callbackDone id =>
    (group.work id (fun task => task.phase = .calling .completed ∨
        task.phase = .calling .cancelled)
      fun task => { task with phase := .signalling }).map (·, [])
  | .signalFlag id =>
    (group.work id (fun task => task.phase = .signalling)
      fun task => { task with phase := .removing, cancelFlag := true }).map (·, [])
  | .removeSelf id =>
    (group.work id (fun task => task.phase = .removing)
      fun task => { task with phase := .ended }).map
        fun group => ({ group with tasks := group.tasks.erase id }, [])
  | .panic id =>
    (group.work id (fun task => task.phase = .running ∨ task.phase = .calling .completed ∨
        task.phase = .calling .cancelled)
      fun task => { task with phase := .panicked }).map
        fun group => ({ group with tasks := group.tasks.erase id }, [])
  | .signalPanicked id =>
    (group.work id (fun task => task.phase = .panicked)
      fun task => { task with phase := .ended, cancelFlag := true }).map (·, [])
  | .remove id =>
    if id ∈ group.tasks then
      some ({ group with tasks := group.tasks.erase id, removed := id :: group.removed }, [])
    else none
  | .abort id =>
    if id ∈ group.removed then
      (group.work id (fun _ => true) fun task => { task with phase := .ended }).map (·, [])
    else none
  | .cancel order => group.cancel order
  | .signalStop call => (group.signalStop call).map (·, [])
  | .awaitFlag call => group.awaitFlag call

def running : List TaskID :=
  (List.range group.spawned.length).filter fun id =>
    group.spawned[id]?.any fun task => task.phase.active

/-- The handlers that each call of `cancel` has left. -/
def pending : List (List TaskID) :=
  group.cancels.map CancelPhase.handlers

/-- Some call of `cancel` has not returned. -/
def cancelling : Bool :=
  group.pending.any fun handlers => handlers ≠ []

/-- After a call of `cancel` only tasks of the group spawn into it. -/
def spawnsOwn : TaskAction → Bool
  | .spawn none => group.cancels.isEmpty
  | _ => true

/-- Nothing is spawned between the call of `cancel` and its return, and when it is called all
running tasks are in the group. -/
def drainsAll : TaskAction → Bool
  | .spawn _ => !group.cancelling
  | .cancel _ => group.running.all fun id => id ∈ group.tasks
  | _ => true

end TaskGroup

def taskGroupMachine : Machine TaskGroup TaskAction TaskEvent where
  start := .new
  step := TaskGroup.step

/-! ### What one step can do -/

namespace TaskGroup

variable {group next : TaskGroup} {id : TaskID} {action : TaskAction}
  {change : GroupTask → GroupTask} {call : Nat} {events : List TaskEvent}

theorem mem_running :
    id ∈ group.running ↔ ∃ task, group.spawned[id]? = some task ∧ task.phase.active = true := by
  rw [running, List.mem_filter, List.mem_range, Option.any_eq_true]
  constructor
  · exact And.right
  · rintro ⟨task, found, active⟩
    exact ⟨(List.getElem?_eq_some_iff.mp found).1, task, found, active⟩

/-- A task goes on: it does not come back to its future or to life, and its cancel flag is set
only when it is not active any more. -/
structure Becomes (before after : GroupTask) : Prop where
  running : after.phase = .running → before.phase = .running
  active : after.phase.active = true → before.phase.active = true
  flag : after.cancelFlag = true → before.cancelFlag = true ∨ after.phase.active = false

/-- The effects of a step: a task is spawned or goes on; a handler is taken out; a call of
`cancel` begins, signals a task, or goes on to the next one. -/
inductive Effect (group : TaskGroup) : TaskAction → TaskGroup → List TaskEvent → Prop
  | spawns {parent : Option TaskID} :
      Effect group (.spawn parent)
        { group with
          tasks := group.tasks.insert group.spawned.length ()
          spawned := group.spawned ++ [.new] } []
  | works {action : TaskAction} {id : TaskID} {change : GroupTask → GroupTask}
      {next : TaskGroup} (becomes : ∀ task, group.spawned[id]? = some task →
        Becomes task (change task))
      (spawned : next.spawned = group.spawned.modify id change)
      (fewer : next.tasks = group.tasks ∨
        (next.tasks = group.tasks.erase id ∧ ∀ task, (change task).phase.active = false))
      (pending : next.pending = group.pending) : Effect group action next []
  | removes {id : TaskID} :
      Effect group (.remove id)
        { group with tasks := group.tasks.erase id, removed := id :: group.removed } []
  | drains {order : List TaskID} (whole : order.Perm group.tasks.keys) :
      Effect group (.cancel order)
        { group with tasks := ∅, cancels := group.cancels ++ [.next order] }
        (returns group.cancels.length (.next order))
  | passes {action : TaskAction} {call : Nat} {id : TaskID} {rest : List TaskID}
      {task : GroupTask} (phase : group.cancels[call]? = some (.waiting id rest))
      (found : group.spawned[id]? = some task) (flag : task.cancelFlag = true) :
      Effect group action { group with cancels := group.cancels.set call (.next rest) }
        (returns call (.next rest))

theorem work_effect {ready : GroupTask → Bool} (worked : group.work id ready change = some next)
    (becomes : ∀ task, ready task = true → Becomes task (change task)) :
    Effect group action next [] ∧ ((∀ task, (change task).phase.active = false) →
      Effect group action { next with tasks := next.tasks.erase id } []) := by
  revert worked
  fun_cases work <;> rintro ⟨⟩
  rename_i task found isReady
  have goes (other : GroupTask) (itsFound : group.spawned[id]? = some other) :
      Becomes other (change other) := by
    rw [found] at itsFound
    cases itsFound
    exact becomes task isReady
  exact ⟨.works goes rfl (Or.inl rfl) rfl,
    fun inactive => .works goes rfl (Or.inr ⟨rfl, inactive⟩) rfl⟩

theorem signalStop_effect (signalled : group.signalStop call = some next) :
    Effect group action next [] := by
  revert signalled
  fun_cases signalStop <;> rintro ⟨⟩
  rename_i target rest phase
  refine @Effect.works group action target (fun task => { task with stopSignal := true }) _
    (fun task _ => ⟨id, id, Or.inl⟩) rfl (Or.inl rfl) ?_
  obtain ⟨bound, found⟩ := List.getElem?_eq_some_iff.mp phase
  have handlers : (CancelPhase.waiting target rest).handlers = group.cancels[call].handlers := by
    rw [found]
    rfl
  show (group.cancels.set call (.waiting target rest)).map CancelPhase.handlers = group.pending
  rw [List.map_set, handlers, ← List.map_set, List.set_getElem_self]
  rfl

theorem awaitFlag_effect (awaited : group.awaitFlag call = some (next, events)) :
    Effect group action next events := by
  revert awaited
  fun_cases awaitFlag <;> rintro ⟨⟩
  rename_i phase _ _ found
  exact .passes phase found rfl

theorem step_effect (step : group.step action = some (next, events)) :
    Effect group action next events := by
  cases action with
  | spawn parent =>
    obtain ⟨_, spawned, ⟨⟩⟩ := Option.map_eq_some_iff.mp step
    obtain ⟨_, ⟨⟩⟩ := Option.ite_none_right_eq_some.mp spawned
    exact .spawns
  | complete target =>
    obtain ⟨_, worked, ⟨⟩⟩ := Option.map_eq_some_iff.mp step
    refine (work_effect worked fun task ready => ⟨nofun, fun _ => ?_, Or.inl⟩).1
    rw [of_decide_eq_true ready]
    rfl
  | stop target =>
    obtain ⟨_, worked, ⟨⟩⟩ := Option.map_eq_some_iff.mp step
    refine (work_effect worked fun task ready => ⟨nofun, fun _ => ?_, Or.inl⟩).1
    rw [(of_decide_eq_true ready).1]
    rfl
  | callbackDone target =>
    obtain ⟨_, worked, ⟨⟩⟩ := Option.map_eq_some_iff.mp step
    refine (work_effect worked fun task ready => ⟨nofun, fun _ => ?_, Or.inl⟩).1
    rcases of_decide_eq_true ready with phase | phase
    · rw [phase]
      rfl
    · rw [phase]
      rfl
  | signalFlag target | signalPanicked target =>
    obtain ⟨_, worked, ⟨⟩⟩ := Option.map_eq_some_iff.mp step
    exact (work_effect worked fun task ready => ⟨nofun, nofun, fun _ => Or.inr rfl⟩).1
  | removeSelf target | panic target =>
    obtain ⟨_, worked, ⟨⟩⟩ := Option.map_eq_some_iff.mp step
    exact (work_effect worked fun task ready => ⟨nofun, nofun, Or.inl⟩).2 fun _ => rfl
  | remove target =>
    obtain ⟨_, ⟨⟩⟩ := Option.ite_none_right_eq_some.mp step
    exact .removes
  | abort target =>
    obtain ⟨_, step⟩ := Option.ite_none_right_eq_some.mp step
    obtain ⟨_, worked, ⟨⟩⟩ := Option.map_eq_some_iff.mp step
    exact (work_effect worked fun task ready => ⟨nofun, nofun, Or.inl⟩).1
  | cancel order =>
    obtain ⟨whole, ⟨⟩⟩ := Option.ite_none_right_eq_some.mp step
    exact .drains (List.isPerm_iff.mp whole)
  | signalStop call =>
    obtain ⟨_, signalled, ⟨⟩⟩ := Option.map_eq_some_iff.mp step
    exact signalStop_effect signalled
  | awaitFlag call => exact awaitFlag_effect step

/-! ### Running tasks and their flags -/

theorem Becomes.refl (task : GroupTask) : Becomes task task :=
  ⟨id, id, Or.inl⟩

theorem works_task {other : TaskID} {task : GroupTask}
    (becomes : ∀ task, group.spawned[id]? = some task → Becomes task (change task))
    (spawned : next.spawned = group.spawned.modify id change)
    (found : next.spawned[other]? = some task) :
    ∃ before, group.spawned[other]? = some before ∧ Becomes before task := by
  rw [spawned, List.getElem?_modify, Option.map_eq_map, Option.map_eq_some_iff] at found
  obtain ⟨before, itsFound, rfl⟩ := found
  refine ⟨before, itsFound, ?_⟩
  by_cases same : id = other
  · rw [if_pos same]
    exact becomes before (same ▸ itsFound)
  · rw [if_neg same]
    exact .refl before

/-- A task whose cancel flag is set is not active. -/
def Flagged (group : TaskGroup) : Prop :=
  ∀ (id : TaskID) (task : GroupTask), group.spawned[id]? = some task →
    task.cancelFlag = true → task.phase.active = false

section

variable (effect : Effect group action next events)

include effect

/-- A spawned task is one of before that may have gone on, or it is new. -/
theorem Effect.task {task : GroupTask} (found : next.spawned[id]? = some task) :
    (∃ before, group.spawned[id]? = some before ∧ Becomes before task) ∨
      (id = group.spawned.length ∧ task = .new) := by
  cases effect with
  | spawns =>
    rcases Indexed.concat_eq_some.mp found with old | new
    · exact Or.inl ⟨task, old, .refl task⟩
    · exact Or.inr new
  | works becomes spawned => exact Or.inl (works_task becomes spawned found)
  | removes | drains | passes => exact Or.inl ⟨task, found, .refl task⟩

theorem Effect.flagged (flagged : Flagged group) : Flagged next := by
  intro id task found flag
  rcases effect.task found with ⟨before, itsFound, becomes⟩ | ⟨_, rfl⟩
  · rcases becomes.flag flag with was | inactive
    · refine Bool.eq_false_iff.mpr fun active => ?_
      have inactive := flagged id before itsFound was
      rw [becomes.active active] at inactive
      cases inactive
    · exact inactive
  · cases flag

/-- Of the tasks that were there before, those run that ran before. -/
theorem Effect.running (runs : id ∈ next.running) :
    id ∈ group.running ∨ id = group.spawned.length := by
  obtain ⟨task, found, active⟩ := mem_running.mp runs
  rcases effect.task found with ⟨before, itsFound, becomes⟩ | ⟨new, _⟩
  · exact Or.inl (mem_running.mpr ⟨before, itsFound, becomes.active active⟩)
  · exact Or.inr new

end

theorem Flagged.notMem_running (flagged : Flagged group) {task : GroupTask}
    (found : group.spawned[id]? = some task) (flag : task.cancelFlag = true) :
    id ∉ group.running := by
  intro runs
  obtain ⟨its, itsFound, active⟩ := mem_running.mp runs
  rw [found] at itsFound
  cases itsFound
  rw [flagged id task found flag] at active
  cases active

/-! ### The tasks that a call of `cancel` reaches -/

theorem handlers_next (order : List TaskID) : (CancelPhase.next order).handlers = order := by
  cases order <;> rfl

theorem returned_mem {id : Nat} {handlers : List TaskID}
    (member : .returned id ∈ returns call (.next handlers)) : handlers = [] ∧ id = call := by
  cases handlers with
  | nil => exact ⟨rfl, TaskEvent.returned.inj (List.mem_singleton.mp member)⟩
  | cons => cases member

theorem awaitFlag_events (awaited : group.awaitFlag call = some (next, events)) :
    events = [] ∨ events = [.returned call] := by
  revert awaited
  fun_cases awaitFlag <;> rintro ⟨⟩
  rename_i rest _ _ _ _
  cases rest with
  | nil => exact Or.inr rfl
  | cons => exact Or.inl rfl

/-- A call of `cancel` has the task among its handlers as long as the task runs. -/
def Reaches (group : TaskGroup) (call : Nat) (id : TaskID) : Prop :=
  id < group.spawned.length ∧
    ∃ handlers, group.pending[call]? = some handlers ∧ (id ∈ group.running → id ∈ handlers)

/-- A call of `cancel` reaches every task that is in the group when it is called. -/
theorem reaches_of_drained {order : List TaskID} (whole : order.Perm group.tasks.keys)
    (known : id < group.spawned.length) (member : id ∈ group.running → id ∈ group.tasks) :
    Reaches { group with tasks := ∅, cancels := group.cancels ++ [.next order] }
      group.cancels.length id := by
  refine ⟨known, order, ?_, fun runs => whole.mem_iff.mpr (AList.mem_keys.mp (member runs))⟩
  rw [pending, List.map_append, List.map_singleton, handlers_next,
    List.getElem?_append_right (by rw [List.length_map]), List.length_map, Nat.sub_self]
  rfl

section

variable (effect : Effect group action next events)

include effect

theorem Effect.length_le :
    group.spawned.length ≤ next.spawned.length := by
  cases effect with
  | spawns => exact List.length_append ▸ Nat.le_add_right _ _
  | works becomes spawned => rw [spawned, List.length_modify]
  | removes | drains | passes => exact Nat.le_refl _

theorem Effect.reaches (flagged : Flagged group) (reaches : Reaches group call id) :
    Reaches next call id := by
  obtain ⟨known, handlers, found, among⟩ := reaches
  have runs (member : id ∈ next.running) : id ∈ handlers :=
    among ((effect.running member).resolve_right (Nat.ne_of_lt known))
  refine ⟨Nat.lt_of_lt_of_le known effect.length_le, ?_⟩
  cases effect with
  | spawns => exact ⟨handlers, found, runs⟩
  | works becomes spawned fewer pending => exact ⟨handlers, pending ▸ found, runs⟩
  | removes => exact ⟨handlers, found, runs⟩
  | drains whole =>
    refine ⟨handlers, ?_, runs⟩
    rw [pending, List.map_append]
    exact (List.getElem?_append_left (List.getElem?_eq_some_iff.mp found).1).trans found
  | passes phase itsFound flag =>
    rename_i other target rest task
    rw [pending, List.map_set, handlers_next]
    by_cases same : other = call
    · subst same
      have bound := (List.getElem?_eq_some_iff.mp found).1
      refine ⟨rest, List.getElem?_set_self bound, fun member => ?_⟩
      rw [pending, List.getElem?_map, phase, Option.map_some, Option.some.injEq] at found
      have left := runs member
      rw [← found] at left
      refine (List.mem_cons.mp left).resolve_left ?_
      rintro rfl
      exact flagged.notMem_running itsFound flag member
    · exact ⟨handlers, (List.getElem?_set_ne same).trans found, runs⟩

/-- A task that a call of `cancel` reaches does not run when the call returns. -/
theorem Effect.notMem_running (flagged : Flagged group) (reaches : Reaches group call id)
    (returned : .returned call ∈ events) : id ∉ next.running := by
  intro member
  cases effect with
  | spawns | works | removes => cases returned
  | drains =>
    obtain ⟨_, handlers, found, _⟩ := reaches
    have bound := (List.getElem?_eq_some_iff.mp found).1
    rw [pending, List.length_map, (returned_mem returned).2] at bound
    exact Nat.lt_irrefl _ bound
  | passes phase itsFound flag =>
    obtain ⟨rfl, rfl⟩ := returned_mem returned
    obtain ⟨_, handlers, found, among⟩ := reaches
    rw [pending, List.getElem?_map, phase, Option.map_some, Option.some.injEq] at found
    subst found
    obtain rfl := List.mem_singleton.mp (among member)
    exact flagged.notMem_running itsFound flag member

/-- A running task stays in the group, unless its handler is taken out. -/
theorem Effect.member (stays : action ≠ .remove id ∧ ∀ order, action ≠ .cancel order)
    (known : id < group.spawned.length) (member : id ∈ group.running → id ∈ group.tasks)
    (runs : id ∈ next.running) : id ∈ next.tasks := by
  have inGroup := member ((effect.running runs).resolve_right (Nat.ne_of_lt known))
  cases effect with
  | spawns => exact (AList.mem_insert _).mpr (Or.inr inGroup)
  | works becomes spawned fewer pending =>
    rename_i target change
    rcases fewer with same | ⟨erased, inactive⟩
    · rw [same]
      exact inGroup
    · rw [erased]
      refine AList.mem_erase.mpr ⟨?_, inGroup⟩
      rintro rfl
      obtain ⟨task, found, active⟩ := mem_running.mp runs
      rw [spawned, List.getElem?_modify_eq, Option.map_eq_map, Option.map_eq_some_iff] at found
      obtain ⟨before, _, rfl⟩ := found
      rw [inactive before] at active
      cases active
  | removes =>
    rename_i target
    refine AList.mem_erase.mpr ⟨?_, inGroup⟩
    rintro rfl
    exact stays.1 rfl
  | drains => exact absurd rfl (stays.2 _)
  | passes => exact inGroup

theorem Effect.pending_nil (stays : ∀ order, action ≠ .cancel order)
    (uncalled : group.pending = []) :
    next.pending = [] := by
  cases effect with
  | spawns => exact uncalled
  | works becomes spawned fewer pending => exact pending.trans uncalled
  | removes => exact uncalled
  | drains => exact absurd rfl (stays _)
  | passes phase =>
    have nothing := List.map_eq_nil_iff.mp uncalled
    rw [nothing] at phase
    cases phase

end

/-! ### Tasks in their future -/

/-- The task whose future an action ends. -/
def leaves : TaskAction → Option TaskID
  | .complete id | .stop id | .panic id | .abort id => some id
  | _ => none

theorem work_other {target : TaskID} {ready : GroupTask → Bool} {task : GroupTask}
    (worked : group.work target ready change = some next) (found : group.spawned[id]? = some task)
    (idle : target = id → ready task = false) :
    next.spawned[id]? = some task := by
  revert worked
  fun_cases work <;> rintro ⟨⟩
  rename_i itsFound isReady
  have different : target ≠ id := by
    rintro rfl
    rw [found] at itsFound
    cases itsFound
    rw [idle rfl] at isReady
    cases isReady
  simp only [update, List.getElem?_modify, if_neg different, Option.map_eq_map,
    Option.map_id']
  exact found

/-- A task stays in its future until an action ends it. -/
theorem step_running {task : GroupTask} (step : group.step action = some (next, events))
    (found : group.spawned[id]? = some task) (running : task.phase = .running)
    (stays : leaves action ≠ some id) :
    ∃ later, next.spawned[id]? = some later ∧ later.phase = .running := by
  have unready {target : TaskID} {ready : GroupTask → Bool} {change : GroupTask → GroupTask}
      {later : TaskGroup} (worked : group.work target ready change = some later)
      (idle : target = id → ready task = false) :
      ∃ same, later.spawned[id]? = some same ∧ same.phase = .running :=
    ⟨task, work_other worked found idle, running⟩
  have elsewhere {target : TaskID} (its : leaves action = some target) : target ≠ id :=
    fun same => stays (same ▸ its)
  cases action with
  | spawn parent =>
    obtain ⟨_, spawned, ⟨⟩⟩ := Option.map_eq_some_iff.mp step
    obtain ⟨_, ⟨⟩⟩ := Option.ite_none_right_eq_some.mp spawned
    exact ⟨task, Indexed.concat_eq_some.mpr (Or.inl found), running⟩
  | complete target | stop target | panic target =>
    obtain ⟨_, worked, ⟨⟩⟩ := Option.map_eq_some_iff.mp step
    have kept := unready worked fun same => absurd same (elsewhere rfl)
    exact kept
  | callbackDone target | signalFlag target | signalPanicked target | removeSelf target =>
    obtain ⟨_, worked, ⟨⟩⟩ := Option.map_eq_some_iff.mp step
    have kept := unready worked fun _ => by rw [running]; rfl
    exact kept
  | abort target =>
    obtain ⟨_, step⟩ := Option.ite_none_right_eq_some.mp step
    obtain ⟨_, worked, ⟨⟩⟩ := Option.map_eq_some_iff.mp step
    exact unready worked fun same => absurd same (elsewhere rfl)
  | remove target | cancel order =>
    obtain ⟨_, ⟨⟩⟩ := Option.ite_none_right_eq_some.mp step
    exact ⟨task, found, running⟩
  | signalStop call =>
    obtain ⟨_, signalled, ⟨⟩⟩ := Option.map_eq_some_iff.mp step
    revert signalled
    fun_cases signalStop <;> rintro ⟨⟩
    rename_i target rest phase
    refine ⟨if target = id then { task with stopSignal := true } else task, ?_, ?_⟩
    · simp only [update, List.getElem?_modify, found, Option.map_eq_map, Option.map_some]
    · split <;> exact running
  | awaitFlag call =>
    rw [TaskGroup.step] at step
    revert step
    fun_cases awaitFlag <;> rintro ⟨⟩
    exact ⟨task, found, running⟩

/-! ### What is left to cancel -/

/-- As long as a call of `cancel` has handlers left the group is empty and the tasks that run are
among these handlers. -/
structure Drained (group : TaskGroup) : Prop where
  flagged : Flagged group
  left : ∀ handlers ∈ group.pending, handlers ≠ [] →
    group.tasks = ∅ ∧ group.running ⊆ handlers

theorem new_drained : Drained .new where
  flagged id task found := by cases found
  left handlers member := by cases member

theorem Drained.works (drained : Drained group)
    (becomes : ∀ task, group.spawned[id]? = some task → Becomes task (change task))
    (spawned : next.spawned = group.spawned.modify id change)
    (fewer : next.tasks = group.tasks ∨
      (next.tasks = group.tasks.erase id ∧ ∀ task, (change task).phase.active = false))
    (pending : next.pending = group.pending) {handlers : List TaskID}
    (member : handlers ∈ next.pending) (nonempty : handlers ≠ []) :
    next.tasks = ∅ ∧ next.running ⊆ handlers := by
  rw [pending] at member
  obtain ⟨empty, among⟩ := drained.left handlers member nonempty
  refine ⟨?_, fun other runs => ?_⟩
  · rcases fewer with same | ⟨erased, _⟩
    · rw [same, empty]
    · rw [erased, empty]
      rfl
  · obtain ⟨task, found, active⟩ := mem_running.mp runs
    obtain ⟨before, itsFound, goes⟩ := works_task becomes spawned found
    exact among (mem_running.mpr ⟨before, itsFound, goes.active active⟩)

/-- A call of `cancel` that begins when all running tasks are in the group has them all among its
handlers. -/
theorem running_subset {order : List TaskID} (whole : order.Perm group.tasks.keys)
    (all : (group.running.all fun id => id ∈ group.tasks) = true) : group.running ⊆ order := by
  intro id member
  have inGroup := of_decide_eq_true (List.all_eq_true.mp all id member)
  exact whole.mem_iff.mpr (AList.mem_keys.mp inGroup)

/-- A call of `cancel` that has seen the cancel flag of a task has the running tasks among the
handlers that are left. -/
theorem Drained.rest (drained : Drained group) {rest : List TaskID} {task : GroupTask}
    (phase : group.cancels[call]? = some (.waiting id rest))
    (found : group.spawned[id]? = some task) (flag : task.cancelFlag = true) :
    group.tasks = ∅ ∧ group.running ⊆ rest := by
  have pending : id :: rest ∈ group.pending :=
    List.mem_map.mpr ⟨_, List.mem_of_getElem? phase, rfl⟩
  obtain ⟨empty, among⟩ := drained.left _ pending (List.cons_ne_nil _ _)
  refine ⟨empty, fun other runs => (List.mem_cons.mp (among runs)).resolve_left ?_⟩
  rintro rfl
  exact drained.flagged.notMem_running found flag runs

variable (effect : Effect group action next events) (held : Drained group)
  (drains : group.drainsAll action = true)

include effect held drains

/-- Every step that drains the whole group leaves what is to be cancelled to its calls. -/
theorem Effect.drained : Drained next := by
  refine ⟨effect.flagged held.flagged, fun handlers member nonempty => ?_⟩
  cases effect with
  | spawns =>
    have finished := List.any_eq_false.mp (Bool.not_eq_true' _ |>.mp drains) handlers member
    exact absurd (decide_eq_true nonempty) finished
  | works becomes spawned fewer pending =>
    exact held.works becomes spawned fewer pending member nonempty
  | removes =>
    obtain ⟨empty, among⟩ := held.left handlers member nonempty
    refine ⟨?_, among⟩
    rw [empty]
    rfl
  | drains whole =>
    refine ⟨rfl, ?_⟩
    rw [pending, List.map_append, List.map_singleton, handlers_next] at member
    rcases mem_concat.mp member with before | rfl
    · exact (held.left handlers before nonempty).2
    · exact (running_subset whole drains : group.running ⊆ _)
  | passes phase found flag =>
    rw [pending, List.map_set, handlers_next] at member
    rcases List.mem_or_eq_of_mem_set member with before | rfl
    · exact held.left handlers before nonempty
    · exact held.rest phase found flag

/-- When a call of `cancel` returns, the group is empty and nothing runs. -/
theorem Effect.returned (returned : .returned call ∈ events) :
    next.tasks = ∅ ∧ next.running = [] := by
  cases effect with
  | spawns | works | removes => cases returned
  | drains whole =>
    have among := running_subset whole drains
    rw [(returned_mem returned).1] at among
    exact ⟨rfl, List.subset_nil.mp among⟩
  | passes phase found flag =>
    obtain ⟨empty, among⟩ := held.rest phase found flag
    rw [(returned_mem returned).1] at among
    exact ⟨empty, List.subset_nil.mp among⟩

end TaskGroup

/-- In every run in which nothing is spawned between a call of `cancel` and its return, and in
which all running tasks are in the group when it is cancelled, the group is empty and no task
that was spawned into it runs when `cancel` returns. -/
theorem taskGroup_cancel_stops {history events : List TaskEvent} {group next : TaskGroup}
    {action : TaskAction} {call : Nat}
    (run : taskGroupMachine.Run (fun group action => group.drainsAll action = true) history group)
    (drains : group.drainsAll action = true)
    (step : taskGroupMachine.step group action = some (next, events))
    (returned : .returned call ∈ events) :
    next.tasks = ∅ ∧ next.running = [] := by
  have drained : TaskGroup.Drained group :=
    run.invariant (fun _ => TaskGroup.Drained) TaskGroup.new_drained
      fun _ _ _ _ _ before drains step => (TaskGroup.step_effect step).drained before drains
  exact (TaskGroup.step_effect step).returned drained drains returned

/-- Two tasks, one of which has completed and is in its callback, are cancelled one after the
other. -/
theorem taskGroup_cancel_stops_two :
    ∃ history group next, taskGroupMachine.Run
        (fun group action => group.drainsAll action = true) history group ∧
      taskGroupMachine.step group (.awaitFlag 0) = some (next, [.returned 0]) ∧
      next.spawned.length = 2 ∧ next.tasks = ∅ ∧ next.running = [] := by
  have taken : taskGroupMachine.reach TaskGroup.drainsAll
      [.spawn none, .spawn (some 0), .complete 1, .cancel [1, 0], .signalStop 0, .callbackDone 1,
        .signalFlag 1, .awaitFlag 0, .signalStop 0, .removeSelf 1, .stop 0, .callbackDone 0,
        .signalFlag 0] =
      some ([], ⟨∅, [⟨.removing, true, true⟩, ⟨.ended, true, true⟩], [], [.waiting 0 []]⟩) := rfl
  have run := Machine.Run.of_reach taken
  have step : taskGroupMachine.step
      ⟨∅, [⟨.removing, true, true⟩, ⟨.ended, true, true⟩], [], [.waiting 0 []]⟩ (.awaitFlag 0) =
      some (_, [.returned 0]) := rfl
  exact ⟨_, _, _, run, step, rfl,
    taskGroup_cancel_stops run rfl step (List.mem_singleton_self _)⟩

/-- A task that has not been signalled yet spawns another one, which is in the group and runs
when `cancel` has returned. -/
theorem taskGroup_cancel_misses :
    ∃ history group, taskGroupMachine.Run
        (fun group action => group.spawnsOwn action = true) history group ∧
      history = [.returned 0] ∧ group.tasks.keys = [1] ∧ group.running = [1] := by
  exact Machine.reach_holds
    [.spawn none, .cancel [0], .spawn (some 0), .signalStop 0, .stop 0, .callbackDone 0,
      .signalFlag 0, .awaitFlag 0] ⟨_, rfl, rfl, rfl, rfl⟩

end Karyon.Core
