/-
This file models the bounded queue of `core/src/async_util/async_queue.rs` with any number of `push`
and `recv` calls in flight.

A call waits for the mutex, and while the queue is full (or empty) it parks on a condition variable,
which releases the mutex; once signalled and polled again it waits for the mutex a second time. What
a call does with the mutex has no await point, so it is one step. When the mutex is free it is
granted to some call that waits for it. Any call may be dropped at any of its await points, also
when it was granted the mutex and has not run.
-/

import Karyon.Core.CondVar
import Karyon.Lib.Transition

namespace Karyon.Core

open Transition

variable {Item : Type}

/-! ### The queue and its calls -/

inductive Call (Item : Type) where
  | push (item : Item)
  | recv

/-- Where a call waits: for the mutex, parked on its condition variable, or for the mutex again
after it was woken. -/
inductive CallPhase where
  | locking
  | parked (id : Nat)
  | relocking
  | finished
  | dropped
  deriving DecidableEq

/-- The call waits for the mutex, or has been granted it and has not run yet. -/
def CallPhase.wantsMutex : CallPhase → Bool
  | .locking | .relocking => true
  | _ => false

/-- A call of `push` or `recv`. -/
structure Task (Item : Type) where
  call : Call Item
  phase : CallPhase

structure AsyncQueue (Item : Type) where
  capacity : Nat
  queue : List Item
  mutex : Option Nat
  notEmpty : Wakers
  notFull : Wakers
  tasks : List (Task Item)
  positive : 0 < capacity
  bounded : queue.length ≤ capacity

/-- What the queue's clients observe: a call of `push` or `recv` that completes. -/
inductive QueueEvent (Item : Type) where
  | pushed (item : Item)
  | received (item : Item)

/-- What can happen next: a new call, the mutex being granted to a call, the call that has the
mutex running, a parked call being polled, and a call being dropped. The number that comes with a
step that signals is the waiter which the signal meets. -/
inductive QueueAction (Item : Type) where
  | start (call : Call Item)
  | grant (task : Nat)
  | run (task : Nat) (met : Nat)
  | poll (task : Nat)
  | drop (task : Nat) (met : Nat)

namespace AsyncQueue

def new (capacity : Nat) (positive : 0 < capacity) : AsyncQueue Item where
  capacity := capacity
  queue := []
  mutex := none
  notEmpty := .new
  notFull := .new
  tasks := []
  positive := positive
  bounded := Nat.zero_le _

variable (self : AsyncQueue Item) (task : Nat)

def setPhase (phase : CallPhase) : AsyncQueue Item :=
  { self with tasks := self.tasks.modify task fun its => { its with phase } }

/-- Release the mutex if the call has it. -/
def release : AsyncQueue Item :=
  if self.mutex = some task then { self with mutex := none } else self

def push (item : Item) (met : Nat) : Option (AsyncQueue Item × List (QueueEvent Item)) :=
  if full : self.queue.length ≥ self.capacity then
    let (id, notFull) := self.notFull.put task
    some ({ self with notFull, mutex := none }.setPhase task (.parked id), [])
  else
    match self.notEmpty.wake met with
    | none => none
    | some notEmpty =>
      some ({ self with
        queue := self.queue ++ [item]
        notEmpty
        mutex := none
        bounded := by
          rw [List.length_append, List.length_singleton]
          exact Nat.not_le.mp full }.setPhase task .finished, [.pushed item])

def recv (met : Nat) : Option (AsyncQueue Item × List (QueueEvent Item)) :=
  match contents : self.queue with
  | [] =>
    let (id, notEmpty) := self.notEmpty.put task
    some ({ self with notEmpty, mutex := none }.setPhase task (.parked id), [])
  | item :: rest =>
    match self.notFull.wake met with
    | none => none
    | some notFull =>
      some ({ self with
        queue := rest
        notFull
        mutex := none
        bounded := by
          have bounded := self.bounded
          rw [contents, List.length_cons] at bounded
          exact Nat.le_of_succ_le bounded }.setPhase task .finished, [.received item])

/-- Poll a parked call: it goes on when it was signalled. -/
def poll : Option (AsyncQueue Item × List (QueueEvent Item)) :=
  match self.tasks[task]? with
  | some ⟨.push _, .parked id⟩ =>
    match self.notFull.wakers.lookup id with
    | some (some _) => none
    | some none =>
      some ({ self with notFull := self.notFull.delete id }.setPhase task .relocking, [])
    | none => some (self.setPhase task .relocking, [])
  | some ⟨.recv, .parked id⟩ =>
    match self.notEmpty.wakers.lookup id with
    | some (some _) => none
    | some none =>
      some ({ self with notEmpty := self.notEmpty.delete id }.setPhase task .relocking, [])
    | none => some (self.setPhase task .relocking, [])
  | _ => none

def drop (met : Nat) : Option (AsyncQueue Item × List (QueueEvent Item)) :=
  match self.tasks[task]? with
  | some ⟨_, .locking⟩ => some ((self.release task).setPhase task .dropped, [])
  | some ⟨_, .relocking⟩ => some ((self.release task).setPhase task .dropped, [])
  | some ⟨.push _, .parked id⟩ =>
    match self.notFull.dropWaiter id met with
    | none => none
    | some notFull => some ({ self with notFull }.setPhase task .dropped, [])
  | some ⟨.recv, .parked id⟩ =>
    match self.notEmpty.dropWaiter id met with
    | none => none
    | some notEmpty => some ({ self with notEmpty }.setPhase task .dropped, [])
  | _ => none

def step : QueueAction Item → Option (AsyncQueue Item × List (QueueEvent Item))
  | .start call => some ({ self with tasks := self.tasks ++ [⟨call, .locking⟩] }, [])
  | .grant task =>
    match self.mutex, self.tasks[task]? with
    | none, some its =>
      if its.phase.wantsMutex then some ({ self with mutex := some task }, []) else none
    | _, _ => none
  | .run task met =>
    match self.tasks[task]? with
    | some its =>
      if self.mutex = some task ∧ its.phase.wantsMutex then
        match its.call with
        | .push item => self.push task item met
        | .recv => self.recv task met
      else none
    | none => none
  | .poll task => self.poll task
  | .drop task met => self.drop task met

end AsyncQueue

def queueMachine (Item : Type) (capacity : Nat) (positive : 0 < capacity) :
    Machine (AsyncQueue Item) (QueueAction Item) (QueueEvent Item) where
  start := .new capacity positive
  step := AsyncQueue.step

/-! ### Consumers and producers alike -/

/-- The two kinds of calls, with what one of them waits for. -/
inductive Side where
  | consumer
  | producer
  deriving DecidableEq

def Side.other : Side → Side
  | .consumer => .producer
  | .producer => .consumer

def Call.side : Call Item → Side
  | .push _ => .producer
  | .recv => .consumer

namespace AsyncQueue

/-- The condition variable a side waits on. -/
def condvar (self : AsyncQueue Item) : Side → Wakers
  | .consumer => self.notEmpty
  | .producer => self.notFull

/-- How many calls of a side could complete: the items for consumers, the room for producers. -/
def available (self : AsyncQueue Item) : Side → Nat
  | .consumer => self.queue.length
  | .producer => self.capacity - self.queue.length

end AsyncQueue

/-- What a call that completes does to the items, and what is observed. -/
inductive Call.Serves :
    Call Item → List Item → List Item → List (QueueEvent Item) → Prop
  | push {item : Item} {queue : List Item} :
      Serves (.push item) queue (queue ++ [item]) [.pushed item]
  | recv {item : Item} {rest : List Item} :
      Serves .recv (item :: rest) rest [.received item]

namespace AsyncQueue

/-- The tasks with the phase of one of them set. -/
def withPhase (self : AsyncQueue Item) (task : Nat) (phase : CallPhase) : List (Task Item) :=
  (self.setPhase task phase).tasks

/-- The effects of a step: a call begins, is granted the mutex, parks, completes, is woken, or is
dropped while it waits for the mutex or while it is parked. -/
inductive Effect (self : AsyncQueue Item) :
    QueueAction Item → AsyncQueue Item → List (QueueEvent Item) → Prop
  | starts {call : Call Item} {next : AsyncQueue Item}
      (tasks : next.tasks = self.tasks ++ [⟨call, .locking⟩])
      (condvar : next.condvar = self.condvar) (queue : next.queue = self.queue)
      (capacity : next.capacity = self.capacity) :
      Effect self (.start call) next []
  | grants {task : Nat} {next : AsyncQueue Item} (tasks : next.tasks = self.tasks)
      (condvar : next.condvar = self.condvar) (queue : next.queue = self.queue)
      (capacity : next.capacity = self.capacity) :
      Effect self (.grant task) next []
  | parks {task met : Nat} {its : Task Item} {next : AsyncQueue Item}
      (found : self.tasks[task]? = some its) (wants : its.phase.wantsMutex = true)
      (blocked : self.available its.call.side = 0)
      (tasks : next.tasks = self.withPhase task (.parked (self.condvar its.call.side).nextId))
      (condvar : next.condvar = Function.update self.condvar its.call.side
        ((self.condvar its.call.side).put task).2)
      (queue : next.queue = self.queue) (capacity : next.capacity = self.capacity) :
      Effect self (.run task met) next []
  | completes {task met : Nat} {its : Task Item} {woken : Wakers} {next : AsyncQueue Item}
      {events : List (QueueEvent Item)} (found : self.tasks[task]? = some its)
      (wants : its.phase.wantsMutex = true)
      (signal : (self.condvar its.call.side.other).wake met = some woken)
      (tasks : next.tasks = self.withPhase task .finished)
      (condvar : next.condvar = Function.update self.condvar its.call.side.other woken)
      (serves : its.call.Serves self.queue next.queue events)
      (capacity : next.capacity = self.capacity) :
      Effect self (.run task met) next events
  | wakes {task id : Nat} {its : Task Item} {wakers : Wakers} {next : AsyncQueue Item}
      (found : self.tasks[task]? = some its) (parked : its.phase = .parked id)
      (signalled : ((self.condvar its.call.side).wakers.lookup id = some none ∧
          wakers = (self.condvar its.call.side).delete id) ∨
        ((self.condvar its.call.side).wakers.lookup id = none ∧
          wakers = self.condvar its.call.side))
      (tasks : next.tasks = self.withPhase task .relocking)
      (condvar : next.condvar = Function.update self.condvar its.call.side wakers)
      (queue : next.queue = self.queue) (capacity : next.capacity = self.capacity) :
      Effect self (.poll task) next []
  | cancels {task met : Nat} {its : Task Item} {next : AsyncQueue Item}
      (found : self.tasks[task]? = some its) (wants : its.phase.wantsMutex = true)
      (tasks : next.tasks = self.withPhase task .dropped)
      (condvar : next.condvar = self.condvar) (queue : next.queue = self.queue)
      (capacity : next.capacity = self.capacity) :
      Effect self (.drop task met) next []
  | abandons {task met id : Nat} {its : Task Item} {wakers : Wakers} {next : AsyncQueue Item}
      (found : self.tasks[task]? = some its) (parked : its.phase = .parked id)
      (passed : (self.condvar its.call.side).dropWaiter id met = some wakers)
      (tasks : next.tasks = self.withPhase task .dropped)
      (condvar : next.condvar = Function.update self.condvar its.call.side wakers)
      (queue : next.queue = self.queue) (capacity : next.capacity = self.capacity) :
      Effect self (.drop task met) next []

variable {self next : AsyncQueue Item} {task met : Nat} {events : List (QueueEvent Item)}

theorem condvar_consumer (notFull : next.notFull = self.notFull) :
    next.condvar = Function.update self.condvar .consumer next.notEmpty := by
  funext side
  cases side with
  | consumer => rfl
  | producer => exact notFull

theorem condvar_producer (notEmpty : next.notEmpty = self.notEmpty) :
    next.condvar = Function.update self.condvar .producer next.notFull := by
  funext side
  cases side with
  | consumer => exact notEmpty
  | producer => rfl

theorem condvar_same (notEmpty : next.notEmpty = self.notEmpty)
    (notFull : next.notFull = self.notFull) : next.condvar = self.condvar := by
  funext side
  cases side with
  | consumer => exact notEmpty
  | producer => exact notFull

theorem push_effect {item : Item} {phase : CallPhase}
    (found : self.tasks[task]? = some ⟨.push item, phase⟩) (wants : phase.wantsMutex = true)
    (step : self.push task item met = some (next, events)) :
    Effect self (.run task met) next events := by
  unfold push at step
  split at step
  · rename_i full
    cases step
    exact .parks found wants (Nat.sub_eq_zero_of_le full) rfl (condvar_producer rfl) rfl rfl
  · split at step
    · cases step
    · rename_i woken signal
      cases step
      exact .completes found wants signal rfl (condvar_consumer rfl) .push rfl

theorem recv_effect {phase : CallPhase} (found : self.tasks[task]? = some ⟨.recv, phase⟩)
    (wants : phase.wantsMutex = true) (step : self.recv task met = some (next, events)) :
    Effect self (.run task met) next events := by
  unfold recv at step
  split at step
  · rename_i empty
    cases step
    exact .parks found wants (congrArg List.length empty) rfl (condvar_consumer rfl) rfl rfl
  · rename_i item rest contents
    split at step
    · cases step
    · rename_i woken signal
      cases step
      refine .completes found wants signal rfl (condvar_producer rfl) ?_ rfl
      show Call.Serves .recv self.queue rest [.received item]
      rw [contents]
      exact .recv

theorem poll_effect (step : self.poll task = some (next, events)) :
    Effect self (.poll task) next events := by
  revert step
  fun_cases poll
  all_goals rintro ⟨⟩
  next found signalled =>
    exact .wakes found rfl (Or.inl ⟨signalled, rfl⟩) rfl (condvar_producer rfl) rfl rfl
  next found absent =>
    exact .wakes found rfl (Or.inr ⟨absent, rfl⟩) rfl (condvar_producer rfl) rfl rfl
  next found signalled =>
    exact .wakes found rfl (Or.inl ⟨signalled, rfl⟩) rfl (condvar_consumer rfl) rfl rfl
  next found absent =>
    exact .wakes found rfl (Or.inr ⟨absent, rfl⟩) rfl (condvar_consumer rfl) rfl rfl

theorem release_eq (self : AsyncQueue Item) (task : Nat) :
    self.release task = { self with mutex := (self.release task).mutex } := by
  unfold release
  split <;> rfl

theorem drop_effect (step : self.drop task met = some (next, events)) :
    Effect self (.drop task met) next events := by
  revert step
  fun_cases drop
  all_goals rintro ⟨⟩
  next found =>
    rw [release_eq]
    exact .cancels found rfl rfl (condvar_same rfl rfl) rfl rfl
  next found =>
    rw [release_eq]
    exact .cancels found rfl rfl (condvar_same rfl rfl) rfl rfl
  next found _ passed => exact .abandons found rfl passed rfl (condvar_producer rfl) rfl rfl
  next found _ passed => exact .abandons found rfl passed rfl (condvar_consumer rfl) rfl rfl

variable {action : QueueAction Item}

theorem Effect.capacity_eq (effect : Effect self action next events) :
    next.capacity = self.capacity := by
  cases effect <;> assumption

theorem step_effect (step : self.step action = some (next, events)) :
    Effect self action next events := by
  revert step
  fun_cases AsyncQueue.step
  all_goals try rintro ⟨⟩
  next => exact .starts rfl (condvar_same rfl rfl) rfl rfl
  next => exact .grants rfl (condvar_same rfl rfl) rfl rfl
  next its found granted _ call =>
    obtain ⟨_, phase⟩ := its
    cases call
    exact push_effect found granted.2
  next its found granted call =>
    obtain ⟨_, phase⟩ := its
    cases call
    exact recv_effect found granted.2
  next => exact poll_effect
  next => exact drop_effect

end AsyncQueue

end Karyon.Core
