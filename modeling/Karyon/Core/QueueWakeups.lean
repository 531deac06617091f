/-
This file proves when the bounded queue loses no wakeup.

The argument counts, for each side. As long as a call of a side is parked without a signal, the
calls of that side which were signalled or woken are at least as many as the calls which could
complete (`Covered`). Every step keeps this but one: dropping a call that was woken and waits for
the mutex again drops its signal. The runs without such a drop lose no wakeup
(`asyncQueue_no_lost_wakeup`), and one such drop can leave an item and a consumer waiting for each
other (`asyncQueue_lost_wakeup`).
-/

import Karyon.Core.AsyncQueue
import Karyon.Lib.Indexed

namespace Karyon.Core

open Transition

variable {Item : Type} {capacity : Nat} {positive : 0 < capacity}

namespace AsyncQueue

/-! ### Parked, signalled and woken calls -/

variable (self : AsyncQueue Item) (side : Side)

/-- A call of the side is parked and has not been signalled. -/
def Unsignalled : Prop :=
  ∃ its ∈ self.tasks, its.call.side = side ∧
    ∃ id waker, its.phase = .parked id ∧
      (self.condvar side).wakers.lookup id = some (some waker)

/-- A call of the side has been signalled, or woken, and is on its way to take the mutex. -/
def OnItsWay : Prop :=
  ∃ its ∈ self.tasks, its.call.side = side ∧
    (its.phase = .relocking ∨
      ∃ id, its.phase = .parked id ∧ (self.condvar side).wakers.lookup id = some none)

def isWoken (its : Task Item) : Bool :=
  decide (its.call.side = side) && decide (its.phase = .relocking)

/-- How many calls of the side were woken and wait for the mutex again. -/
def woken : Nat :=
  self.tasks.countP (isWoken side)

/-- Every drop keeps the signal: a call that was woken and waits for the mutex again is not
dropped while a call of its side could complete and another one is parked without a signal. -/
def keepsSignals : QueueAction Item → Bool
  | .drop task _ =>
    match self.tasks[task]? with
    | some ⟨call, .relocking⟩ =>
      !(decide (0 < self.available call.side) && decide (0 < (self.condvar call.side).waiting))
    | _ => true
  | _ => true

/-! ### The invariant -/

/-- Every waiter is a parked call of its side. -/
def Linked : Prop :=
  ∀ side id, ((self.condvar side).wakers.lookup id).isSome = true →
    ∃ its ∈ self.tasks, its.call.side = side ∧ its.phase = .parked id

/-- While a call of a side is parked without a signal, enough calls of that side are signalled
or woken for all that could complete. -/
def Covered : Prop :=
  ∀ side, 0 < (self.condvar side).waiting →
    self.available side ≤ (self.condvar side).signalled + self.woken side

variable {self next : AsyncQueue Item}

theorem covered_on_its_way (linked : self.Linked)
    (covered : self.Covered) {side : Side} (possible : 0 < self.available side)
    (unsignalled : self.Unsignalled side) : self.OnItsWay side := by
  obtain ⟨its, _, _, id, waker, _, found⟩ := unsignalled
  have waits : 0 < (self.condvar side).waiting :=
    (HashMap.countValues_pos _).mpr ⟨id, _, found, rfl⟩
  have enough := covered side waits
  by_cases anyWoken : 0 < self.woken side
  · obtain ⟨other, member, isSo⟩ := List.countP_pos_iff.mp anyWoken
    rw [isWoken, Bool.and_eq_true, decide_eq_true_iff, decide_eq_true_iff] at isSo
    exact ⟨other, member, isSo.1, Or.inl isSo.2⟩
  · have anySignalled : 0 < (self.condvar side).signalled := by omega
    obtain ⟨other, entry, present, taken⟩ := (HashMap.countValues_pos _).mp anySignalled
    cases entry with
    | some waker => cases taken
    | none =>
      obtain ⟨its, member, same, parked⟩ := linked side other (by rw [present]; rfl)
      exact ⟨its, member, same, Or.inr ⟨other, parked, present⟩⟩

/-! ### Setting the phase of one call -/

theorem available_same (capacity : next.capacity = self.capacity)
    (queue : next.queue = self.queue) (side : Side) :
    next.available side = self.available side := by
  cases side with
  | consumer => rw [available, available, queue]
  | producer => rw [available, available, queue, capacity]

theorem isWoken_other {its : Task Item} {side : Side} (different : side ≠ its.call.side) :
    isWoken side its = false := by
  rw [isWoken, decide_eq_false (Ne.symm different), Bool.false_and]

theorem isWoken_self (its : Task Item) :
    isWoken its.call.side its = decide (its.phase = .relocking) := by
  rw [isWoken, decide_eq_true rfl, Bool.true_and]

section WithPhase

variable {task : Nat} {its : Task Item} {phase : CallPhase}
  (found : self.tasks[task]? = some its)

include found

theorem mem_withPhase_self :
    { its with phase } ∈ self.withPhase task phase := by
  refine List.mem_of_getElem? (i := task) ?_
  rw [withPhase, setPhase, List.getElem?_modify, found]
  simp

theorem mem_withPhase {other : Task Item} (member : other ∈ self.tasks) :
    other = its ∨ other ∈ self.withPhase task phase := by
  obtain ⟨index, at_⟩ := List.mem_iff_getElem?.mp member
  by_cases same : task = index
  · subst same
    rw [found] at at_
    cases at_
    exact Or.inl rfl
  · refine Or.inr (List.mem_of_getElem? (i := index) ?_)
    rw [withPhase, setPhase, List.getElem?_modify, at_]
    simp [same]

variable (tasks : next.tasks = self.withPhase task phase)

include tasks

theorem woken_withPhase (side : Side) :
    next.woken side + (if isWoken side its then 1 else 0) =
      self.woken side + (if isWoken side { its with phase } then 1 else 0) := by
  rw [woken, woken, tasks, AsyncQueue.withPhase, AsyncQueue.setPhase, Indexed.modify_eq_set found]
  exact Indexed.countP_set_eq (isWoken side) found

/-- Waiters stay linked to parked calls when those that remain belong to other calls, or to the
call whose phase was set. -/
theorem Linked.withPhase (linked : self.Linked)
    (remain : ∀ side id, ((next.condvar side).wakers.lookup id).isSome = true →
      (((self.condvar side).wakers.lookup id).isSome = true ∧
        (its.call.side = side → its.phase ≠ .parked id)) ∨
      (its.call.side = side ∧ phase = .parked id)) : next.Linked := by
  intro side id present
  rw [tasks]
  rcases remain side id present with ⟨old, others⟩ | ⟨same, parked⟩
  · obtain ⟨other, member, ofSide, parked⟩ := linked side id old
    rcases mem_withPhase found member with rfl | stays
    · exact absurd parked (others ofSide)
    · exact ⟨other, stays, ofSide, parked⟩
  · exact ⟨_, mem_withPhase_self found, same, parked⟩

theorem Linked.withPhase_update {wakers : Wakers} (linked : self.Linked)
    (condvar : next.condvar = Function.update self.condvar its.call.side wakers)
    (remain : ∀ id, (wakers.wakers.lookup id).isSome = true →
      (((self.condvar its.call.side).wakers.lookup id).isSome = true ∧ its.phase ≠ .parked id) ∨
      phase = .parked id) : next.Linked := by
  refine linked.withPhase found tasks fun side id present => ?_
  rw [condvar] at present
  by_cases same : side = its.call.side
  · subst same
    rw [Function.update_self] at present
    exact (remain id present).imp (And.imp_right fun others _ => others) (And.intro rfl)
  · rw [Function.update_of_ne same] at present
    exact Or.inl ⟨present, fun equal => absurd equal.symm same⟩

theorem woken_self :
    next.woken its.call.side + (if its.phase = .relocking then 1 else 0) =
      self.woken its.call.side + (if phase = .relocking then 1 else 0) := by
  have counts := woken_withPhase found tasks its.call.side
  have after : isWoken its.call.side { its with phase } = decide (phase = .relocking) :=
    isWoken_self { its with phase }
  rw [isWoken_self, after] at counts
  simpa only [decide_eq_true_iff] using counts

/-- When a call changes its phase and its own waiters, only its own side is to be looked at. -/
theorem Covered.of_own_side {wakers : Wakers} (covered : self.Covered)
    (capacity : next.capacity = self.capacity)
    (condvar : next.condvar = Function.update self.condvar its.call.side wakers)
    (queue : next.queue = self.queue)
    (own : 0 < wakers.waiting →
      self.available its.call.side ≤ wakers.signalled + next.woken its.call.side) :
    next.Covered := by
  intro side waits
  rw [available_same capacity queue]
  rw [condvar] at waits ⊢
  by_cases same : side = its.call.side
  · subst same
    rw [Function.update_self] at waits ⊢
    exact own waits
  · have counts := woken_withPhase found tasks side
    have after : isWoken side { its with phase } = false := isWoken_other same
    rw [isWoken_other same, after] at counts
    rw [Function.update_of_ne same] at waits ⊢
    have enough := covered side waits
    simp only [Bool.false_eq_true, if_false] at counts
    omega

end WithPhase

theorem not_parked {phase : CallPhase} (wants : phase.wantsMutex = true) (id : Nat) :
    phase ≠ .parked id := by
  rintro rfl
  cases wants

variable {events : List (QueueEvent Item)} {action : QueueAction Item}

theorem Effect.linked (effect : Effect self action next events) (linked : self.Linked) :
    next.Linked := by
  cases effect with
  | starts tasks condvar _ =>
    intro side id present
    rw [condvar] at present
    obtain ⟨its, member, rest⟩ := linked side id present
    rw [tasks]
    exact ⟨its, List.mem_append_left _ member, rest⟩
  | grants tasks condvar _ =>
    intro side id present
    rw [condvar] at present
    rw [tasks]
    exact linked side id present
  | parks found wants _ tasks condvar _ =>
    refine linked.withPhase_update found tasks condvar fun id present => ?_
    rcases Wakers.put_lookup present with rfl | old
    · exact Or.inr rfl
    · exact Or.inl ⟨old, not_parked wants id⟩
  | @completes _ _ its woken _ _ found wants signal tasks condvar _ =>
    refine linked.withPhase found tasks fun side id present =>
      Or.inl ⟨?_, fun _ => not_parked wants id⟩
    rw [condvar] at present
    by_cases same : side = its.call.side.other
    · subst same
      rw [Function.update_self, Wakers.wake_lookup signal] at present
      exact present
    · rw [Function.update_of_ne same] at present
      exact present
  | wakes found parked signalled tasks condvar _ =>
    refine linked.withPhase_update found tasks condvar fun id present => Or.inl ?_
    rw [parked]
    rcases signalled with ⟨_, rfl⟩ | ⟨absent, rfl⟩
    · obtain ⟨different, old⟩ := Wakers.delete_lookup present
      exact ⟨old, fun same => different (CallPhase.parked.inj same).symm⟩
    · refine ⟨present, fun same => ?_⟩
      cases same
      rw [absent] at present
      cases present
  | cancels found wants tasks condvar _ =>
    refine linked.withPhase found tasks fun side id present => ?_
    rw [condvar] at present
    exact Or.inl ⟨present, fun _ => not_parked wants id⟩
  | abandons found parked passed tasks condvar _ =>
    refine linked.withPhase_update found tasks condvar fun id present => Or.inl ?_
    rw [parked]
    obtain ⟨different, old⟩ := Wakers.dropWaiter_lookup passed present
    exact ⟨old, fun same => different (CallPhase.parked.inj same).symm⟩

/-! ### Signals cover what is available -/

/-- A call that completes takes one of what its side waits for and gives one to the other
side. -/
theorem available_serves {call : Call Item} (capacity : next.capacity = self.capacity)
    (serves : call.Serves self.queue next.queue events) :
    next.available call.side + 1 = self.available call.side ∧
      next.available call.side.other = self.available call.side.other + 1 := by
  have before := self.bounded
  have after := next.bounded
  generalize first : self.queue = old at serves before
  generalize second : next.queue = new at serves after
  cases serves with
  | push =>
    rw [capacity, List.length_append, List.length_singleton] at after
    constructor
    · show next.capacity - next.queue.length + 1 = self.capacity - self.queue.length
      rw [first, second, capacity, List.length_append, List.length_singleton]
      omega
    · show next.queue.length = self.queue.length + 1
      rw [first, second, List.length_append, List.length_singleton]
  | recv =>
    rw [List.length_cons] at before
    constructor
    · show next.queue.length + 1 = self.queue.length
      rw [first, second, List.length_cons]
    · show next.capacity - next.queue.length = self.capacity - self.queue.length + 1
      rw [first, second, capacity, List.length_cons]
      omega

theorem Covered.completes {task met : Nat} {its : Task Item} {woken : Wakers}
    (covered : self.Covered) (capacity : next.capacity = self.capacity)
    (found : self.tasks[task]? = some its)
    (signal : (self.condvar its.call.side.other).wake met = some woken)
    (tasks : next.tasks = self.withPhase task .finished)
    (condvar : next.condvar = Function.update self.condvar its.call.side.other woken)
    (serves : its.call.Serves self.queue next.queue events) : next.Covered := by
  obtain ⟨taken, given⟩ := available_serves capacity serves
  have distinct : its.call.side ≠ its.call.side.other := by
    cases its.call.side <;> nofun
  intro side waits
  have counts := woken_withPhase found tasks side
  rw [condvar] at waits ⊢
  by_cases same : side = its.call.side
  · subst same
    rw [Function.update_of_ne distinct] at waits ⊢
    have enough := covered _ waits
    have few : self.woken its.call.side ≤ next.woken its.call.side + 1 := by
      split at counts
      · omega
      · omega
    omega
  · have isOther : side = its.call.side.other := by
      revert same
      cases side <;> cases its.call.side <;> simp [Side.other]
    subst isOther
    rw [Function.update_self] at waits ⊢
    have after : isWoken its.call.side.other { its with phase := .finished } = false :=
      isWoken_other same
    rw [isWoken_other same, after] at counts
    simp only [Bool.false_eq_true, if_false] at counts
    rcases Wakers.wake_counts signal with ⟨nobody, rfl⟩ | ⟨fewer, more⟩
    · omega
    · have enough := covered its.call.side.other (by omega)
      omega

/-- A woken call is dropped only when no call of its side could complete or none is parked
without a signal. -/
theorem available_of_keepsSignals {task met : Nat} {its : Task Item}
    (found : self.tasks[task]? = some its) (relocking : its.phase = .relocking)
    (keeps : self.keepsSignals (.drop task met) = true)
    (waits : 0 < (self.condvar its.call.side).waiting) : self.available its.call.side = 0 := by
  obtain ⟨call, phase⟩ := its
  subst relocking
  simp only [keepsSignals, found, Bool.not_eq_true', Bool.and_eq_false_iff,
    decide_eq_false_iff_not] at keeps
  rcases keeps with none | nobody
  · exact Nat.eq_zero_of_not_pos none
  · exact absurd waits nobody

theorem Effect.covered (effect : Effect self action next events)
    (keeps : self.keepsSignals action = true) (covered : self.Covered) : next.Covered := by
  have capacity := effect.capacity_eq
  cases effect with
  | starts tasks condvar queue =>
    intro side waits
    have same : next.woken side = self.woken side := by
      rw [woken, woken, tasks, List.countP_append]
      rw [List.countP_singleton, isWoken]
      simp
    rw [available_same capacity queue, condvar, same]
    rw [condvar] at waits
    exact covered side waits
  | grants tasks condvar queue =>
    intro side waits
    rw [available_same capacity queue, condvar, woken, tasks]
    rw [condvar] at waits
    exact covered side waits
  | parks found _ blocked tasks condvar queue =>
    refine covered.of_own_side found tasks capacity condvar queue fun _ => ?_
    rw [blocked]
    exact Nat.zero_le _
  | completes found _ signal tasks condvar serves =>
    exact covered.completes capacity found signal tasks condvar serves
  | @wakes _ id its wakers _ found parked signalled tasks condvar queue =>
    refine covered.of_own_side found tasks capacity condvar queue fun waits => ?_
    have counts := woken_self found tasks
    rw [parked, if_neg nofun, if_pos rfl] at counts
    rcases signalled with ⟨present, rfl⟩ | ⟨_, rfl⟩
    · have waiting := Wakers.delete_waiting _ present
      have fewer := Wakers.delete_signalled _ present
      simp only [Option.isSome_none, Option.isNone_none, if_true, Bool.false_eq_true,
        if_false] at waiting fewer
      have enough := covered its.call.side (by omega)
      omega
    · have enough := covered its.call.side waits
      omega
  | @cancels _ _ its _ found wants tasks condvar queue =>
    have unchanged : next.condvar =
        Function.update self.condvar its.call.side (self.condvar its.call.side) := by
      rw [Function.update_eq_self]
      exact condvar
    refine covered.of_own_side found tasks capacity unchanged queue fun waits => ?_
    have counts := woken_self found tasks
    have enough := covered its.call.side waits
    by_cases relocking : its.phase = .relocking
    · have none := available_of_keepsSignals found relocking keeps waits
      omega
    · rw [if_neg relocking, if_neg nofun] at counts
      omega
  | @abandons _ _ id its wakers _ found parked passed tasks condvar queue =>
    refine covered.of_own_side found tasks capacity condvar queue fun waits => ?_
    have counts := woken_self found tasks
    rw [parked, if_neg nofun, if_neg nofun] at counts
    obtain ⟨waiting, kept⟩ := Wakers.dropWaiter_counts passed waits
    have enough := covered its.call.side waiting
    omega

theorem new_condvar (side : Side) :
    (new capacity positive : AsyncQueue Item).condvar side = .new := by
  cases side <;> rfl

theorem new_linked :
    (new capacity positive : AsyncQueue Item).Linked := by
  intro side id present
  rw [new_condvar] at present
  cases present

theorem new_covered :
    (new capacity positive : AsyncQueue Item).Covered := by
  intro side waits
  rw [new_condvar] at waits
  cases waits

end AsyncQueue

/-- No lost wakeup. In every run in which no call that was woken and waits for the mutex again is
dropped while a call of its side could complete and another one of its side is parked without a
signal: if the queue is not empty and a consumer is parked without a signal, a consumer was
signalled or woken and is on its way to the mutex; and if the queue is below its capacity and a
producer is parked without a signal, a producer was signalled or woken and is on its way. -/
theorem asyncQueue_no_lost_wakeup (capacity : Nat) (positive : 0 < capacity)
    (history : List (QueueEvent Item)) (queue : AsyncQueue Item)
    (run : (queueMachine Item capacity positive).Run
      (fun queue action => queue.keepsSignals action = true) history queue) :
    (queue.queue ≠ [] → queue.Unsignalled .consumer → queue.OnItsWay .consumer) ∧
      (queue.queue.length < queue.capacity → queue.Unsignalled .producer →
        queue.OnItsWay .producer) := by
  have both := run.invariant (fun _ queue => queue.Linked ∧ queue.Covered)
    ⟨AsyncQueue.new_linked, AsyncQueue.new_covered⟩
    fun _ _ _ _ _ both keeps step =>
      ⟨(AsyncQueue.step_effect step).linked both.1,
        (AsyncQueue.step_effect step).covered keeps both.2⟩
  constructor
  · intro nonempty unsignalled
    exact AsyncQueue.covered_on_its_way both.1 both.2 (List.length_pos_iff.mpr nonempty)
      unsignalled
  · intro below unsignalled
    exact AsyncQueue.covered_on_its_way both.1 both.2 (Nat.sub_pos_of_lt below) unsignalled

/-- Two consumers are parked and a push signals one of them. -/
theorem asyncQueue_no_lost_wakeup_pushed :
    ∃ history queue, (queueMachine Nat 1 Nat.one_pos).Run
        (fun queue action => queue.keepsSignals action = true) history queue ∧
      queue.queue ≠ [] ∧ queue.Unsignalled .consumer ∧ queue.OnItsWay .consumer := by
  refine Machine.reach_run (fun _ queue => queue.queue ≠ [] ∧
      queue.tasks[1]? = some ⟨.recv, .parked 1⟩ ∧ queue.notEmpty.wakers.lookup 1 = some (some 1))
    [.start .recv, .grant 0, .run 0 0, .start .recv, .grant 1, .run 1 0, .start (.push 7),
      .grant 2, .run 2 0] ⟨_, rfl, nofun, rfl, rfl⟩
    fun history queue run ⟨nonempty, parked, waits⟩ => ?_
  have unsignalled : queue.Unsignalled .consumer :=
    ⟨_, List.mem_of_getElem? parked, rfl, 1, 1, rfl, waits⟩
  exact ⟨nonempty, unsignalled,
    (asyncQueue_no_lost_wakeup 1 Nat.one_pos history queue run).1 nonempty unsignalled⟩

/-- A lost wakeup. Two consumers are parked and a push signals the first one, which is woken while
another producer has the mutex and is dropped before it gets the mutex back; the producer then
parks because the queue is full. An item is queued, a consumer is parked without a signal, and no
call is on its way to the mutex. -/
theorem asyncQueue_lost_wakeup :
    ∃ history queue, (queueMachine Nat 1 Nat.one_pos).Run (fun _ _ => True) history queue ∧
      queue.queue ≠ [] ∧ queue.Unsignalled .consumer ∧ ¬ queue.OnItsWay .consumer ∧
      ∀ its ∈ queue.tasks, its.phase.wantsMutex = false := by
  refine Machine.trace_run (fun _ queue => queue.queue ≠ [] ∧
      queue.tasks = [⟨.recv, .dropped⟩, ⟨.recv, .parked 1⟩, ⟨.push 7, .finished⟩,
        ⟨.push 8, .parked 0⟩] ∧ queue.notEmpty.wakers.lookup 1 = some (some 1))
    [.start .recv, .grant 0, .run 0 0, .start .recv, .grant 1, .run 1 0, .start (.push 7),
      .grant 2, .run 2 0, .start (.push 8), .grant 3, .poll 0, .drop 0 0, .run 3 0]
    ⟨_, rfl, nofun, rfl, rfl⟩ fun _ queue _ ⟨nonempty, tasks, waits⟩ => ⟨nonempty,
      ⟨⟨.recv, .parked 1⟩, by rw [tasks]; simp, rfl, 1, 1, rfl, waits⟩, ?_, ?_⟩
  · rintro ⟨its, member, side, way⟩
    rw [tasks] at member
    simp only [List.mem_cons, List.not_mem_nil, or_false] at member
    rcases member with rfl | rfl | rfl | rfl
    · rcases way with relocking | ⟨_, parked, _⟩
      · cases relocking
      · cases parked
    · rcases way with relocking | ⟨_, parked, signalled⟩
      · cases relocking
      · cases parked
        rw [AsyncQueue.condvar, waits] at signalled
        cases signalled
    · cases side
    · cases side
  · rw [tasks]
    simp [CallPhase.wantsMutex]

end Karyon.Core
