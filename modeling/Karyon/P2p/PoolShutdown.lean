/-
This file models the shutdown of the peer pool of `p2p/src/peer_pool.rs`, together with the task
group in which the run loop and the peers run.

The run loop is the first task of the group, and every inserted peer is spawned into it with its
disconnect callback. `shutdown` cancels the group, which stops each task at the await point where it
waits and lets a callback that has begun finish; then it shuts down the peers in the map while it
holds the lock of the map.

A peer that has been built and waits for the lock before it is inserted is never shut down when the
run loop is stopped there (`poolShutdown_loses_built`). When the loop is stopped anywhere else,
every peer that was built is shut down and none comes after (`poolShutdown_reaches_every_peer`).
-/

import Karyon.Core.TaskGroup
import Karyon.P2p.PeerLifecycle

namespace Karyon.P2p

open Karyon.Core Transition

/-! ### The pool with its task group -/

/-- Where `shutdown` is: not called yet, inside the cancellation of the group, before it has the
lock of the map, inside its loop over the peers, or returned. -/
inductive ShutdownPhase where
  | running
  | cancelling
  | locking
  | sweeping (left : List Nat)
  | returned

/-- The pool, its task group, the number of peers that `Peer::new` has returned, and the peers on
which `Peer::shutdown` has been called. Peers are numbered in the order in which they are built;
the run loop is task 0 of the group, and a peer is the task after its number. -/
structure PoolTasks where
  pool : PeerPool
  group : TaskGroup
  built : Nat
  shutDown : List Nat
  phase : ShutdownPhase

inductive ShutdownAction where
  | run (action : PoolAction)
  | disconnect (peer : Nat)
  | callback (peer : Nat)
  | stop (task : TaskID)
  | callbackDone (task : TaskID)
  | signalFlag (task : TaskID)
  | removeSelf (task : TaskID)
  | shutdown (order : List TaskID)
  | signalStop
  | awaitFlag
  | lock
  | sweep

def PoolAction.ofLoop : PoolAction → Bool
  | .handshake _ | .setup _ | .advance => true
  | .disconnect _ | .callback _ => false

/-- A peer has been built and waits for the lock of the map. -/
def RunPhase.holdsBuilt : RunPhase → Bool
  | .inserting _ => true
  | _ => false

namespace PoolTasks

def new : PoolTasks where
  pool := .new
  group :=
    { tasks := AList.singleton 0 (), spawned := [.new], removed := [], cancels := [] }
  built := 0
  shutDown := []
  phase := .running

variable (state : PoolTasks)

def isRunning (task : TaskID) : Bool :=
  state.group.spawned[task]?.any fun its => its.phase = .running

/-- The run loop goes on. An inserted peer is spawned into the group in the same step. -/
def run (action : PoolAction) : Option PoolTasks :=
  if action.ofLoop && state.isRunning 0 then
    match state.pool.step action with
    | none => none
    | some (pool, _) =>
      let built := if pool.runPhase.holdsBuilt then state.built + 1 else state.built
      if state.pool.runPhase.holdsBuilt then
        (state.group.spawn (some 0)).map fun group => { state with pool, group, built }
      else some { state with pool, built }
  else none

/-- The task of a peer completes, and its callback begins. -/
def disconnect (peer : Nat) : Option PoolTasks :=
  match state.group.step (.complete (peer + 1)), state.pool.step (.disconnect peer) with
  | some (group, _), some (pool, _) => some { state with pool, group }
  | _, _ => none

/-- The lock of the map is held by the loop of `shutdown`. -/
def locked : Bool :=
  match state.phase with
  | .sweeping _ => true
  | _ => false

/-- The callback of a completed peer goes on. It calls `Peer::shutdown` in the step in which it
takes the peer out of the map. -/
def callback (peer : Nat) : Option PoolTasks :=
  match state.group.spawned[peer + 1]?, state.pool.spawned[peer]? with
  | some ⟨.calling .completed, _, _⟩, some task =>
    if state.locked && task.phase = .removing then none
    else
      match state.pool.step (.callback peer) with
      | none => none
      | some (pool, _) => some
          { state with
            pool
            shutDown :=
              if pool.spawned[peer]?.any fun its => its.phase = .shuttingDown then
                peer :: state.shutDown
              else state.shutDown }
  | _, _ => none

/-- The callback of a task has nothing left to do: that of a peer that has completed has removed
it, and the others do nothing. -/
def mayFinish (task : TaskID) : Bool :=
  match task, state.group.spawned[task]? with
  | peer + 1, some ⟨.calling .completed, _, _⟩ =>
    state.pool.spawned[peer]?.any fun its => its.phase = .finished
  | _, _ => true

/-- A step of the group. When `cancel` returns, `shutdown` goes on to the lock of the map. -/
def groupStep (action : TaskAction) (phase : ShutdownPhase) : Option PoolTasks :=
  match state.group.step action with
  | some (group, events) =>
    some { state with group, phase := if events.isEmpty then phase else .locking }
  | none => none

def step : ShutdownAction → Option PoolTasks
  | .run action => state.run action
  | .disconnect peer => state.disconnect peer
  | .callback peer => state.callback peer
  | .stop task => state.groupStep (.stop task) state.phase
  | .callbackDone task =>
    if state.mayFinish task then state.groupStep (.callbackDone task) state.phase else none
  | .signalFlag task => state.groupStep (.signalFlag task) state.phase
  | .removeSelf task => state.groupStep (.removeSelf task) state.phase
  | .shutdown order =>
    match state.phase with
    | .running => state.groupStep (.cancel order) .cancelling
    | _ => none
  | .signalStop =>
    match state.phase with
    | .cancelling => state.groupStep (.signalStop 0) .cancelling
    | _ => none
  | .awaitFlag =>
    match state.phase with
    | .cancelling => state.groupStep (.awaitFlag 0) .cancelling
    | _ => none
  | .lock =>
    match state.phase with
    | .locking => some
        { state with phase := .sweeping (state.pool.peers.entries.map fun entry => entry.2) }
    | _ => none
  | .sweep =>
    match state.phase with
    | .sweeping [] => some { state with phase := .returned }
    | .sweeping (peer :: rest) => some
        { state with phase := .sweeping rest, shutDown := peer :: state.shutDown }
    | _ => none

/-- The run loop is not stopped while a peer that was built waits to be inserted. -/
def sparesBuilt : ShutdownAction → Bool
  | .stop 0 => !state.pool.runPhase.holdsBuilt
  | _ => true

end PoolTasks

def shutdownMachine : Machine PoolTasks ShutdownAction Empty where
  start := .new
  step state action := (state.step action).map (·, [])

/-! ### What the steps of the pool do to its peers -/

namespace PeerPool

variable {action : PoolAction} {events : List PeerEvent}

/-- A step of the run loop inserts the peer that was built, or leaves the peers alone. -/
theorem loop_step {pool next : PeerPool} (step : pool.step action = some (next, events))
    (ofLoop : action.ofLoop = true) :
    (next.spawned = pool.spawned ∧ pool.runPhase.holdsBuilt = false) ∨
      ∃ pid, pool.runPhase = .inserting pid ∧ next.runPhase.holdsBuilt = false ∧
        next.spawned = pool.spawned ++ [⟨pid, .running⟩] := by
  cases steps_of_step step with
  | inserts inserting => exact Or.inr ⟨_, inserting, rfl, rfl⟩
  | loops phase turn =>
    refine Or.inl ⟨rfl, ?_⟩
    rw [phase]
    cases turn <;> rfl
  | works found phase turn => cases turn <;> cases ofLoop
  | leaves found removing | vanishes found removing absent => cases ofLoop

/-- A step of a peer's task keeps the peers in the map and those out of it, except for a peer that
leaves the map in it. -/
theorem peer_step {pool next : PeerPool} (wellFormed : WellFormed pool)
    (step : pool.step action = some (next, events)) (ofPeer : action.ofLoop = false) :
    next.runPhase = pool.runPhase ∧ next.spawned.length = pool.spawned.length ∧
      ∀ (other : Nat) (task : PeerTask), next.spawned[other]? = some task →
        ∃ before, pool.spawned[other]? = some before ∧
          (task.phase.listed = before.phase.listed ∨
            (action = .callback other ∧ task.phase = .shuttingDown)) := by
  have set {peer : Nat} {phase : PeerPhase} {its : PeerTask}
      (found : pool.spawned[peer]? = some its)
      (change : phase.listed = its.phase.listed ∨
        (action = .callback peer ∧ phase = .shuttingDown)) (other : Nat) (task : PeerTask)
      (itsFound : (pool.setPhase peer phase).spawned[other]? = some task) :
      ∃ before, pool.spawned[other]? = some before ∧
        (task.phase.listed = before.phase.listed ∨
          (action = .callback other ∧ task.phase = .shuttingDown)) := by
    rcases (setPhase_eq_some found).mp itsFound with ⟨rfl, rfl⟩ | ⟨_, before⟩
    · exact ⟨its, found, change⟩
    · exact ⟨task, before, Or.inl rfl⟩
  have length (peer : Nat) (phase : PeerPhase) :
      (pool.setPhase peer phase).spawned.length = pool.spawned.length :=
    List.length_modify ..
  cases steps_of_step step with
  | inserts inserting => cases ofPeer
  | loops phase turn => cases turn <;> cases ofPeer
  | works found phase turn =>
    refine ⟨rfl, length _ _, set found (Or.inl ?_)⟩
    rw [phase]
    cases turn <;> rfl
  | leaves found removing => exact ⟨rfl, length _ _, set found (Or.inr ⟨rfl, rfl⟩)⟩
  | vanishes found removing absent =>
    have present := (wellFormed.listed _ _).mpr ⟨_, found, rfl, by rw [removing]; rfl⟩
    rw [absent] at present
    cases present

end PeerPool

/-! ### Every peer is accounted for -/

/-- The peers that the loop of `shutdown` has left. -/
def ShutdownPhase.left : ShutdownPhase → Option (List Nat)
  | .sweeping left => some left
  | .returned => some []
  | _ => none

/-- The group has been cancelled. -/
def ShutdownPhase.cancelled : ShutdownPhase → Bool
  | .running | .cancelling => false
  | .locking | .sweeping _ | .returned => true

namespace PoolTasks

/-- A built peer is inserted or about to be, and the run loop is there to do it; an inserted peer
is in the map or has been shut down; the cancellation of the group reaches the run loop; and the
loop of `shutdown` has what is left. -/
structure Tracked (state : PoolTasks) : Prop where
  wellFormed : state.pool.WellFormed
  flagged : state.group.Flagged
  loop : ∃ task, state.group.spawned[0]? = some task ∧
    (state.pool.runPhase.holdsBuilt = true → task.phase = .running)
  built : state.built =
    state.pool.spawned.length + if state.pool.runPhase.holdsBuilt then 1 else 0
  called : ∀ (peer : Nat) (task : PeerTask), state.pool.spawned[peer]? = some task →
    task.phase.listed = true ∨ peer ∈ state.shutDown
  running : state.phase = .running →
    state.group.pending = [] ∧ (0 ∈ state.group.running → 0 ∈ state.group.tasks)
  cancelling : state.phase = .cancelling → state.group.Reaches 0 0
  cancelled : state.phase.cancelled = true → 0 ∉ state.group.running
  swept : ∀ left, state.phase.left = some left → ∀ peer < state.pool.spawned.length,
    peer ∈ left ∨ peer ∈ state.shutDown

theorem new_tracked : Tracked .new where
  wellFormed := PeerPool.new_wellFormed
  flagged task its found flag := by
    obtain rfl := List.mem_singleton.mp (List.mem_of_getElem? found)
    cases flag
  loop := ⟨.new, rfl, fun _ => rfl⟩
  built := rfl
  called peer task found := by cases found
  running _ := ⟨rfl, fun _ => by decide⟩
  cancelling phase := by cases phase
  cancelled phase := by cases phase
  swept left phase := by cases phase

variable {state next : PoolTasks} {phase : ShutdownPhase}

theorem mem_running_of_isRunning (runs : state.isRunning 0 = true) :
    0 ∈ state.group.running := by
  obtain ⟨task, found, phase⟩ := (Option.any_eq_true _ _).mp runs
  refine TaskGroup.mem_running.mpr ⟨task, found, ?_⟩
  rw [of_decide_eq_true phase]
  rfl

theorem left_eq_none (uncancelled : phase.cancelled = false) : phase.left = none := by
  cases phase with
  | running | cancelling => rfl
  | _ => cases uncancelled

section

variable (tracked : Tracked state)

include tracked

/-- The run loop goes on only as long as the group has not been cancelled. -/
theorem Tracked.uncancelled (runs : state.isRunning 0 = true) : state.phase.cancelled = false :=
  Bool.eq_false_iff.mpr fun done => tracked.cancelled done (mem_running_of_isRunning runs)

/-- What a step of the group that neither takes out a handler nor cancels keeps. -/
theorem Tracked.group {group : TaskGroup} {action : TaskAction} {events : List TaskEvent}
    (step : state.group.step action = some (group, events))
    (stays : action ≠ .remove 0 ∧ ∀ order, action ≠ .cancel order)
    (running : state.pool.runPhase.holdsBuilt = true → TaskGroup.leaves action ≠ some 0) :
    Tracked { state with group } := by
  have effect := TaskGroup.step_effect step
  obtain ⟨task, found, busy⟩ := tracked.loop
  have known : 0 < state.group.spawned.length := (List.getElem?_eq_some_iff.mp found).1
  refine ⟨tracked.wellFormed, effect.flagged tracked.flagged, ?_, tracked.built, tracked.called,
    fun phase => ?_, fun phase => effect.reaches tracked.flagged (tracked.cancelling phase),
    fun done runs => ?_, tracked.swept⟩
  · cases holds : state.pool.runPhase.holdsBuilt with
    | true =>
      obtain ⟨later, itsFound, itsPhase⟩ :=
        TaskGroup.step_running step found (busy holds) (running holds)
      exact ⟨later, itsFound, fun _ => itsPhase⟩
    | false =>
      have remains : 0 < group.spawned.length := Nat.lt_of_lt_of_le known effect.length_le
      exact ⟨_, List.getElem?_eq_getElem remains, nofun⟩
  · obtain ⟨uncalled, member⟩ := tracked.running phase
    exact ⟨effect.pending_nil stays.2 uncalled, effect.member stays known member⟩
  · exact (effect.running runs).elim (tracked.cancelled done) (Nat.ne_of_lt known)

theorem Tracked.loopStep {task : GroupTask} (found : state.group.spawned[0]? = some task)
    (running : task.phase = .running) (uncancelled : state.phase.cancelled = false)
    {pool : PeerPool} {events : List PeerEvent}
    (step : state.pool.step action = some (pool, events)) (ofLoop : action.ofLoop = true) :
    Tracked
      { state with
        pool
        built := if pool.runPhase.holdsBuilt then state.built + 1 else state.built } where
  wellFormed := (PeerPool.step_effect step).wellFormed tracked.wellFormed
  flagged := tracked.flagged
  loop := ⟨task, found, fun _ => running⟩
  built := by
    have built := tracked.built
    rcases PeerPool.loop_step step ofLoop with ⟨same, free⟩ | ⟨pid, inserting, free, inserted⟩
    · rw [free] at built
      rw [same, built]
      split <;> rfl
    · rw [inserting] at built
      rw [free, inserted, List.length_append]
      exact built
  called peer its itsFound := by
    rcases PeerPool.loop_step step ofLoop with ⟨same, _⟩ | ⟨pid, _, _, inserted⟩
    · rw [same] at itsFound
      exact tracked.called peer its itsFound
    · rw [inserted] at itsFound
      rcases Indexed.concat_eq_some.mp itsFound with before | ⟨_, rfl⟩
      · exact tracked.called peer its before
      · exact Or.inl rfl
  running := tracked.running
  cancelling := tracked.cancelling
  cancelled := tracked.cancelled
  swept left phase := by
    rw [left_eq_none uncancelled] at phase
    cases phase

theorem Tracked.run (ran : state.run action = some next) : Tracked next := by
  obtain ⟨ready, ran⟩ := Option.ite_none_right_eq_some.mp ran
  obtain ⟨ofLoop, runs⟩ := Bool.and_eq_true_iff.mp ready
  have uncancelled := tracked.uncancelled runs
  obtain ⟨task, found, phase⟩ := (Option.any_eq_true _ _).mp runs
  have running := of_decide_eq_true phase
  split at ran
  · cases ran
  · rename_i pool events step
    simp only at ran
    split at ran
    · obtain ⟨group, spawned, rfl⟩ := Option.map_eq_some_iff.mp ran
      have spawning : state.group.step (.spawn (some 0)) = some (group, []) := by
        rw [TaskGroup.step, spawned]
        rfl
      have stays : TaskGroup.leaves (.spawn (some 0)) ≠ some 0 := by decide
      obtain ⟨later, itsFound, itsPhase⟩ :=
        TaskGroup.step_running spawning found running stays
      have grown := tracked.group spawning
        ⟨TaskAction.noConfusion, fun _ => TaskAction.noConfusion⟩ fun _ => stays
      exact grown.loopStep itsFound itsPhase uncancelled step ofLoop
    · cases ran
      exact tracked.loopStep found running uncancelled step ofLoop

/-- A step of the task of a peer. A peer that leaves the map in it is shut down. -/
theorem Tracked.peerStep {action : PoolAction} {pool : PeerPool} {events : List PeerEvent}
    {shutDown : List Nat} (step : state.pool.step action = some (pool, events))
    (ofPeer : action.ofLoop = false) (kept : state.shutDown ⊆ shutDown)
    (left : ∀ (peer : Nat) (task : PeerTask), action = .callback peer →
      pool.spawned[peer]? = some task → task.phase = .shuttingDown → peer ∈ shutDown) :
    Tracked { state with pool, shutDown } := by
  obtain ⟨runPhase, length, peers⟩ := PeerPool.peer_step tracked.wellFormed step ofPeer
  refine ⟨(PeerPool.step_effect step).wellFormed tracked.wellFormed, tracked.flagged, ?_, ?_,
    fun peer task found => ?_, tracked.running, tracked.cancelling, tracked.cancelled,
    fun remaining phase peer bound => ?_⟩
  · rw [runPhase]
    exact tracked.loop
  · rw [runPhase, length]
    exact tracked.built
  · obtain ⟨before, itsFound, same | ⟨its, shutting⟩⟩ := peers peer task found
    · rw [same]
      exact (tracked.called peer before itsFound).imp_right fun member => kept member
    · exact Or.inr (left peer task its found shutting)
  · rw [length] at bound
    exact (tracked.swept remaining phase peer bound).imp_right fun member => kept member

theorem Tracked.disconnect {peer : Nat} (gone : state.disconnect peer = some next) :
    Tracked next := by
  revert gone
  fun_cases PoolTasks.disconnect <;> rintro ⟨⟩
  rename_i group _ _ _ step completed
  have grown := tracked.group completed ⟨nofun, nofun⟩ fun _ same =>
    absurd (Option.some.inj same) (Nat.succ_ne_zero peer)
  exact grown.peerStep step rfl (List.Subset.refl _) nofun

theorem Tracked.callback {peer : Nat} (called : state.callback peer = some next) :
    Tracked next := by
  revert called
  fun_cases PoolTasks.callback <;> rintro ⟨⟩
  rename_i step
  refine tracked.peerStep step rfl (fun other member => ?_) fun other task same found
    shutting => ?_
  · split
    · exact List.mem_cons_of_mem _ member
    · exact member
  · cases same
    rw [found, Option.any_some, decide_eq_true shutting, if_pos rfl]
    exact List.mem_cons_self

/-- The run loop or the task of a peer goes on in the group, outside of its future. -/
theorem Tracked.groupStep {action : TaskAction} {result : Option TaskGroup}
    {change : TaskGroup → TaskGroup} (stepped : state.groupStep action state.phase = some next)
    (quiet : state.group.step action = result.map fun group => (change group, []))
    (stays : action ≠ .remove 0 ∧ ∀ order, action ≠ .cancel order)
    (running : state.pool.runPhase.holdsBuilt = true → TaskGroup.leaves action ≠ some 0) :
    Tracked next := by
  revert stepped
  fun_cases PoolTasks.groupStep <;> rintro ⟨⟩
  rename_i group events step
  obtain rfl : events = [] := by
    obtain ⟨_, _, ⟨⟩⟩ := Option.map_eq_some_iff.mp (quiet.symm.trans step)
    rfl
  exact tracked.group step stays running

/-- The call of `shutdown` cancels the group, in which the run loop is as long as it runs. -/
theorem Tracked.shutdown {order : List TaskID} (phase : state.phase = .running)
    (called : state.groupStep (.cancel order) .cancelling = some next) : Tracked next := by
  unfold PoolTasks.groupStep at called
  simp only [TaskGroup.step, TaskGroup.cancel] at called
  split at called
  · rename_i group events step
    obtain ⟨isPerm, ⟨⟩⟩ := Option.ite_none_right_eq_some.mp step
    cases called
    have whole := List.isPerm_iff.mp isPerm
    obtain ⟨uncalled, member⟩ := tracked.running phase
    have first : state.group.cancels = [] := List.map_eq_nil_iff.mp uncalled
    obtain ⟨task, found, busy⟩ := tracked.loop
    have known : 0 < state.group.spawned.length := (List.getElem?_eq_some_iff.mp found).1
    refine ⟨tracked.wellFormed, tracked.flagged, ⟨task, found, busy⟩, tracked.built,
      tracked.called, ?_, ?_, ?_, ?_⟩
    · intro running
      split at running
      · cases running
      · cases running
    · intro _
      have reaches := TaskGroup.reaches_of_drained whole known member
      rw [first] at reaches
      rw [first]
      exact reaches
    · intro done runs
      cases order with
      | nil =>
        have among := whole.mem_iff.mpr (AList.mem_keys.mp (member runs))
        cases among
      | cons => cases done
    · intro left swept
      split at swept
      · cases swept
      · cases swept
  · cases called

/-- The call waits for the flag of a task, and goes on to the lock after the last one. -/
theorem Tracked.awaitFlag (phase : state.phase = .cancelling)
    (awaited : state.groupStep (.awaitFlag 0) .cancelling = some next) : Tracked next := by
  revert awaited
  fun_cases PoolTasks.groupStep <;> rintro ⟨⟩
  rename_i group _ step
  have effect := TaskGroup.step_effect step
  have grown := tracked.group step ⟨nofun, nofun⟩ fun _ => nofun
  rcases TaskGroup.awaitFlag_events step with rfl | rfl
  · have same : { state with group } = { state with group, phase := .cancelling } := by
      rw [← phase]
    exact same ▸ grown
  · have stopped := effect.notMem_running tracked.flagged (tracked.cancelling phase)
      (List.mem_singleton_self _)
    exact ⟨grown.wellFormed, grown.flagged, grown.loop, grown.built, grown.called, nofun, nofun,
      fun _ => stopped, nofun⟩

theorem Tracked.lock (phase : state.phase = .locking) :
    Tracked
      { state with
        phase := .sweeping (state.pool.peers.entries.map fun entry => entry.2) } := by
  refine ⟨tracked.wellFormed, tracked.flagged, tracked.loop, tracked.built, tracked.called, nofun,
    nofun, fun _ => tracked.cancelled (by rw [phase]; rfl), fun left same peer bound => ?_⟩
  cases same
  have found := List.getElem?_eq_getElem bound
  refine (tracked.called peer _ found).imp_left fun listed => ?_
  have present := (tracked.wellFormed.listed _ peer).mpr ⟨_, found, rfl, listed⟩
  exact List.mem_map.mpr ⟨_, AList.mem_lookup_iff.mp present, rfl⟩

theorem Tracked.sweep (swept : state.step .sweep = some next) :
    Tracked next := by
  simp only [PoolTasks.step] at swept
  split at swept
  · rename_i phase
    cases swept
    refine ⟨tracked.wellFormed, tracked.flagged, tracked.loop, tracked.built, tracked.called,
      nofun, nofun, fun _ => tracked.cancelled (by rw [phase]; rfl), fun left same => ?_⟩
    cases same
    exact tracked.swept [] (by rw [phase]; rfl)
  · rename_i peer rest phase
    cases swept
    refine ⟨tracked.wellFormed, tracked.flagged, tracked.loop, tracked.built,
      fun other task found => ?_, nofun, nofun,
      fun _ => tracked.cancelled (by rw [phase]; rfl), fun left same other bound => ?_⟩
    · exact (tracked.called other task found).imp_right (List.mem_cons_of_mem _)
    · cases same
      rcases tracked.swept (peer :: rest) (by rw [phase]; rfl) other bound with among | member
      · rcases List.mem_cons.mp among with rfl | later
        · exact Or.inr List.mem_cons_self
        · exact Or.inl later
      · exact Or.inr (List.mem_cons_of_mem _ member)
  · cases swept

theorem Tracked.step {action : ShutdownAction} (spares : state.sparesBuilt action = true)
    (stepped : state.step action = some next) :
    Tracked next := by
  cases action with
  | run action => exact tracked.run stepped
  | disconnect peer => exact tracked.disconnect stepped
  | callback peer => exact tracked.callback stepped
  | stop task =>
    refine tracked.groupStep stepped rfl ⟨nofun, nofun⟩ fun holds same => ?_
    cases same
    rw [sparesBuilt, holds] at spares
    cases spares
  | callbackDone task =>
    obtain ⟨_, stepped⟩ := Option.ite_none_right_eq_some.mp stepped
    exact tracked.groupStep stepped rfl ⟨nofun, nofun⟩ fun _ => nofun
  | signalFlag task | removeSelf task =>
    exact tracked.groupStep stepped rfl ⟨nofun, nofun⟩ fun _ => nofun
  | shutdown order =>
    simp only [PoolTasks.step] at stepped
    split at stepped
    · rename_i phase
      exact tracked.shutdown phase stepped
    · cases stepped
  | signalStop =>
    simp only [PoolTasks.step] at stepped
    split at stepped
    · rename_i phase
      rw [← phase] at stepped
      exact tracked.groupStep stepped rfl ⟨nofun, nofun⟩ fun _ => nofun
    · cases stepped
  | awaitFlag =>
    simp only [PoolTasks.step] at stepped
    split at stepped
    · rename_i phase
      exact tracked.awaitFlag phase stepped
    · cases stepped
  | lock =>
    simp only [PoolTasks.step] at stepped
    split at stepped
    · rename_i phase
      cases stepped
      exact tracked.lock phase
    · cases stepped
  | sweep => exact tracked.sweep stepped

/-- When the run loop has stopped there is no built peer that was not inserted. -/
theorem Tracked.inserted (stopped : 0 ∉ state.group.running) :
    state.built = state.pool.spawned.length := by
  obtain ⟨task, found, busy⟩ := tracked.loop
  have free : state.pool.runPhase.holdsBuilt = false := by
    refine Bool.eq_false_iff.mpr fun holds => stopped ?_
    refine TaskGroup.mem_running.mpr ⟨task, found, ?_⟩
    rw [busy holds]
    rfl
  have built := tracked.built
  rw [free] at built
  exact built

omit tracked in
theorem groupStep_pool {action : TaskAction} (stepped : state.groupStep action phase = some next) :
    next.pool = state.pool ∧ next.built = state.built := by
  revert stepped
  fun_cases groupStep <;> rintro ⟨⟩
  exact ⟨rfl, rfl⟩

/-- Nobody is built or inserted after the run loop has stopped. -/
theorem Tracked.closed (done : state.phase.cancelled = true) {action : ShutdownAction}
    (stepped : state.step action = some next) :
    next.built = state.built ∧ next.pool.spawned.length = state.pool.spawned.length := by
  have peerStep {peerAction : PoolAction} {pool : PeerPool} {events : List PeerEvent}
      (step : state.pool.step peerAction = some (pool, events))
      (ofPeer : peerAction.ofLoop = false) :
      pool.spawned.length = state.pool.spawned.length :=
    (PeerPool.peer_step tracked.wellFormed step ofPeer).2.1
  have groupStep {action : TaskAction} {phase : ShutdownPhase}
      (stepped : state.groupStep action phase = some next) :
      next.built = state.built ∧ next.pool.spawned.length = state.pool.spawned.length := by
    obtain ⟨pool, built⟩ := groupStep_pool stepped
    exact ⟨built, congrArg (fun pool => pool.spawned.length) pool⟩
  revert stepped
  fun_cases PoolTasks.step
  case case1 =>
    intro stepped
    obtain ⟨ready, stepped⟩ := Option.ite_none_right_eq_some.mp stepped
    have runs := mem_running_of_isRunning (Bool.and_eq_true_iff.mp ready).2
    exact absurd runs (tracked.cancelled done)
  case case2 =>
    fun_cases PoolTasks.disconnect <;> rintro ⟨⟩
    rename_i step _
    exact ⟨rfl, peerStep step rfl⟩
  case case3 =>
    fun_cases PoolTasks.callback <;> rintro ⟨⟩
    rename_i step
    exact ⟨rfl, peerStep step rfl⟩
  all_goals first | exact groupStep | rintro ⟨⟩
  all_goals exact ⟨rfl, rfl⟩

end

end PoolTasks

/-- In every run in which the run loop is not stopped while a built peer waits to be inserted,
`Peer::shutdown` has been called on every peer that `Peer::new` has returned once `shutdown` has
returned, and no peer is built or inserted after that. -/
theorem poolShutdown_reaches_every_peer {history : List Empty} {state : PoolTasks}
    (run : shutdownMachine.Run (fun state action => state.sparesBuilt action = true) history state)
    (returned : state.phase = .returned) :
    (∀ peer < state.built, peer ∈ state.shutDown) ∧
      ∀ action next, state.step action = some next →
        next.built = state.built ∧ next.pool.spawned.length = state.pool.spawned.length := by
  have tracked : PoolTasks.Tracked state :=
    run.invariant (fun _ => PoolTasks.Tracked) PoolTasks.new_tracked
      fun _ _ _ _ _ before spares step => by
        obtain ⟨_, stepped, ⟨⟩⟩ := Option.map_eq_some_iff.mp step
        exact before.step spares stepped
  have done : state.phase.cancelled = true := by
    rw [returned]
    rfl
  refine ⟨fun peer bound => ?_, fun action next stepped => tracked.closed done stepped⟩
  rw [tracked.inserted (tracked.cancelled done)] at bound
  exact (tracked.swept [] (by rw [returned]; rfl) peer bound).resolve_left List.not_mem_nil

/-- A peer is inserted while the cancellation is under way, and is shut down by the loop over the
map. -/
theorem poolShutdown_reaches_every_peer_late :
    ∃ state, shutdownMachine.Run (fun state action => state.sparesBuilt action = true)
        [] state ∧
      state.phase = .returned ∧ state.built = 1 ∧ ∀ peer < state.built, peer ∈ state.shutDown := by
  have taken : shutdownMachine.reach PoolTasks.sparesBuilt
      [.run (.handshake (.ok carolId)), .run .advance, .run (.setup true), .shutdown [0],
        .run .advance, .signalStop, .stop 0, .callbackDone 0, .signalFlag 0, .awaitFlag, .lock,
        .sweep, .sweep] = some ([], _) := rfl
  have run := Machine.Run.of_reach taken
  exact ⟨_, run, rfl, rfl, (poolShutdown_reaches_every_peer run rfl).1⟩

/-- The run loop is stopped while it waits for the lock with a peer in its hands. -/
theorem poolShutdown_loses_built :
    ∃ state, shutdownMachine.Run (fun _ _ => True) [] state ∧
      state.phase = .returned ∧ state.built = 1 ∧ state.shutDown = [] := by
  have taken : shutdownMachine.trace
      [.run (.handshake (.ok carolId)), .run .advance, .run (.setup true), .shutdown [0],
        .signalStop, .stop 0, .callbackDone 0, .signalFlag 0, .awaitFlag, .lock, .sweep] =
      some ([], _) := rfl
  exact ⟨_, Machine.Run.of_trace taken, rfl, rfl, rfl⟩

end Karyon.P2p
