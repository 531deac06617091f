/-
This file models how the peer pool of `p2p/src/peer_pool.rs` admits and removes peers, and which
lifecycle events it emits.

The run loop and the disconnect callback of every spawned peer are tasks that interleave at their
await points: every lock, notification and emission is a place where the other tasks may go on. A
spawned peer is known by its number; the map of running peers holds these numbers.

The events of one peer need not alternate: a peer may be gone from the map, and its removal
announced, before the run loop has announced it. `peerPool_lifecycle` says which order of emissions
keeps events and map in agreement.
-/

import Karyon.Lib.Transition
import Karyon.P2p.Message

namespace Karyon.P2p

open Transition

/-! ### The pool and its steps -/

/-- Peer-lifecycle events. -/
inductive PeerEvent where
  | added (pid : PeerID)
  | removed (pid : PeerID)
  | handshakeFailed (pid : Option PeerID)
  deriving DecidableEq

/-- Where the run loop waits: for a connection and its handshake, for the notification and the
emission of a failed handshake, for the task of a refused connection, or inside `new_peer`. -/
inductive RunPhase where
  | idle
  | failing (pid : Option PeerID)
  | emittingFailed (pid : Option PeerID)
  | closing
  | checking (pid : PeerID)
  | refusing
  | building (pid : PeerID)
  | inserting (pid : PeerID)
  | notifying (pid : PeerID) (peer : Nat)
  | emitting (pid : PeerID) (peer : Nat)
  deriving DecidableEq

/-- Where a spawned peer is: running, or with its callback waiting inside `remove_peer`. -/
inductive PeerPhase where
  | running
  | removing
  | shuttingDown
  | notifying
  | emitting
  | finished
  deriving DecidableEq

/-- A spawned peer. -/
structure PeerTask where
  pid : PeerID
  phase : PeerPhase

structure PeerPool where
  peers : HashMap PeerID Nat
  runPhase : RunPhase
  spawned : List PeerTask

/-- What can happen next. A handshake ends with the id of an admitted peer, or fails with the id
the failure is reported for; the connection of a peer is set up or not; the run loop goes on; a
peer disconnects; its callback goes on. -/
inductive PoolAction where
  | handshake (outcome : Except (Option PeerID) PeerID)
  | setup (succeeds : Bool)
  | advance
  | disconnect (peer : Nat)
  | callback (peer : Nat)

namespace PeerPool

def new : PeerPool :=
  { peers := ∅, runPhase := .idle, spawned := [] }

variable (pool : PeerPool)

def setPhase (peer : Nat) (phase : PeerPhase) : PeerPool :=
  { pool with spawned := pool.spawned.modify peer fun task => { task with phase } }

/-- The run loop goes on from where it waits. -/
def advance : Option (PeerPool × List PeerEvent) :=
  match pool.runPhase with
  | .idle => none
  | .failing pid => some ({ pool with runPhase := .emittingFailed pid }, [])
  | .emittingFailed pid => some ({ pool with runPhase := .closing }, [.handshakeFailed pid])
  | .closing => some ({ pool with runPhase := .idle }, [])
  | .checking pid =>
    if (pool.peers.lookup pid).isSome then some ({ pool with runPhase := .refusing }, [])
    else some ({ pool with runPhase := .building pid }, [])
  | .refusing => some ({ pool with runPhase := .closing }, [])
  | .building _ => none
  | .inserting pid => some (
      { peers := pool.peers.insert pid pool.spawned.length
        runPhase := .notifying pid pool.spawned.length
        spawned := pool.spawned ++ [⟨pid, .running⟩] }, [])
  | .notifying pid peer => some ({ pool with runPhase := .emitting pid peer }, [])
  | .emitting pid _ => some ({ pool with runPhase := .idle }, [.added pid])

/-- The disconnect callback of a peer goes on: it takes the peer out of the map, shuts it down,
notifies the monitor and emits the removal. -/
def callback (peer : Nat) : Option (PeerPool × List PeerEvent) :=
  match pool.spawned[peer]? with
  | none => none
  | some task =>
    match task.phase with
    | .running => none
    | .removing =>
      match pool.peers.lookup task.pid with
      | none => some (pool.setPhase peer .finished, [])
      | some _ =>
        some ({ pool.setPhase peer .shuttingDown with peers := pool.peers.erase task.pid }, [])
    | .shuttingDown => some (pool.setPhase peer .notifying, [])
    | .notifying => some (pool.setPhase peer .emitting, [])
    | .emitting => some (pool.setPhase peer .finished, [.removed task.pid])
    | .finished => none

def step : PoolAction → Option (PeerPool × List PeerEvent)
  | .handshake outcome =>
    match pool.runPhase, outcome with
    | .idle, .error pid => some ({ pool with runPhase := .failing pid }, [])
    | .idle, .ok pid => some ({ pool with runPhase := .checking pid }, [])
    | _, _ => none
  | .setup succeeds =>
    match pool.runPhase with
    | .building pid =>
      if succeeds then some ({ pool with runPhase := .inserting pid }, [])
      else some ({ pool with runPhase := .closing }, [])
    | _ => none
  | .advance => pool.advance
  | .disconnect peer =>
    match pool.spawned[peer]? with
    | some ⟨_, .running⟩ => some (pool.setPhase peer .removing, [])
    | _ => none
  | .callback peer => pool.callback peer

end PeerPool

def poolMachine : Machine PeerPool PoolAction PeerEvent where
  start := .new
  step := PeerPool.step

/-! ### What events and map have to do with each other -/

/-- The additions (`true`) and removals (`false`) of one peer id. -/
def lifecycle (pid : PeerID) (history : List PeerEvent) : List Bool :=
  history.filterMap fun
    | .added id => if id = pid then some true else none
    | .removed id => if id = pid then some false else none
    | .handshakeFailed _ => none

/-- Additions and removals alternate, beginning with an addition. -/
def Alternates (events : List Bool) : Prop :=
  ∀ index event, events[index]? = some event → event = (index % 2 == 0)

/-- The run loop is inside `new_peer`. -/
def RunPhase.admitting : RunPhase → Bool
  | .checking _ | .refusing | .building _ | .inserting _ | .notifying _ _ | .emitting _ _ => true
  | .idle | .failing _ | .emittingFailed _ | .closing => false

/-- The peer that has been inserted and spawned but not been announced. -/
def RunPhase.announcing : RunPhase → Option (PeerID × Nat)
  | .notifying pid peer | .emitting pid peer => some (pid, peer)
  | _ => none

/-- The callback of the peer is inside `remove_peer`. -/
def PeerPhase.leaving : PeerPhase → Bool
  | .removing | .shuttingDown | .notifying | .emitting => true
  | .running | .finished => false

def PeerPhase.listed : PeerPhase → Bool
  | .running | .removing => true
  | _ => false

/-- The peer is out of the map and its removal has not been emitted. -/
def PeerPhase.unannounced : PeerPhase → Bool
  | .shuttingDown | .notifying | .emitting => true
  | _ => false

namespace PeerPool

/-- No admission and no removal is in progress. -/
def Quiescent (pool : PeerPool) : Prop :=
  pool.runPhase.admitting = false ∧ ∀ task ∈ pool.spawned, task.phase.leaving = false

/-- Emissions wait for each other: the run loop emits an addition only when no other peer of the
id is out of the map with its removal still to be emitted, and a callback emits a removal only
when the run loop is not still to emit the addition of that peer. -/
def inOrder (pool : PeerPool) : PoolAction → Bool
  | .advance =>
    match pool.runPhase with
    | .emitting pid peer => decide (∀ other : Fin pool.spawned.length,
        pool.spawned[other].pid = pid → other.val ≠ peer →
          pool.spawned[other].phase.unannounced = false)
    | _ => true
  | .callback peer =>
    match pool.spawned[peer]? with
    | some ⟨pid, .emitting⟩ => decide (pool.runPhase.announcing ≠ some (pid, peer))
    | _ => true
  | _ => true

/-! ### What one step can do -/

/-- The pool with a new peer in its map, before the peer is announced. -/
def inserted (pool : PeerPool) (pid : PeerID) : PeerPool where
  peers := pool.peers.insert pid pool.spawned.length
  runPhase := .notifying pid pool.spawned.length
  spawned := pool.spawned ++ [⟨pid, .running⟩]

/-- The turns of the run loop that leave the peers as they are: how it goes on from one of its
awaits to the next, and what it emits. -/
inductive LoopTurn (peers : HashMap PeerID Nat) :
    RunPhase → PoolAction → RunPhase → List PeerEvent → Prop
  | fails (pid : Option PeerID) : LoopTurn peers .idle (.handshake (.error pid)) (.failing pid) []
  | succeeds (pid : PeerID) : LoopTurn peers .idle (.handshake (.ok pid)) (.checking pid) []
  | notifiesFailed (pid : Option PeerID) :
      LoopTurn peers (.failing pid) .advance (.emittingFailed pid) []
  | emitsFailed (pid : Option PeerID) :
      LoopTurn peers (.emittingFailed pid) .advance .closing [.handshakeFailed pid]
  | closes : LoopTurn peers .closing .advance .idle []
  | known (pid : PeerID) (present : (peers.lookup pid).isSome = true) :
      LoopTurn peers (.checking pid) .advance .refusing []
  | unknown (pid : PeerID) (absent : peers.lookup pid = none) :
      LoopTurn peers (.checking pid) .advance (.building pid) []
  | refuses : LoopTurn peers .refusing .advance .closing []
  | built (pid : PeerID) : LoopTurn peers (.building pid) (.setup true) (.inserting pid) []
  | unbuilt (pid : PeerID) : LoopTurn peers (.building pid) (.setup false) .closing []
  | notifies (pid : PeerID) (peer : Nat) :
      LoopTurn peers (.notifying pid peer) .advance (.emitting pid peer) []
  | announces (pid : PeerID) (peer : Nat) :
      LoopTurn peers (.emitting pid peer) .advance .idle [.added pid]

/-- The turns of a peer's task that leave the map as it is. -/
inductive TaskTurn (peer : Nat) (pid : PeerID) :
    PeerPhase → PoolAction → PeerPhase → List PeerEvent → Prop
  | disconnects : TaskTurn peer pid .running (.disconnect peer) .removing []
  | shutsDown : TaskTurn peer pid .shuttingDown (.callback peer) .notifying []
  | notifies : TaskTurn peer pid .notifying (.callback peer) .emitting []
  | emits : TaskTurn peer pid .emitting (.callback peer) .finished [.removed pid]

/-- Everything that a step can be: a turn of the run loop or of a peer's task, the insertion of a
peer that was built, and the removal of a peer, which may not be in the map any more. -/
inductive Steps (pool : PeerPool) : PoolAction → PeerPool → List PeerEvent → Prop
  | loops {action : PoolAction} {before after : RunPhase} {events : List PeerEvent}
      (phase : pool.runPhase = before) (turn : LoopTurn pool.peers before action after events) :
      Steps pool action { pool with runPhase := after } events
  | inserts {pid : PeerID} (inserting : pool.runPhase = .inserting pid) :
      Steps pool .advance (pool.inserted pid) []
  | works {action : PoolAction} {peer : Nat} {task : PeerTask} {before after : PeerPhase}
      {events : List PeerEvent} (found : pool.spawned[peer]? = some task)
      (phase : task.phase = before) (turn : TaskTurn peer task.pid before action after events) :
      Steps pool action (pool.setPhase peer after) events
  | leaves {peer : Nat} {task : PeerTask} (found : pool.spawned[peer]? = some task)
      (removing : task.phase = .removing) :
      Steps pool (.callback peer)
        { pool.setPhase peer .shuttingDown with peers := pool.peers.erase task.pid } []
  | vanishes {peer : Nat} {task : PeerTask} (found : pool.spawned[peer]? = some task)
      (removing : task.phase = .removing) (absent : pool.peers.lookup task.pid = none) :
      Steps pool (.callback peer) (pool.setPhase peer .finished) []

variable {pool next : PeerPool} {events : List PeerEvent}

theorem steps_of_advance (step : pool.advance = some (next, events)) :
    Steps pool .advance next events := by
  unfold advance at step
  split at step
  case h_1 => cases step
  case h_2 pid phase =>
    cases step
    exact .loops phase (.notifiesFailed pid)
  case h_3 pid phase =>
    cases step
    exact .loops phase (.emitsFailed pid)
  case h_4 phase =>
    cases step
    exact .loops phase .closes
  case h_5 pid phase =>
    split at step
    · rename_i present
      cases step
      exact .loops phase (.known pid present)
    · rename_i missing
      cases step
      exact .loops phase (.unknown pid (Option.not_isSome_iff_eq_none.mp missing))
  case h_6 phase =>
    cases step
    exact .loops phase .refuses
  case h_7 => cases step
  case h_8 pid phase =>
    cases step
    exact .inserts phase
  case h_9 pid peer phase =>
    cases step
    exact .loops phase (.notifies pid peer)
  case h_10 pid peer phase =>
    cases step
    exact .loops phase (.announces pid peer)

theorem steps_of_callback {peer : Nat} (step : pool.callback peer = some (next, events)) :
    Steps pool (.callback peer) next events := by
  revert step
  fun_cases callback
  all_goals rintro ⟨⟩
  next found phase absent => exact .vanishes found phase absent
  next found phase _ _ => exact .leaves found phase
  next found phase => exact .works found phase .shutsDown
  next found phase => exact .works found phase .notifies
  next found phase => exact .works found phase .emits

theorem steps_of_step {action : PoolAction} (step : pool.step action = some (next, events)) :
    Steps pool action next events := by
  revert step
  fun_cases PeerPool.step
  all_goals try rintro ⟨⟩
  next pid phase => exact .loops phase (.fails pid)
  next pid phase => exact .loops phase (.succeeds pid)
  next pid phase => exact .loops phase (.built pid)
  next pid phase failed =>
    rw [Bool.not_eq_true] at failed
    subst failed
    exact .loops phase (.unbuilt pid)
  next => exact steps_of_advance
  next found => exact .works found rfl .disconnects
  next => exact steps_of_callback

/-- The effects of a step: the run loop goes on without announcing anything, inserts a peer or
announces it; a peer's task goes on, leaves the map, or announces its removal. -/
inductive Effect (pool : PeerPool) :
    PoolAction → PeerPool → List PeerEvent → Prop
  | goes {action : PoolAction} {phase : RunPhase} {events : List PeerEvent}
      (silent : ∀ pid, lifecycle pid events = [])
      (absent : ∀ pid, phase = .building pid → pool.peers.lookup pid = none)
      (built : ∀ pid, phase = .inserting pid → pool.runPhase = .building pid)
      (announcing : phase.announcing = pool.runPhase.announcing) :
      Effect pool action { pool with runPhase := phase } events
  | inserts {action : PoolAction} {pid : PeerID} (inserting : pool.runPhase = .inserting pid) :
      Effect pool action (pool.inserted pid) []
  | announces {pid : PeerID} {peer : Nat} (emitting : pool.runPhase = .emitting pid peer) :
      Effect pool .advance { pool with runPhase := .idle } [.added pid]
  | works {action : PoolAction} {peer : Nat} {task : PeerTask} {phase : PeerPhase}
      (found : pool.spawned[peer]? = some task) (listed : phase.listed = task.phase.listed)
      (unfinished : task.phase ≠ .finished) (remains : phase ≠ .finished) :
      Effect pool action (pool.setPhase peer phase) []
  | leaves {action : PoolAction} {peer : Nat} {task : PeerTask}
      (found : pool.spawned[peer]? = some task) (removing : task.phase = .removing) :
      Effect pool action
        { pool.setPhase peer .shuttingDown with peers := pool.peers.erase task.pid } []
  | vanishes {action : PoolAction} {peer : Nat} {task : PeerTask}
      (found : pool.spawned[peer]? = some task) (removing : task.phase = .removing)
      (absent : pool.peers.lookup task.pid = none) :
      Effect pool action (pool.setPhase peer .finished) []
  | departs {peer : Nat} {task : PeerTask} (found : pool.spawned[peer]? = some task)
      (emitting : task.phase = .emitting) :
      Effect pool (.callback peer) (pool.setPhase peer .finished) [.removed task.pid]

theorem step_effect {action : PoolAction} (step : pool.step action = some (next, events)) :
    Effect pool action next events := by
  cases steps_of_step step with
  | inserts inserting => exact .inserts inserting
  | leaves found removing => exact .leaves found removing
  | vanishes found removing absent => exact .vanishes found removing absent
  | loops phase turn =>
    cases turn with
    | announces pid peer => exact .announces phase
    | unknown pid absent =>
      refine .goes (fun _ => rfl) (fun other same => ?_) nofun (by rw [phase]; rfl)
      cases same
      exact absent
    | built pid =>
      refine .goes (fun _ => rfl) nofun (fun other same => ?_) (by rw [phase]; rfl)
      cases same
      exact phase
    | _ => exact .goes (fun _ => rfl) nofun nofun (by rw [phase]; rfl)
  | works found phase turn =>
    cases turn with
    | emits => exact .departs found phase
    | _ => exact .works found (by rw [phase]; rfl) (by rw [phase]; nofun) nofun

end PeerPool

end Karyon.P2p
