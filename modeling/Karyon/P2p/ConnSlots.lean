/-
This file models the connection slots of a node: the accept loops of `p2p/src/listener.rs` and the
dials of `connector.rs` take a slot for a connection, `conn_queue.rs` hands the connection to the
pool of `peer_pool.rs` and waits for its `conn_closed` signal, and the slot is given back after it.

A connection is known by its number, in the order in which slots are acquired. The pool takes
connections out of the queue one at a time; a connection that becomes a peer is the connection of
that peer for good. The signal is sent by the run loop for a connection it gives up, and by the
shutdown of a peer, after the peer was taken out of the map.

So every connection that was taken is accounted for until it is signalled (`pool_identity`), and the
peers in the map have different connections that all hold their slots (`peers_within_slots`).
-/

import Karyon.P2p.PeerLifecycle
import Karyon.P2p.Wire
import Mathlib.Logic.Function.Basic

namespace Karyon.P2p

open Transition

/-! ### Connections and slots -/

/-- Where the task of a connection is. It has a slot and waits for the accept or the dial; it
performs the handshake of the transport; it has failed; it is queued and waits for its signal; it
has got the signal; it has given its slot back. -/
inductive ConnPhase where
  | opening
  | upgrading
  | failed
  | waiting
  | woken
  | released
  deriving DecidableEq

structure ConnTask where
  direction : ConnDirection
  phase : ConnPhase
  deriving DecidableEq

/-- The tasks of the connections, the free slots of the listener and of the connector, the queue,
the connection of the current turn of the run loop, the connections of the spawned peers, the
connections that were signalled, and the pool. -/
structure ConnSlots where
  conns : List ConnTask
  permits : ConnDirection → Nat
  connQueue : List Nat
  current : Option Nat
  owners : List Nat
  closed : List Nat
  pool : PeerPool

/-- What can happen next: a slot is acquired; an accept or a dial, and then the handshake of the
transport, succeeds or fails; the run loop takes the next connection; the pool takes a step; a
connection gets its signal; its slot is given back. -/
inductive ConnAction where
  | acquire (direction : ConnDirection)
  | opened (conn : Nat) (succeeds : Bool)
  | upgraded (conn : Nat) (succeeds : Bool)
  | next
  | pool (action : PoolAction)
  | wake (conn : Nat)
  | release (conn : Nat)

/-- The run loop took a connection; the callback of a peer took what the map held under the id of
the peer. -/
inductive ConnEvent where
  | taken (conn : Nat)
  | erased (peer : Nat) (removed : Option Nat)
  deriving DecidableEq

namespace ConnSlots

def new (slots : ConnDirection → Nat) : ConnSlots where
  conns := []
  permits := slots
  connQueue := []
  current := none
  owners := []
  closed := []
  pool := .new

variable (state : ConnSlots)

/-- The task of a connection goes from one phase to another. -/
def move (conn : Nat) (before after : ConnPhase) : Option ConnSlots :=
  match state.conns[conn]? with
  | some task =>
    if task.phase = before then
      some { state with conns := state.conns.set conn { task with phase := after } }
    else none
  | none => none

/-- The callback of a task that failed or got its signal drops the guard of the slot. -/
def release (conn : Nat) : Option ConnSlots :=
  match state.conns[conn]? with
  | some task =>
    if task.phase = .failed ∨ task.phase = .woken then
      some { state with
        conns := state.conns.set conn { task with phase := .released }
        permits := Function.update state.permits task.direction (state.permits task.direction + 1) }
    else none
  | none => none

/-- The connection whose signal a step of the pool sends. -/
def signals : PoolAction → Option Nat
  | .advance => if state.pool.runPhase = .closing then state.current else none
  | .callback peer =>
    match state.pool.spawned[peer]? with
    | some ⟨_, .shuttingDown⟩ => state.owners[peer]?
    | _ => none
  | _ => none

def currentAfter : PoolAction → Option Nat
  | .advance =>
    match state.pool.runPhase with
    | .closing | .emitting _ _ => none
    | _ => state.current
  | _ => state.current

def ownersAfter : PoolAction → List Nat
  | .advance =>
    match state.pool.runPhase with
    | .inserting _ => state.owners ++ state.current.toList
    | _ => state.owners
  | _ => state.owners

/-- What the callback of a peer takes out of the map. -/
def erases : PoolAction → List ConnEvent
  | .callback peer =>
    match state.pool.spawned[peer]? with
    | some ⟨pid, .removing⟩ => [.erased peer (state.pool.peers.lookup pid)]
    | _ => []
  | _ => []

/-- The run loop performs handshakes on the connection that it took only. -/
def handshakes : PoolAction → Bool
  | .handshake _ => state.current.isSome
  | _ => true

def poolStep (action : PoolAction) : Option (ConnSlots × List ConnEvent) :=
  if state.handshakes action then
    match state.pool.step action with
    | some (pool, _) => some (
        { state with
          pool
          current := state.currentAfter action
          owners := state.ownersAfter action
          closed := (state.signals action).toList ++ state.closed }, state.erases action)
    | none => none
  else none

def step : ConnAction → Option (ConnSlots × List ConnEvent)
  | .acquire direction =>
    if 0 < state.permits direction then
      some ({ state with
        conns := state.conns ++ [⟨direction, .opening⟩]
        permits := Function.update state.permits direction (state.permits direction - 1) }, [])
    else none
  | .opened conn succeeds =>
    (state.move conn .opening (if succeeds then .upgrading else .failed)).map (·, [])
  | .upgraded conn true =>
    (state.move conn .upgrading .waiting).map fun next =>
      ({ next with connQueue := next.connQueue ++ [conn] }, [])
  | .upgraded conn false => (state.move conn .upgrading .failed).map (·, [])
  | .next =>
    match state.current, state.pool.runPhase, state.connQueue with
    | none, .idle, conn :: rest =>
      some ({ state with current := some conn, connQueue := rest }, [.taken conn])
    | _, _, _ => none
  | .pool action => state.poolStep action
  | .wake conn =>
    if conn ∈ state.closed then (state.move conn .waiting .woken).map (·, []) else none
  | .release conn => (state.release conn).map (·, [])

def direction (peer : Nat) : Option ConnDirection :=
  (state.owners[peer]?).bind fun conn => (state.conns[conn]?).map ConnTask.direction

def countPeers (direction : ConnDirection) : Nat :=
  HashMap.countValues (fun peer => decide (state.direction peer = some direction)) state.pool.peers

end ConnSlots

def slotMachine (slots : ConnDirection → Nat) : Machine ConnSlots ConnAction ConnEvent where
  start := .new slots
  step := ConnSlots.step

/-! ### What one step of the pool does -/

/-- The connection of the peer has not been signalled. -/
def PeerPhase.holds : PeerPhase → Bool
  | .running | .removing | .shuttingDown => true
  | .notifying | .emitting | .finished => false

/-- From the phase the run loop only goes on to another one. -/
def RunPhase.passes : RunPhase → Bool
  | .idle | .closing | .inserting _ | .emitting _ _ => false
  | .failing _ | .emittingFailed _ | .checking _ | .refusing | .building _ | .notifying _ _ => true

/-- The moves of the pool: the run loop goes on within its turn, ends the turn of a connection it
gives up, inserts a peer, or ends the turn of a peer; the task of a peer goes on. -/
inductive PeerPool.Move (pool : PeerPool) : PoolAction → PeerPool → Prop
  | goes {action : PoolAction} {phase : RunPhase}
      (handshakes : pool.runPhase = .idle → ∃ outcome, action = .handshake outcome)
      (within : action = .advance → pool.runPhase ≠ .closing ∧
        (∀ pid, pool.runPhase ≠ .inserting pid) ∧ ∀ pid peer, pool.runPhase ≠ .emitting pid peer)
      (other : ∀ peer, action ≠ .callback peer)
      (announcing : phase.announcing.isSome = pool.runPhase.announcing.isSome) :
      Move pool action { pool with runPhase := phase }
  | closes (closing : pool.runPhase = .closing) : Move pool .advance { pool with runPhase := .idle }
  | inserts {pid : PeerID} (inserting : pool.runPhase = .inserting pid) :
      Move pool .advance (pool.inserted pid)
  | announces {pid : PeerID} {peer : Nat} (emitting : pool.runPhase = .emitting pid peer) :
      Move pool .advance { pool with runPhase := .idle }
  | disconnects {peer : Nat} {task : PeerTask} (found : pool.spawned[peer]? = some task)
      (running : task.phase = .running) :
      Move pool (.disconnect peer) (pool.setPhase peer .removing)
  | calls {peer : Nat} {task : PeerTask} {phase : PeerPhase} {peers : HashMap PeerID Nat}
      (found : pool.spawned[peer]? = some task)
      (holding : task.phase.holds = (phase.holds || decide (task.phase = .shuttingDown)))
      (signalling : task.phase = .shuttingDown → phase.holds = false) :
      Move pool (.callback peer) { pool.setPhase peer phase with peers }
  | vanishes {peer : Nat} {task : PeerTask} (found : pool.spawned[peer]? = some task)
      (removing : task.phase = .removing) (absent : pool.peers.lookup task.pid = none) :
      Move pool (.callback peer) (pool.setPhase peer .finished)

namespace PeerPool

variable {pool next : PeerPool} {events : List PeerEvent}

/-- The run loop goes on from a phase in which it does nothing else. -/
theorem Move.passes {phase : RunPhase} (passes : pool.runPhase.passes = true)
    (announcing : phase.announcing.isSome = pool.runPhase.announcing.isSome) :
    Move pool .advance { pool with runPhase := phase } := by
  have other {before : RunPhase} (stays : before.passes = false) : pool.runPhase ≠ before := by
    intro same
    rw [same, stays] at passes
    cases passes
  exact .goes (fun idle => absurd idle (other rfl))
    (fun _ => ⟨other rfl, fun _ => other rfl, fun _ _ => other rfl⟩) (by rintro _ ⟨⟩) announcing

theorem step_move {action : PoolAction} (step : pool.step action = some (next, events)) :
    Move pool action next := by
  cases steps_of_step step with
  | inserts inserting => exact .inserts inserting
  | leaves found removing =>
    exact .calls found (by rw [removing]; rfl) (by rw [removing]; rintro ⟨⟩)
  | vanishes found removing absent => exact .vanishes found removing absent
  | loops phase turn =>
    cases turn with
    | fails pid | succeeds pid =>
      exact .goes (fun _ => ⟨_, rfl⟩) (by rintro ⟨⟩) (by rintro _ ⟨⟩) (by rw [phase]; rfl)
    | built pid | unbuilt pid =>
      exact .goes (by rw [phase]; rintro ⟨⟩) (by rintro ⟨⟩) (by rintro _ ⟨⟩) (by rw [phase]; rfl)
    | closes => exact .closes phase
    | announces pid peer => exact .announces phase
    | _ => exact .passes (by rw [phase]; rfl) (by rw [phase]; rfl)
  | works found phase turn =>
    cases turn with
    | disconnects => exact .disconnects found phase
    | shutsDown => exact .calls found (by rw [phase]; rfl) (fun _ => rfl)
    | notifies | emits => exact .calls found (by rw [phase]; rfl) (by rw [phase]; rintro ⟨⟩)

end PeerPool

/-! ### What holds in every run -/

/-- The connection has not been queued. -/
def ConnPhase.early : ConnPhase → Bool
  | .opening | .upgrading => true
  | .failed | .waiting | .woken | .released => false

/-- The connection has its slot. -/
def ConnTask.unreleased (direction : ConnDirection) (task : ConnTask) : Bool :=
  decide (task.direction = direction) && decide (task.phase ≠ .released)

namespace ConnSlots

/-- The connection was handed to the pool. -/
def Begun (state : ConnSlots) (conn : Nat) : Prop :=
  conn ∈ state.connQueue ∨ state.current = some conn ∨ conn ∈ state.owners ∨ conn ∈ state.closed

/-- The connection was not signalled and its task waits for the signal. -/
def Waiting (state : ConnSlots) (conn : Nat) : Prop :=
  conn ∉ state.closed ∧ ∃ task : ConnTask, state.conns[conn]? = some task ∧ task.phase = .waiting

/-- The connections are where they should be. Those in the queue, the current one and those of
the peers that are not shut down wait for their signals and are all different; those of the other
peers were signalled; the slots are either free or held by a connection. -/
structure Slotted (slots : ConnDirection → Nat) (history : List ConnEvent) (state : ConnSlots) :
    Prop where
  wellFormed : state.pool.WellFormed
  numbered : state.owners.length = state.pool.spawned.length
  busy : state.pool.runPhase ≠ .idle → state.current ≠ none
  begun : ∀ conn, state.Begun conn →
    ∃ task : ConnTask, state.conns[conn]? = some task ∧ task.phase.early = false
  queued : ∀ conn ∈ state.connQueue, state.Waiting conn ∧ state.current ≠ some conn ∧
    conn ∉ state.owners
  queueNodup : state.connQueue.Nodup
  handled : ∀ conn, state.current = some conn → state.pool.runPhase.announcing.isSome = false →
    state.Waiting conn ∧ conn ∉ state.owners
  announced : ∀ conn, state.current = some conn → state.pool.runPhase.announcing.isSome = true →
    conn ∈ state.owners
  ownersNodup : state.owners.Nodup
  alive : ∀ (peer conn : Nat) (task : PeerTask), state.owners[peer]? = some conn →
    state.pool.spawned[peer]? = some task → task.phase.holds = true → state.Waiting conn
  signalled : ∀ (peer conn : Nat) (task : PeerTask), state.owners[peer]? = some conn →
    state.pool.spawned[peer]? = some task → task.phase.holds = false → conn ∈ state.closed
  taken : ∀ conn, .taken conn ∈ history →
    conn ∈ state.closed ∨ state.current = some conn ∨ conn ∈ state.owners
  erased : ∀ peer removed, .erased peer removed ∈ history → removed = some peer
  permits : ∀ direction, state.permits direction +
    state.conns.countP (ConnTask.unreleased direction) = slots direction

variable {slots : ConnDirection → Nat} {history : List ConnEvent} {state next : ConnSlots}
  {conn : Nat}

theorem Slotted.new : Slotted slots [] (.new slots) where
  wellFormed := PeerPool.new_wellFormed
  numbered := rfl
  busy other := absurd rfl other
  begun conn begun := by
    rcases begun with queued | current | owned | closed
    · cases queued
    · cases current
    · cases owned
    · cases closed
  queued _ member := nomatch member
  queueNodup := List.nodup_nil
  handled _ current := nomatch current
  announced _ current := nomatch current
  ownersNodup := List.nodup_nil
  alive _ _ _ found := nomatch found
  signalled _ _ _ found := nomatch found
  taken _ member := nomatch member
  erased _ _ member := nomatch member
  permits _ := rfl

theorem count_move {before after : ConnTask} (found : state.conns[conn]? = some before)
    (same : ∀ direction, after.unreleased direction = before.unreleased direction)
    (direction : ConnDirection) :
    (state.conns.set conn after).countP (ConnTask.unreleased direction) =
      state.conns.countP (ConnTask.unreleased direction) := by
  have counts : (state.conns.set conn after).countP (ConnTask.unreleased direction) + _ = _ + _ :=
    Indexed.countP_set_eq (ConnTask.unreleased direction) found
  rw [same direction] at counts
  exact Nat.add_right_cancel counts

theorem move_eq_some {before after : ConnPhase}
    (moved : state.move conn before after = some next) :
    ∃ task : ConnTask, state.conns[conn]? = some task ∧ task.phase = before ∧
      next = { state with conns := state.conns.set conn { task with phase := after } } := by
  revert moved
  fun_cases ConnSlots.move <;> rintro ⟨⟩
  rename_i task found phase
  exact ⟨task, found, phase, rfl⟩

/-- Within its turn the run loop signals and inserts nothing. -/
theorem poolStep_goes {action : PoolAction}
    (within : action = .advance → state.pool.runPhase ≠ .closing ∧
      (∀ pid, state.pool.runPhase ≠ .inserting pid) ∧
        ∀ pid peer, state.pool.runPhase ≠ .emitting pid peer)
    (other : ∀ peer, action ≠ .callback peer) :
    state.currentAfter action = state.current ∧ state.ownersAfter action = state.owners ∧
      state.signals action = none ∧ state.erases action = [] := by
  cases action with
  | advance =>
    obtain ⟨notClosing, notInserting, notEmitting⟩ := within rfl
    refine ⟨?_, ?_, if_neg notClosing, rfl⟩
    · simp only [currentAfter]
    · simp only [ownersAfter]
  | callback peer => exact absurd rfl (other peer)
  | handshake outcome | setup succeeds | disconnect peer => exact ⟨rfl, rfl, rfl, rfl⟩

variable {peer : Nat} {task : PeerTask}

theorem mem_signals_callback (found : state.pool.spawned[peer]? = some task) :
    conn ∈ (state.signals (.callback peer)).toList ↔
      state.owners[peer]? = some conn ∧ task.phase = .shuttingDown := by
  obtain ⟨pid, phase⟩ := task
  rw [Option.mem_toList]
  by_cases ending : phase = .shuttingDown
  · subst ending
    simp only [signals, found, and_true]
  · refine iff_of_false (fun member => ?_) fun both => ending both.2
    simp only [signals] at member
    split at member
    · rename_i itsFound
      cases found.symm.trans itsFound
      exact ending rfl
    · cases member

theorem erases_callback (wellFormed : state.pool.WellFormed) :
    (∀ other removed, .erased other removed ∈ state.erases (.callback peer) →
      removed = some other) ∧ ∀ conn, .taken conn ∉ state.erases (.callback peer) := by
  simp only [erases]
  split
  · rename_i pid found
    have listed : state.pool.peers.lookup pid = some peer :=
      (wellFormed.listed pid peer).mpr ⟨_, found, rfl, rfl⟩
    refine ⟨fun other removed member => ?_, fun conn member => ?_⟩
    · cases List.mem_singleton.mp member
      exact listed
    · cases List.mem_singleton.mp member
  · exact ⟨nofun, nofun⟩

/-- What one step does: it takes a slot for a new connection, moves one on, sends an upgraded one to
the run loop, takes one there, steps the pool or gives a slot back. -/
inductive Steps (state : ConnSlots) : ConnAction → ConnSlots → List ConnEvent → Prop
  | acquires {direction : ConnDirection} (free : 0 < state.permits direction) :
      Steps state (.acquire direction)
        { state with
          conns := state.conns ++ [⟨direction, .opening⟩]
          permits := Function.update state.permits direction (state.permits direction - 1) } []
  | moves {action : ConnAction} {conn : Nat} {before after : ConnPhase} {next : ConnSlots}
      (moved : state.move conn before after = some next)
      (waits : before = .waiting → conn ∈ state.closed)
      (later : after ≠ .opening ∧ (after.early = true → before.early = true))
      (holding : before ≠ .released ∧ after ≠ .released) : Steps state action next []
  | upgrades {conn : Nat} {next : ConnSlots}
      (moved : state.move conn .upgrading .waiting = some next) :
      Steps state (.upgraded conn true) { next with connQueue := next.connQueue ++ [conn] } []
  | takes {conn : Nat} {rest : List Nat} (free : state.current = none)
      (idle : state.pool.runPhase = .idle) (queue : state.connQueue = conn :: rest) :
      Steps state .next { state with current := some conn, connQueue := rest } [.taken conn]
  | pools {action : PoolAction} {next : ConnSlots} {events : List ConnEvent}
      (taken : state.poolStep action = some (next, events)) :
      Steps state (.pool action) next events
  | releases {conn : Nat} {next : ConnSlots} (released : state.release conn = some next) :
      Steps state (.release conn) next []

theorem steps_of_step {action : ConnAction} {events : List ConnEvent}
    (taken : state.step action = some (next, events)) : Steps state action next events := by
  cases action with
  | acquire direction =>
    obtain ⟨free, ⟨⟩⟩ := Option.ite_none_right_eq_some.mp taken
    exact .acquires free
  | opened conn succeeds =>
    obtain ⟨_, moved, ⟨⟩⟩ := Option.map_eq_some_iff.mp taken
    exact .moves moved nofun (by cases succeeds <;> decide) (by cases succeeds <;> decide)
  | upgraded conn succeeds =>
    cases succeeds with
    | true =>
      obtain ⟨_, moved, ⟨⟩⟩ := Option.map_eq_some_iff.mp taken
      exact .upgrades moved
    | false =>
      obtain ⟨_, moved, ⟨⟩⟩ := Option.map_eq_some_iff.mp taken
      exact .moves moved nofun (by decide) (by decide)
  | next =>
    simp only [ConnSlots.step] at taken
    split at taken
    · rename_i free idle queue
      cases taken
      exact .takes free idle queue
    · cases taken
  | pool action => exact .pools taken
  | wake conn =>
    obtain ⟨closed, taken⟩ := Option.ite_none_right_eq_some.mp taken
    obtain ⟨_, moved, ⟨⟩⟩ := Option.map_eq_some_iff.mp taken
    exact .moves moved (fun _ => closed) (by decide) (by decide)
  | release conn =>
    obtain ⟨_, released, ⟨⟩⟩ := Option.map_eq_some_iff.mp taken
    exact .releases released

section

variable (slotted : Slotted slots history state)

include slotted

variable {permits : ConnDirection → Nat}

/-- A step that only changes the tasks of connections. No connection that waits for a signal is
touched, and none goes back. -/
theorem Slotted.withConns {conns : List ConnTask}
    (later : ∀ (conn : Nat) (task : ConnTask), state.conns[conn]? = some task →
      task.phase.early = false →
        ∃ after : ConnTask, conns[conn]? = some after ∧ after.phase.early = false)
    (waits : ∀ conn, state.Waiting conn → { state with conns, permits }.Waiting conn)
    (counted : ∀ direction, permits direction + conns.countP (ConnTask.unreleased direction) =
      slots direction) :
    Slotted slots history { state with conns, permits } where
  wellFormed := slotted.wellFormed
  numbered := slotted.numbered
  busy := slotted.busy
  begun conn begun := by
    obtain ⟨task, found, early⟩ := slotted.begun conn begun
    exact later conn task found early
  queued conn member := by
    obtain ⟨waiting, rest⟩ := slotted.queued conn member
    exact ⟨waits conn waiting, rest⟩
  queueNodup := slotted.queueNodup
  handled conn current silent := by
    obtain ⟨waiting, rest⟩ := slotted.handled conn current silent
    exact ⟨waits conn waiting, rest⟩
  announced := slotted.announced
  ownersNodup := slotted.ownersNodup
  alive peer conn task owner found holds :=
    waits conn (slotted.alive peer conn task owner found holds)
  signalled := slotted.signalled
  taken := slotted.taken
  erased := slotted.erased
  permits := counted

/-- The task of one connection is replaced, one that does not wait for its signal any more. -/
theorem Slotted.setConn {before after : ConnTask} (found : state.conns[conn]? = some before)
    (waits : before.phase = .waiting → conn ∈ state.closed)
    (later : after.phase.early = true → before.phase.early = true)
    (counted : ∀ direction, permits direction +
      (state.conns.set conn after).countP (ConnTask.unreleased direction) = slots direction) :
    Slotted slots history { state with conns := state.conns.set conn after, permits } := by
  refine slotted.withConns (fun other task itsFound notEarly => ?_) (fun other waiting => ?_)
    counted
  · by_cases same : other = conn
    · subst same
      cases found.symm.trans itsFound
      refine ⟨after, (Indexed.set_eq_some found).mpr (.inl ⟨rfl, rfl⟩), ?_⟩
      rw [← Bool.not_eq_true]
      intro early
      rw [later early] at notEarly
      cases notEarly
    · exact ⟨task, (Indexed.set_eq_some found).mpr (.inr ⟨same, itsFound⟩), notEarly⟩
  · obtain ⟨unsignalled, task, itsFound, phase⟩ := waiting
    refine ⟨unsignalled, task, (Indexed.set_eq_some found).mpr (.inr ⟨?_, itsFound⟩), phase⟩
    rintro rfl
    cases found.symm.trans itsFound
    exact unsignalled (waits phase)

theorem Slotted.move {before after : ConnPhase} (moved : state.move conn before after = some next)
    (waits : before = .waiting → conn ∈ state.closed)
    (later : after.early = true → before.early = true) (holding : before ≠ .released)
    (keeps : after ≠ .released) : Slotted slots history next := by
  obtain ⟨task, found, phase, rfl⟩ := move_eq_some moved
  refine slotted.setConn found (phase ▸ waits) (phase ▸ later) fun direction => ?_
  rw [count_move found fun direction => ?_]
  · exact slotted.permits direction
  · simp only [ConnTask.unreleased, phase, ne_eq, holding, keeps, not_false_eq_true]

theorem Slotted.acquire {direction : ConnDirection} (free : 0 < state.permits direction) :
    Slotted slots history
      { state with
        conns := state.conns ++ [⟨direction, .opening⟩]
        permits := Function.update state.permits direction (state.permits direction - 1) } := by
  refine slotted.withConns (fun other task found notEarly => ?_) (fun other waiting => ?_)
    fun side => ?_
  · exact ⟨task, Indexed.concat_eq_some.mpr (.inl found), notEarly⟩
  · obtain ⟨unsignalled, task, found, phase⟩ := waiting
    exact ⟨unsignalled, task, Indexed.concat_eq_some.mpr (.inl found), phase⟩
  · have counted := slotted.permits side
    rw [List.countP_append, List.countP_singleton]
    by_cases same : side = direction
    · subst same
      have holds : ConnTask.unreleased side ⟨side, .opening⟩ = true := by
        simp [ConnTask.unreleased]
      rw [Function.update_self, if_pos holds]
      omega
    · have other : ConnTask.unreleased side ⟨direction, .opening⟩ = false := by
        simp [ConnTask.unreleased, Ne.symm same]
      rw [Function.update_of_ne same, other]
      exact counted

theorem Slotted.release (released : state.release conn = some next) :
    Slotted slots history next := by
  revert released
  fun_cases ConnSlots.release <;> rintro ⟨⟩
  rename_i task found ending
  refine slotted.setConn found (fun waiting => ?_) nofun fun side => ?_
  · rw [waiting] at ending
    rcases ending with failed | woken
    · cases failed
    · cases woken
  · have counted := slotted.permits side
    have counts : (state.conns.set conn { task with phase := .released }).countP
        (ConnTask.unreleased side) + _ = _ + _ :=
      Indexed.countP_set_eq (ConnTask.unreleased side) found
    have gone : ConnTask.unreleased side { task with phase := .released } = false := by
      simp [ConnTask.unreleased]
    have held : task.phase ≠ .released := by
      intro phase
      rw [phase] at ending
      rcases ending with failed | woken
      · cases failed
      · cases woken
    rw [gone] at counts
    by_cases same : side = task.direction
    · subst same
      have own : ConnTask.unreleased task.direction task = true := by
        simp [ConnTask.unreleased, held]
      rw [own, if_pos rfl, if_neg Bool.false_ne_true] at counts
      rw [Function.update_self]
      omega
    · have other : ConnTask.unreleased side task = false := by
        simp [ConnTask.unreleased, Ne.symm same]
      rw [other] at counts
      rw [Function.update_of_ne same]
      omega

theorem Slotted.enqueue {task : ConnTask} (found : state.conns[conn]? = some task)
    (phase : task.phase = .waiting) (fresh : ¬ state.Begun conn) :
    Slotted slots history { state with connQueue := state.connQueue ++ [conn] } := by
  have unqueued : conn ∉ state.connQueue := fun member => fresh (.inl member)
  have notCurrent : state.current ≠ some conn := fun same => fresh (.inr (.inl same))
  have unowned : conn ∉ state.owners := fun member => fresh (.inr (.inr (.inl member)))
  have unsignalled : conn ∉ state.closed := fun member => fresh (.inr (.inr (.inr member)))
  refine { slotted with begun := ?_, queued := ?_, queueNodup := ?_ }
  · rintro other (member | elsewhere)
    · rcases mem_concat.mp member with old | rfl
      · exact slotted.begun other (.inl old)
      · exact ⟨task, found, by rw [phase]; rfl⟩
    · exact slotted.begun other (.inr elsewhere)
  · intro other member
    rcases mem_concat.mp member with old | rfl
    · exact slotted.queued other old
    · exact ⟨⟨unsignalled, task, found, phase⟩, notCurrent, unowned⟩
  · rw [← List.concat_eq_append]
    exact slotted.queueNodup.concat unqueued

/-- The handshake of the transport ends, and the connection is queued. -/
theorem Slotted.upgraded {after : ConnSlots}
    (moved : state.move conn .upgrading .waiting = some after) :
    Slotted slots history { after with connQueue := after.connQueue ++ [conn] } := by
  have later := slotted.move moved nofun nofun nofun nofun
  obtain ⟨task, found, phase, rfl⟩ := move_eq_some moved
  refine later.enqueue ((Indexed.set_eq_some found).mpr (.inl ⟨rfl, rfl⟩)) rfl fun begun => ?_
  obtain ⟨other, itsFound, notEarly⟩ := slotted.begun conn begun
  cases found.symm.trans itsFound
  rw [phase] at notEarly
  cases notEarly

theorem Slotted.takes {rest : List Nat} (free : state.current = none)
    (idle : state.pool.runPhase = .idle) (queue : state.connQueue = conn :: rest) :
    Slotted slots (history ++ [.taken conn])
      { state with current := some conn, connQueue := rest } := by
  have nodup := slotted.queueNodup
  rw [queue] at nodup
  obtain ⟨fresh, restNodup⟩ := List.nodup_cons.mp nodup
  have first := slotted.queued conn (queue ▸ List.mem_cons_self)
  have others : ∀ other ∈ rest, other ∈ state.connQueue := fun other member =>
    queue ▸ List.mem_cons_of_mem _ member
  refine { slotted with
    busy := fun _ => nofun, begun := ?_, queued := ?_, queueNodup := restNodup, handled := ?_,
    announced := ?_, taken := ?_, erased := ?_ }
  · rintro other (member | current | elsewhere)
    · exact slotted.begun other (.inl (others other member))
    · cases current
      exact slotted.begun conn (.inl (queue ▸ List.mem_cons_self))
    · exact slotted.begun other (.inr (.inr elsewhere))
  · intro other member
    obtain ⟨waiting, -, unowned⟩ := slotted.queued other (others other member)
    refine ⟨waiting, fun same => ?_, unowned⟩
    cases same
    exact fresh member
  · rintro other ⟨⟩ -
    exact ⟨first.1, first.2.2⟩
  · intro other current announcing
    rw [idle] at announcing
    cases announcing
  · intro other member
    rcases mem_concat.mp member with old | ⟨⟨⟩⟩
    · rcases slotted.taken other old with closed | current | owned
      · exact .inl closed
      · rw [free] at current
        cases current
      · exact .inr (.inr owned)
    · exact .inr (.inl rfl)
  · intro peer removed member
    rcases mem_concat.mp member with old | ⟨⟨⟩⟩
    exact slotted.erased peer removed old

/-- A step of the pool in which no peer is added, the connection of the turn stays or its turn
ends, and at most the given connections are signalled. -/
theorem Slotted.withPool {pool : PeerPool}
    {current : Option Nat} (signal : List Nat) {events : List ConnEvent}
    (wellFormed : pool.WellFormed) (numbered : state.owners.length = pool.spawned.length)
    (busy : pool.runPhase ≠ .idle → current ≠ none)
    (stays : ∀ conn, current = some conn → state.current = some conn)
    (announcing : ∀ conn, current = some conn →
      pool.runPhase.announcing.isSome = state.pool.runPhase.announcing.isSome)
    (ends : ∀ conn, state.current = some conn →
      current = some conn ∨ conn ∈ signal ∨ conn ∈ state.owners)
    (signalled : ∀ conn ∈ signal, state.Begun conn ∧ conn ∉ state.connQueue ∧
      (current = some conn → conn ∈ state.owners))
    (alive : ∀ (peer conn : Nat) (task : PeerTask), state.owners[peer]? = some conn →
      pool.spawned[peer]? = some task → task.phase.holds = true →
        state.Waiting conn ∧ conn ∉ signal)
    (closed : ∀ (peer conn : Nat) (task : PeerTask), state.owners[peer]? = some conn →
      pool.spawned[peer]? = some task → task.phase.holds = false →
        conn ∈ signal ++ state.closed)
    (erased : ∀ peer removed, .erased peer removed ∈ events → removed = some peer)
    (quiet : ∀ conn, .taken conn ∉ events) :
    Slotted slots (history ++ events)
      { state with pool, current, closed := signal ++ state.closed } := by
  have waits : ∀ conn, state.Waiting conn → conn ∉ signal →
      { state with pool, current, closed := signal ++ state.closed }.Waiting conn := by
    rintro conn ⟨unsignalled, waiting⟩ fresh
    refine ⟨fun member => ?_, waiting⟩
    exact (List.mem_append.mp member).elim fresh unsignalled
  refine ⟨wellFormed, numbered, busy, ?_, ?_, slotted.queueNodup, ?_, ?_, slotted.ownersNodup, ?_,
    closed, ?_, ?_, slotted.permits⟩
  · rintro conn (queued | itsCurrent | owned | member)
    · exact slotted.begun conn (.inl queued)
    · exact slotted.begun conn (.inr (.inl (stays conn itsCurrent)))
    · exact slotted.begun conn (.inr (.inr (.inl owned)))
    · rcases List.mem_append.mp member with new | old
      · exact slotted.begun conn (signalled conn new).1
      · exact slotted.begun conn (.inr (.inr (.inr old)))
  · intro conn member
    obtain ⟨waiting, notCurrent, unowned⟩ := slotted.queued conn member
    exact ⟨waits conn waiting fun new => (signalled conn new).2.1 member,
      fun itsCurrent => notCurrent (stays conn itsCurrent), unowned⟩
  · intro conn itsCurrent silent
    rw [announcing conn itsCurrent] at silent
    obtain ⟨waiting, unowned⟩ := slotted.handled conn (stays conn itsCurrent) silent
    exact ⟨waits conn waiting fun new => unowned ((signalled conn new).2.2 itsCurrent), unowned⟩
  · intro conn itsCurrent announces
    rw [announcing conn itsCurrent] at announces
    exact slotted.announced conn (stays conn itsCurrent) announces
  · intro peer conn task owner found holds
    obtain ⟨waiting, fresh⟩ := alive peer conn task owner found holds
    exact waits conn waiting fresh
  · intro conn member
    rcases List.mem_append.mp member with old | new
    · rcases slotted.taken conn old with inClosed | itsCurrent | owned
      · exact .inl (List.mem_append_right _ inClosed)
      · rcases ends conn itsCurrent with still | signal | owned
        · exact .inr (.inl still)
        · exact .inl (List.mem_append_left _ signal)
        · exact .inr (.inr owned)
      · exact .inr (.inr owned)
    · exact absurd new (quiet conn)
  · intro peer removed member
    rcases List.mem_append.mp member with old | new
    · exact slotted.erased peer removed old
    · exact erased peer removed new

theorem Slotted.goes {phase : RunPhase} (busy : phase ≠ .idle → state.current ≠ none)
    (announcing : phase.announcing.isSome = state.pool.runPhase.announcing.isSome)
    (wellFormed : { state.pool with runPhase := phase }.WellFormed) :
    Slotted slots (history ++ [])
      { state with pool := { state.pool with runPhase := phase } } :=
  slotted.withPool [] wellFormed slotted.numbered busy (fun _ same => same)
    (fun _ _ => announcing) (fun _ same => .inl same) nofun
    (fun peer conn task owner found holds =>
      ⟨slotted.alive peer conn task owner found holds, List.not_mem_nil⟩)
    slotted.signalled nofun nofun

theorem Slotted.closes
    (closing : state.pool.runPhase = .closing) (current : state.current = some conn)
    (wellFormed : { state.pool with runPhase := .idle }.WellFormed) :
    Slotted slots (history ++ [])
      { state with
        pool := { state.pool with runPhase := .idle }
        current := none
        closed := [conn] ++ state.closed } := by
  obtain ⟨waiting, unowned⟩ := slotted.handled conn current (by rw [closing]; rfl)
  refine slotted.withPool [conn] wellFormed slotted.numbered (fun other => absurd rfl other) nofun
    nofun (fun other same => .inr (.inl ?_)) (fun other member => ?_)
    (fun peer other task owner found holds => ?_) (fun peer other task owner found holds => ?_)
    nofun nofun
  · cases current.symm.trans same
    exact List.mem_singleton_self conn
  · rw [List.mem_singleton.mp member]
    exact ⟨.inr (.inl current), fun queued => (slotted.queued conn queued).2.1 current, nofun⟩
  · refine ⟨slotted.alive peer other task owner found holds, fun member => unowned ?_⟩
    rw [← List.mem_singleton.mp member]
    exact List.mem_of_getElem? owner
  · exact List.mem_append_right _ (slotted.signalled peer other task owner found holds)

theorem Slotted.announces {pid : PeerID} (emitting : state.pool.runPhase = .emitting pid peer)
    (wellFormed : { state.pool with runPhase := .idle }.WellFormed) :
    Slotted slots (history ++ [])
      { state with pool := { state.pool with runPhase := .idle }, current := none } := by
  refine slotted.withPool [] wellFormed slotted.numbered (fun other => absurd rfl other) nofun
    nofun (fun conn same => .inr (.inr ?_)) nofun
    (fun peer conn task owner found holds =>
      ⟨slotted.alive peer conn task owner found holds, List.not_mem_nil⟩)
    slotted.signalled nofun nofun
  exact slotted.announced conn same (by rw [emitting]; rfl)

theorem Slotted.owners_injective {first second : Nat}
    (one : state.owners[first]? = some conn) (other : state.owners[second]? = some conn) :
    first = second :=
  (List.getElem?_inj (List.getElem?_eq_some_iff.mp one).1 slotted.ownersNodup).mp
    (one.trans other.symm)

/-- The task of a peer goes on. Its connection is signalled when it is shut down. -/
theorem Slotted.setPhase {phase : PeerPhase} {peers : HashMap PeerID Nat} {events : List ConnEvent}
    (found : state.pool.spawned[peer]? = some task) (signal : List Nat)
    (signals : ∀ conn, conn ∈ signal ↔ state.owners[peer]? = some conn ∧ task.phase = .shuttingDown)
    (holding : task.phase.holds = (phase.holds || decide (task.phase = .shuttingDown)))
    (signalling : task.phase = .shuttingDown → phase.holds = false)
    (wellFormed : { state.pool.setPhase peer phase with peers }.WellFormed)
    (erased : ∀ peer removed, .erased peer removed ∈ events → removed = some peer)
    (quiet : ∀ conn, .taken conn ∉ events) :
    Slotted slots (history ++ events)
      { state with
        pool := { state.pool.setPhase peer phase with peers }
        closed := signal ++ state.closed } := by
  have owned : ∀ conn ∈ signal, conn ∈ state.owners := fun conn member =>
    List.mem_of_getElem? ((signals conn).mp member).1
  refine slotted.withPool signal wellFormed ?_ slotted.busy (fun _ same => same) (fun _ _ => rfl)
    (fun _ same => .inl same) (fun conn member => ?_)
    (fun other conn after owner itsFound holds => ?_)
    (fun other conn after owner itsFound holds => ?_) erased quiet
  · show state.owners.length = (state.pool.spawned.modify peer _).length
    rw [List.length_modify]
    exact slotted.numbered
  · exact ⟨.inr (.inr (.inl (owned conn member))),
      fun queued => (slotted.queued conn queued).2.2 (owned conn member),
      fun _ => owned conn member⟩
  · rcases (PeerPool.setPhase_eq_some found).mp itsFound with ⟨rfl, rfl⟩ | ⟨different, before⟩
    · have held : task.phase.holds = true := by
        rw [holding, show phase.holds = true from holds]
        rfl
      refine ⟨slotted.alive other conn task owner found held, fun member => ?_⟩
      have ending := signalling ((signals conn).mp member).2
      rw [show phase.holds = true from holds] at ending
      cases ending
    · refine ⟨slotted.alive other conn after owner before holds, fun member => ?_⟩
      exact different (slotted.owners_injective owner ((signals conn).mp member).1)
  · rcases (PeerPool.setPhase_eq_some found).mp itsFound with ⟨rfl, rfl⟩ | ⟨_, before⟩
    · by_cases ending : task.phase = .shuttingDown
      · exact List.mem_append_left _ ((signals conn).mpr ⟨owner, ending⟩)
      · refine List.mem_append_right _ (slotted.signalled other conn task owner found ?_)
        rw [holding, show phase.holds = false from holds, decide_eq_false ending]
        rfl
    · exact List.mem_append_right _ (slotted.signalled other conn after owner before holds)

/-- A peer is inserted, with the connection of the turn. -/
theorem Slotted.inserts {pid : PeerID}
    (inserting : state.pool.runPhase = .inserting pid) (current : state.current = some conn)
    (wellFormed : (state.pool.inserted pid).WellFormed) :
    Slotted slots (history ++ [])
      { state with
        pool := state.pool.inserted pid
        owners := state.owners ++ [conn] } := by
  obtain ⟨waiting, unowned⟩ := slotted.handled conn current (by rw [inserting]; rfl)
  have old : ∀ (peer owner : Nat) (task : PeerTask), (state.owners ++ [conn])[peer]? = some owner →
      (state.pool.inserted pid).spawned[peer]? = some task →
      (state.owners[peer]? = some owner ∧ state.pool.spawned[peer]? = some task) ∨
        owner = conn ∧ task = ⟨pid, .running⟩ := by
    intro peer owner task owns found
    rcases Indexed.concat_eq_some.mp owns with before | ⟨atEnd, same⟩
    · refine .inl ⟨before, (Indexed.concat_eq_some.mp found).resolve_right fun last => ?_⟩
      have inside := (List.getElem?_eq_some_iff.mp before).1
      rw [slotted.numbered, last.1] at inside
      exact Nat.lt_irrefl _ inside
    · refine .inr ⟨same, ?_⟩
      rcases Indexed.concat_eq_some.mp found with before | ⟨-, same⟩
      · have inside := (List.getElem?_eq_some_iff.mp before).1
        rw [atEnd, slotted.numbered] at inside
        exact absurd inside (Nat.lt_irrefl _)
      · exact same
  rw [List.append_nil]
  refine ⟨wellFormed, ?_, fun _ => ?_, ?_, ?_, slotted.queueNodup, by rintro _ _ ⟨⟩, ?_, ?_, ?_, ?_,
    ?_, slotted.erased, slotted.permits⟩
  · simp only [PeerPool.inserted, List.length_append, List.length_singleton, slotted.numbered]
  · rw [current]
    exact Option.some_ne_none conn
  · rintro other (queued | itsCurrent | owned | closed)
    · exact slotted.begun other (.inl queued)
    · exact slotted.begun other (.inr (.inl itsCurrent))
    · rcases mem_concat.mp owned with before | rfl
      · exact slotted.begun other (.inr (.inr (.inl before)))
      · exact slotted.begun other (.inr (.inl current))
    · exact slotted.begun other (.inr (.inr (.inr closed)))
  · intro other queued
    obtain ⟨itsWaiting, notCurrent, notOwned⟩ := slotted.queued other queued
    refine ⟨itsWaiting, notCurrent, fun owned => ?_⟩
    rcases mem_concat.mp owned with before | rfl
    · exact notOwned before
    · exact notCurrent current
  · intro other itsCurrent _
    cases current.symm.trans itsCurrent
    exact List.mem_concat_self
  · rw [← List.concat_eq_append]
    exact slotted.ownersNodup.concat unowned
  · intro peer owner task owns found holds
    rcases old peer owner task owns found with ⟨owned, before⟩ | ⟨rfl, -⟩
    · exact slotted.alive peer owner task owned before holds
    · exact waiting
  · intro peer owner task owns found holds
    rcases old peer owner task owns found with ⟨owned, before⟩ | ⟨-, rfl⟩
    · exact slotted.signalled peer owner task owned before holds
    · cases holds
  · intro other member
    rcases slotted.taken other member with closed | itsCurrent | owned
    · exact .inl closed
    · exact .inr (.inl itsCurrent)
    · exact .inr (.inr (List.mem_append_left _ owned))

theorem Slotted.pool {action : PoolAction} {events : List ConnEvent}
    (taken : state.poolStep action = some (next, events)) :
    Slotted slots (history ++ events) next := by
  revert taken
  fun_cases poolStep <;> rintro ⟨⟩
  rename_i handshakes pool _ stepped
  have wellFormed := (PeerPool.step_effect stepped).wellFormed slotted.wellFormed
  cases PeerPool.step_move stepped with
  | @goes _ phase isHandshake within other announcing =>
    obtain ⟨current, owners, signals, erases⟩ := poolStep_goes within other
    rw [current, owners, signals, erases]
    refine slotted.goes (fun _ => ?_) announcing wellFormed
    by_cases idle : state.pool.runPhase = .idle
    · obtain ⟨outcome, rfl⟩ := isHandshake idle
      exact Option.isSome_iff_ne_none.mp handshakes
    · exact slotted.busy idle
  | closes closing =>
    obtain ⟨conn, current⟩ :=
      Option.ne_none_iff_exists'.mp (slotted.busy (by rw [closing]; nofun))
    have closed := slotted.closes closing current wellFormed
    simp only [currentAfter, ownersAfter, signals, erases, closing, if_true, current]
    exact closed
  | @inserts pid inserting =>
    obtain ⟨conn, current⟩ :=
      Option.ne_none_iff_exists'.mp (slotted.busy (by rw [inserting]; nofun))
    have inserted := slotted.inserts inserting current wellFormed
    simp only [currentAfter, ownersAfter, signals, erases, inserting, current]
    rw [current] at inserted
    exact inserted
  | announces emitting =>
    have announced := slotted.announces emitting wellFormed
    simp only [currentAfter, ownersAfter, signals, erases, emitting]
    exact announced
  | @disconnects peer task found running =>
    refine slotted.setPhase found [] (fun conn => ?_) (by rw [running]; rfl)
      (by rw [running]; nofun) wellFormed nofun nofun
    rw [running]
    exact iff_of_false List.not_mem_nil fun both => nomatch both.2
  | @calls peer task phase peers found holding signalling =>
    obtain ⟨erased, quiet⟩ := erases_callback slotted.wellFormed
    exact slotted.setPhase found _ (fun _ => mem_signals_callback found) holding signalling
      wellFormed erased quiet
  | @vanishes peer task found removing absent =>
    have listed := (slotted.wellFormed.listed task.pid peer).mpr
      ⟨task, found, rfl, by rw [removing]; rfl⟩
    rw [absent] at listed
    cases listed

theorem Slotted.step {action : ConnAction} {events : List ConnEvent}
    (taken : state.step action = some (next, events)) :
    Slotted slots (history ++ events) next := by
  cases steps_of_step taken with
  | acquires free =>
    rw [List.append_nil]
    exact slotted.acquire free
  | moves moved waits later holding =>
    rw [List.append_nil]
    exact slotted.move moved waits later.2 holding.1 holding.2
  | upgrades moved =>
    rw [List.append_nil]
    exact slotted.upgraded moved
  | takes free idle queue => exact slotted.takes free idle queue
  | pools taken => exact slotted.pool taken
  | releases released =>
    rw [List.append_nil]
    exact slotted.release released

end

end ConnSlots

theorem slotted_of_run {slots : ConnDirection → Nat} {history : List ConnEvent}
    {state : ConnSlots} (run : (slotMachine slots).Run (fun _ _ => True) history state) :
    state.Slotted slots history :=
  run.invariant (fun history state => state.Slotted slots history) .new
    fun _ _ _ _ _ slotted _ taken => slotted.step taken

/-! ### Who is in the map, and where the connections are -/

/-- The peer was spawned under the id, and its callback has not taken it out of the map. -/
def PeerPool.Live (pool : PeerPool) (pid : PeerID) (peer : Nat) : Prop :=
  ∃ task, pool.spawned[peer]? = some task ∧ task.pid = pid ∧ task.phase.listed = true

namespace ConnSlots

/-- The connection is in the map, as a peer. -/
def InMap (state : ConnSlots) (conn : Nat) : Prop :=
  ∃ pid peer, state.pool.peers.lookup pid = some peer ∧ state.owners[peer]? = some conn

/-- The peer of the connection was taken out of the map by `remove_peer`, which shuts it down. -/
def Removing (state : ConnSlots) (conn : Nat) : Prop :=
  ∃ (pid : PeerID) (peer : Nat), state.pool.spawned[peer]? = some ⟨pid, .shuttingDown⟩ ∧
    state.owners[peer]? = some conn

variable {slots : ConnDirection → Nat} {history : List ConnEvent} {state : ConnSlots} {conn : Nat}

/-- The connection of a peer that was not signalled is in the map or about to be signalled. -/
theorem Slotted.owner_cases (slotted : Slotted slots history state)
    (owned : conn ∈ state.owners) :
    state.InMap conn ∨ state.Removing conn ∨ conn ∈ state.closed := by
  obtain ⟨peer, inside, same⟩ := List.mem_iff_getElem.mp owned
  have owner : state.owners[peer]? = some conn := by
    rw [← same]
    exact List.getElem?_eq_getElem inside
  have spawned : peer < state.pool.spawned.length := slotted.numbered ▸ inside
  have found := List.getElem?_eq_getElem spawned
  rcases itsTask : state.pool.spawned[peer] with ⟨pid, phase⟩
  rw [itsTask] at found
  by_cases listed : phase.listed = true
  · exact .inl ⟨pid, peer, (slotted.wellFormed.listed pid peer).mpr ⟨_, found, rfl, listed⟩, owner⟩
  · by_cases ending : phase = .shuttingDown
    · subst ending
      exact .inr (.inl ⟨pid, peer, found, owner⟩)
    · refine .inr (.inr (slotted.signalled peer conn _ owner found ?_))
      revert listed ending
      show _ → _ → phase.holds = false
      cases phase <;> decide

/-- The connection of a peer in the map holds its slot. -/
theorem Slotted.holds_slot {pid : PeerID} {peer : Nat} {direction : ConnDirection}
    (slotted : Slotted slots history state) (listed : state.pool.peers.lookup pid = some peer)
    (side : state.direction peer = some direction) :
    ∃ conn task, state.owners[peer]? = some conn ∧ state.conns[conn]? = some task ∧
      task.unreleased direction = true := by
  obtain ⟨conn, owner, itsSide⟩ := Option.bind_eq_some_iff.mp side
  obtain ⟨task, found, same⟩ := Option.map_eq_some_iff.mp itsSide
  obtain ⟨spawned, spawnedFound, -, phase⟩ := (slotted.wellFormed.listed pid peer).mp listed
  have holds : spawned.phase.holds = true := by
    revert phase
    cases spawned.phase <;> decide
  obtain ⟨-, waiting, waitingFound, itsPhase⟩ :=
    slotted.alive peer conn spawned owner spawnedFound holds
  cases found.symm.trans waitingFound
  refine ⟨conn, task, owner, found, ?_⟩
  simp [ConnTask.unreleased, same, itsPhase]

end ConnSlots

/-- In every run of the connections and the pool, the map holds the live peers and no two of them
have the same id; a callback takes the peer whose task ended out of the map and no other; and a
connection taken from the queue is in the map, is the one of the current turn, belongs to a peer
that is being removed, or was signalled. -/
theorem pool_identity {slots : ConnDirection → Nat} {history : List ConnEvent} {state : ConnSlots}
    (run : (slotMachine slots).Run (fun _ _ => True) history state) :
    (∀ pid peer, state.pool.peers.lookup pid = some peer ↔ state.pool.Live pid peer) ∧
    (∀ pid first second, state.pool.Live pid first → state.pool.Live pid second →
      first = second) ∧
    (∀ peer removed, ConnEvent.erased peer removed ∈ history → removed = some peer) ∧
    ∀ conn, ConnEvent.taken conn ∈ history →
      state.InMap conn ∨ state.current = some conn ∨ state.Removing conn ∨
        conn ∈ state.closed := by
  have slotted := slotted_of_run run
  refine ⟨slotted.wellFormed.listed, fun pid first second one other => ?_, slotted.erased,
    fun conn taken => ?_⟩
  · have firstFound := (slotted.wellFormed.listed pid first).mpr one
    have secondFound := (slotted.wellFormed.listed pid second).mpr other
    exact Option.some.inj (firstFound.symm.trans secondFound)
  · rcases slotted.taken conn taken with closed | current | owned
    · exact .inr (.inr (.inr closed))
    · exact .inr (.inl current)
    · rcases slotted.owner_cases owned with inMap | removing | closed
      · exact .inl inMap
      · exact .inr (.inr (.inl removing))
      · exact .inr (.inr (.inr closed))

/-- In every run of the connections and the pool, the peers of a direction in the map are at most
as many as the slots of the listener or the connector. -/
theorem peers_within_slots {slots : ConnDirection → Nat} {history : List ConnEvent}
    {state : ConnSlots} (run : (slotMachine slots).Run (fun _ _ => True) history state)
    (direction : ConnDirection) : state.countPeers direction ≤ slots direction := by
  have slotted := slotted_of_run run
  have bounded : state.countPeers direction ≤
      state.conns.countP (ConnTask.unreleased direction) := by
    refine Indexed.countValues_le_countP (fun peer => (state.owners[peer]?).getD 0)
      (fun pid peer listed side => ?_)
      fun first second one other oneListed otherListed oneSide otherSide same => ?_
    · obtain ⟨conn, task, owner, found, holds⟩ :=
        slotted.holds_slot listed (of_decide_eq_true side)
      rw [owner]
      exact ⟨task, found, holds⟩
    · obtain ⟨oneConn, _, oneOwner, -⟩ := slotted.holds_slot oneListed (of_decide_eq_true oneSide)
      obtain ⟨otherConn, _, otherOwner, -⟩ :=
        slotted.holds_slot otherListed (of_decide_eq_true otherSide)
      rw [oneOwner, otherOwner] at same
      obtain rfl : oneConn = otherConn := same
      obtain rfl := slotted.owners_injective oneOwner otherOwner
      obtain ⟨task, found, rfl, -⟩ := (slotted.wellFormed.listed first one).mp oneListed
      obtain ⟨again, itsFound, rfl, -⟩ := (slotted.wellFormed.listed second one).mp otherListed
      cases found.symm.trans itsFound
      rfl
  have counted := slotted.permits direction
  omega

/-! ### A run of two connections -/

/-- An inbound connection is opened, queued and taken, and its handshake and setup succeed. -/
def slotAdmission (conn : Nat) (pid : PeerID) : List ConnAction :=
  [.acquire .inbound, .opened conn true, .upgraded conn true, .next, .pool (.handshake (.ok pid)),
    .pool .advance, .pool (.setup true), .pool .advance, .pool .advance, .pool .advance]

/-- The task of a peer ends, and its callback runs until the connection is signalled; the slot of
the connection is given back. -/
def slotDeparture (conn peer : Nat) : List ConnAction :=
  [.pool (.disconnect peer), .pool (.callback peer), .pool (.callback peer), .wake conn,
    .release conn]

def onePeer : PeerID := ⟨Vector.replicate 32 1⟩

def observedSlots (reached : List ConnEvent × ConnSlots) : List ConnEvent × Nat × List Nat :=
  (reached.1, reached.2.countPeers .inbound, reached.2.closed)

/-- A peer leaves and comes back under the same id. -/
theorem pool_identity_reconnected :
    ∃ history state, (slotMachine fun _ => 1).Run (fun _ _ => True) history state ∧
      history = [.taken 0, .erased 0 (some 0), .taken 1] ∧
      (state.InMap 1 ∨ state.current = some 1 ∨ state.Removing 1 ∨ 1 ∈ state.closed) := by
  refine Machine.trace_run _
    (slotAdmission 0 onePeer ++ slotDeparture 0 0 ++ slotAdmission 1 onePeer)
    (by decide +kernel) fun history _ run events => ⟨events, (pool_identity run).2.2.2 1 ?_⟩
  rw [show history = _ from events]
  decide

/-- The only slot is taken by the only peer. -/
theorem peers_within_slots_full :
    ∃ history state, (slotMachine fun _ => 1).Run (fun _ _ => True) history state ∧
      state.countPeers .inbound = 1 ∧ state.countPeers .inbound ≤ 1 := by
  exact Machine.trace_run
    (fun history state => observedSlots (history, state) = ([.taken 0], 1, []))
    (slotAdmission 0 onePeer) (by decide +kernel) fun _ _ run observed =>
      ⟨congrArg (fun image => image.2.1) observed, peers_within_slots run .inbound⟩

end Karyon.P2p
