/-
This file models the start of the node of `p2p/src/node.rs` and how the events of the pool reach
discovery.

`Node::run` starts the pool, the listeners and discovery one after the other and then spawns the
task that registers a listener for the events of the pool and passes them on. Connections arrive as
soon as a listener is started. What the pool emits before the task has registered its listener is
lost, and an event that finds the channel of the listener full may be overtaken. When neither
happens nothing is lost or reordered (`discovery_sees_events`).
-/

import Karyon.P2p.Node
import Karyon.Utils.EventEmitter

namespace Karyon.P2p

open Karyon.Net Karyon.Utils Transition

/-! ### Emissions -/

/-- Topic key for the peer-lifecycle event emitter. -/
inductive PeerEventTopic where
  | lifecycle
  deriving DecidableEq

def PeerEventTopic.debug : PeerEventTopic → String
  | .lifecycle => "Lifecycle"

def PeerEvent.eventId : String := "PeerEvent"

/-- The tasks that emit: the run loop, and the callback of a peer. -/
inductive EmittingTask where
  | runLoop
  | callback (peer : Nat)
  deriving DecidableEq

/-- An emission that waits for room in the channels of some listeners. -/
structure Emission where
  task : EmittingTask
  event : PeerEvent
  waiting : List (EventListenerID × Nat)
  failed : List EventListenerID

/-- The task that takes a step of the pool. -/
def PoolAction.task : PoolAction → Option EmittingTask
  | .handshake _ | .setup _ | .advance => some .runLoop
  | .callback peer => some (.callback peer)
  | .disconnect _ => none

def PoolAction.isHandshake : PoolAction → Bool
  | .handshake _ => true
  | _ => false

/-- The step emits an event. -/
def PeerPool.emits (pool : PeerPool) : PoolAction → Bool
  | .advance =>
    match pool.runPhase with
    | .emittingFailed _ | .emitting _ _ => true
    | _ => false
  | .callback peer =>
    match pool.spawned[peer]? with
    | some ⟨_, .emitting⟩ => true
    | _ => false
  | _ => false

/-! ### The node and its steps -/

/-- Where `Node::run` is: before the pool is started, among the endpoints to listen on, before
discovery is started, before it spawns its tasks, or at its end. -/
inductive StartPhase where
  | attaching
  | listening (endpoints : List Endpoint)
  | startingDiscovery
  | spawningForwarder
  | spawningConnector
  | running
  | failed

/-- The task that forwards the events: not spawned, spawned, or with a registered listener. -/
inductive Forwarder where
  | unspawned
  | spawned
  | listening (channel : Nat)
  deriving DecidableEq

/-- The node as it starts. Connections can reach the pool once a listener is started or the task
that dials is spawned. -/
structure NodeRun where
  startPhase : StartPhase
  reachable : Bool
  pool : PeerPool
  emitter : EventEmitter PeerEventTopic PeerEvent
  emissions : List Emission
  forwarder : Forwarder

/-- What matters: the pool emitted an event, discovery was given one. -/
inductive NodeRunEvent where
  | emitted (event : PeerEvent)
  | passed (event : PeerConnectionEvent)

/-- What can happen next: `Node::run` goes on, the pool takes a step, an emission that waits is
tried again, the forwarder goes on; and what is done with the listeners of others. -/
inductive NodeRunAction where
  | run (succeeds : Bool)
  | pool (action : PoolAction)
  | resume (emission : Nat)
  | forward (id : EventListenerID)
  | register (id : EventListenerID)
  | recv (channel : Nat)
  | drop (channel : Nat)
  | cancel (id : EventListenerID)

namespace NodeRun

def new : NodeRun where
  startPhase := .attaching
  reachable := false
  pool := .new
  emitter := .new
  emissions := []
  forwarder := .unspawned

variable (listenEndpoints : List Endpoint)

/-- `Node::run` goes on. A start that fails ends it, and leaves what was started running. -/
def run (state : NodeRun) (succeeds : Bool) : Option NodeRun :=
  match state.startPhase with
  | .attaching =>
    if succeeds then some { state with startPhase := .listening listenEndpoints }
    else some { state with startPhase := .failed }
  | .listening (_ :: endpoints) =>
    if succeeds then some { state with startPhase := .listening endpoints, reachable := true }
    else some { state with startPhase := .failed }
  | .listening [] => some { state with startPhase := .startingDiscovery }
  | .startingDiscovery =>
    if succeeds then some { state with startPhase := .spawningForwarder }
    else some { state with startPhase := .failed }
  | .spawningForwarder =>
    some { state with startPhase := .spawningConnector, forwarder := .spawned }
  | .spawningConnector => some { state with startPhase := .running, reachable := true }
  | .running => none
  | .failed => none

variable (state : NodeRun)

/-- The sends of an emission are tried. It ends when none of them waits, and removes the
listeners whose sends failed. -/
def trySends (emission : Emission) : NodeRun :=
  let tried := Utils.trySends state.emitter.listenerBufferSize emission.event
    state.emitter.channels emission.waiting
  let emitter := { state.emitter with channels := tried.1 }
  let failed := emission.failed ++ tried.2.2
  if tried.2.1.isEmpty then
    if failed.isEmpty then { state with emitter }
    else { state with emitter := emitter.remove .lifecycle PeerEvent.eventId failed }
  else
    { state with
      emitter
      emissions := state.emissions ++ [{ emission with waiting := tried.2.1, failed }] }

/-- A task of the pool emits an event. An error of the emitter is ignored. -/
def emit (task : EmittingTask) (event : PeerEvent) : NodeRun :=
  match state.emitter.send PeerEventTopic.debug .lifecycle PeerEvent.eventId with
  | .error _ => state
  | .ok targets => state.trySends { task, event, waiting := targets, failed := [] }

/-- The pool takes a step, unless its task waits inside an emission. -/
def poolStep (action : PoolAction) : Option (NodeRun × List NodeRunEvent) :=
  if action.isHandshake && !state.reachable then none
  else if state.emissions.any fun emission => action.task == some emission.task then none
  else
    match state.pool.step action, action.task with
    | some (pool, event :: _), some task =>
      some ({ state with pool }.emit task event, [.emitted event])
    | some (pool, _), _ => some ({ state with pool }, [])
    | none, _ => none

/-- The random id of a new listener is not one that an emission is about to remove. -/
def drawn (id : EventListenerID) : Bool :=
  state.emissions.all fun emission =>
    !emission.failed.contains id && !(emission.waiting.map Prod.fst).contains id

/-- The forwarder registers its listener, and then passes on one event after the other. -/
def forward (id : EventListenerID) : Option (NodeRun × List NodeRunEvent) :=
  match state.forwarder with
  | .unspawned => none
  | .spawned =>
    if state.drawn id then
      (state.emitter.register .lifecycle PeerEvent.eventId id).map fun (emitter, channel) =>
        ({ state with emitter, forwarder := .listening channel }, [])
    else none
  | .listening channel => (state.emitter.recv channel).map fun (event, emitter) =>
      ({ state with emitter }, [.passed event.mapped])

def step (state : NodeRun) : NodeRunAction → Option (NodeRun × List NodeRunEvent)
  | .run succeeds => (state.run listenEndpoints succeeds).map (·, [])
  | .pool action => state.poolStep action
  | .resume emission =>
    match state.emissions[emission]? with
    | some waiting =>
      some ({ state with emissions := state.emissions.eraseIdx emission }.trySends waiting, [])
    | none => none
  | .forward id => state.forward id
  | .register id =>
    if state.drawn id then
      (state.emitter.register .lifecycle PeerEvent.eventId id).map fun (emitter, _) =>
        ({ state with emitter }, [])
    else none
  | .recv channel =>
    if state.forwarder = .listening channel then none
    else (state.emitter.recv channel).map fun (_, emitter) => ({ state with emitter }, [])
  | .drop channel =>
    if state.forwarder = .listening channel then none
    else some ({ state with emitter := state.emitter.drop channel }, [])
  | .cancel id =>
    match (state.emitter.registered .lifecycle PeerEvent.eventId).lookup id with
    | some channel =>
      if state.forwarder = .listening channel then none
      else some ({ state with
        emitter := state.emitter.remove .lifecycle PeerEvent.eventId [id] }, [])
    | none => none

/-- An event is emitted only when the forwarder has registered its listener and the channel of
the listener has room. -/
def heard : NodeRunAction → Bool
  | .pool action =>
    if state.pool.emits action then
      match state.forwarder with
      | .listening channel =>
        match state.emitter.channels[channel]? with
        | some ⟨queue, _⟩ => decide (queue.length < state.emitter.listenerBufferSize)
        | none => false
      | _ => false
    else true
  | _ => true

end NodeRun

def nodeRunMachine (listenEndpoints : List Endpoint) :
    Machine NodeRun NodeRunAction NodeRunEvent where
  start := .new
  step := NodeRun.step listenEndpoints

/-! ### What was emitted and what was passed on -/

variable (history : List NodeRunEvent)

/-- What discovery should be given. -/
def emitted : List PeerConnectionEvent :=
  history.filterMap fun
    | .emitted event => some event.mapped
    | .passed _ => none

/-- What discovery was given. -/
def passed : List PeerConnectionEvent :=
  history.filterMap fun
    | .emitted _ => none
    | .passed event => some event

theorem emitted_append (history events : List NodeRunEvent) :
    emitted (history ++ events) = emitted history ++ emitted events :=
  List.filterMap_append

theorem passed_append (history events : List NodeRunEvent) :
    passed (history ++ events) = passed history ++ passed events :=
  List.filterMap_append

variable {action : PoolAction}

/-- A step of the pool emits at most one event, and only where it says so. -/
theorem PeerPool.step_emits {pool next : PeerPool} {events : List PeerEvent}
    (step : pool.step action = some (next, events)) : events = [] ∨ pool.emits action = true := by
  cases steps_of_step step with
  | loops phase turn =>
    cases turn with
    | emitsFailed pid | announces pid peer => exact .inr (by simp only [emits, phase])
    | _ => exact .inl rfl
  | @works _ _ task _ _ _ found phase turn =>
    obtain ⟨pid, itsPhase⟩ := task
    cases turn with
    | emits =>
      cases phase
      exact .inr (by simp only [emits, found])
    | _ => exact .inl rfl
  | _ => exact .inl rfl

/-! ### Trying the sends of an emission -/

/-- The forwarder has not been spawned and will be. -/
def StartPhase.beforeSpawn : StartPhase → Bool
  | .attaching | .listening _ | .startingDiscovery | .spawningForwarder => true
  | .spawningConnector | .running | .failed => false

/-- The emission neither sends to the channel nor removes the listener. -/
def Emission.Spares (emission : Emission) (id : EventListenerID) (channel : Nat) : Prop :=
  channel ∉ emission.waiting.map Prod.snd ∧ id ∉ emission.waiting.map Prod.fst ∧
    id ∉ emission.failed

namespace NodeRun

variable (state : NodeRun)

def listeners : HashMap EventListenerID Nat :=
  state.emitter.registered .lifecycle PeerEvent.eventId

/-- The result of the sends of an emission: the channels, the sends that wait, the listeners
that failed. -/
def tried (emission : Emission) :
    List (Channel PeerEvent) × List (EventListenerID × Nat) × List EventListenerID :=
  Utils.trySends state.emitter.listenerBufferSize emission.event state.emitter.channels
    emission.waiting

/-- What is found after the sends of an emission were tried. -/
structure Tried (state next : NodeRun) (emission : Emission) : Prop where
  channels : next.emitter.channels = (state.tried emission).1
  startPhase : next.startPhase = state.startPhase
  forwarder : next.forwarder = state.forwarder
  kept : ∀ id, id ∉ emission.failed → id ∉ (state.tried emission).2.2 →
    next.listeners.lookup id = state.listeners.lookup id
  fewer : ∀ id channel, next.listeners.lookup id = some channel →
    state.listeners.lookup id = some channel
  emissions : ∀ other ∈ next.emissions, other ∈ state.emissions ∨
    other.waiting = (state.tried emission).2.1 ∧
      other.failed = emission.failed ++ (state.tried emission).2.2

theorem trySends_tried (emission : Emission) : Tried state (state.trySends emission) emission := by
  simp only [trySends]
  split
  · split
    · exact ⟨rfl, rfl, rfl, fun _ _ _ => rfl, fun _ _ found => found, fun _ member => .inl member⟩
    · refine ⟨rfl, rfl, rfl, fun id alive sent => ?_, fun id channel found => ?_,
        fun _ member => .inl member⟩
      · refine (EventEmitter.lookup_registered_remove _ id).trans (if_neg fun member => ?_)
        exact (List.mem_append.mp member).elim alive sent
      · have removed := (EventEmitter.lookup_registered_remove _ id).symm.trans found
        obtain ⟨_, removed⟩ := Option.ite_none_left_eq_some.mp removed
        exact removed
  · refine ⟨rfl, rfl, rfl, fun _ _ _ => rfl, fun _ _ found => found, fun other member => ?_⟩
    rcases mem_concat.mp member with old | rfl
    · exact .inl old
    · exact .inr ⟨rfl, rfl⟩

/-! ### What holds in every run -/

/-- Channels are numbered in the order they are opened, and each belongs to one listener. -/
structure WellNumbered (state : NodeRun) : Prop where
  opened : ∀ id channel, state.listeners.lookup id = some channel →
    channel < state.emitter.channels.length
  apart : ∀ first second channel, state.listeners.lookup first = some channel →
    state.listeners.lookup second = some channel → first = second
  pending : ∀ emission ∈ state.emissions, ∀ channel ∈ emission.waiting.map Prod.snd,
    channel < state.emitter.channels.length

/-- The channel has a registered listener that no emission waits for or is about to remove, and
the events wait in it. -/
def Listens (channel : Nat) (queue : List PeerEvent) : Prop :=
  ∃ id, state.listeners.lookup id = some channel ∧
    state.emitter.channels[channel]? = some ⟨queue, true⟩ ∧
    ∀ emission ∈ state.emissions, emission.Spares id channel

/-- What was emitted and not passed on waits in the channel of the forwarder. Before it listens
nothing was emitted. -/
structure Follows (history : List NodeRunEvent) (state : NodeRun) : Prop where
  wellNumbered : state.WellNumbered
  unspawned : state.startPhase.beforeSpawn = true → state.forwarder = .unspawned
  caughtUp :
    ((∀ channel, state.forwarder ≠ .listening channel) ∧
      emitted history = [] ∧ passed history = []) ∨
    ∃ channel queue, state.forwarder = .listening channel ∧ state.Listens channel queue ∧
      emitted history = passed history ++ queue.map PeerEvent.mapped

variable {state next : NodeRun} {emission : Emission} {channel : Nat} {queue : List PeerEvent}
  {history : List NodeRunEvent} {id : EventListenerID}

theorem WellNumbered.tried (numbered : state.WellNumbered)
    (opened : ∀ channel ∈ emission.waiting.map Prod.snd, channel < state.emitter.channels.length)
    (done : Tried state next emission) : next.WellNumbered := by
  have length : next.emitter.channels.length = state.emitter.channels.length := by
    rw [done.channels]
    exact length_trySends
  refine ⟨fun id channel found => ?_, fun first second channel one other => ?_,
    fun other member channel waits => ?_⟩
  · rw [length]
    exact numbered.opened id channel (done.fewer id channel found)
  · exact numbered.apart first second channel (done.fewer first channel one)
      (done.fewer second channel other)
  · rw [length]
    rcases done.emissions other member with old | ⟨waiting, -⟩
    · exact numbered.pending other old channel waits
    · rw [waiting] at waits
      obtain ⟨target, still, same⟩ := List.mem_map.mp waits
      exact opened channel (List.mem_map.mpr ⟨target, trySends_waiting.subset still, same⟩)

section

variable (done : Tried state next emission) (found : state.listeners.lookup id = some channel)
  (spared : ∀ other ∈ state.emissions, other.Spares id channel)

include done found spared

/-- A listener that an emission has served or leaves alone goes on listening. -/
theorem Tried.listens (holds : (state.tried emission).1[channel]? = some ⟨queue, true⟩)
    (served : channel ∉ (state.tried emission).2.1.map Prod.snd)
    (heard : id ∉ (state.tried emission).2.1.map Prod.fst) (sent : id ∉ (state.tried emission).2.2)
    (alive : id ∉ emission.failed) : next.Listens channel queue := by
  refine ⟨id, (done.kept id alive sent).trans found, by rw [done.channels]; exact holds,
    fun other member => ?_⟩
  rcases done.emissions other member with old | ⟨waiting, failed⟩
  · exact spared other old
  · unfold Emission.Spares
    rw [waiting, failed, List.mem_append, not_or]
    exact ⟨served, heard, alive, sent⟩

/-- An emission that does not know the listener leaves its channel as it is. -/
theorem Tried.listens_spared (holds : state.emitter.channels[channel]? = some ⟨queue, true⟩)
    (spares : emission.Spares id channel) : next.Listens channel queue := by
  obtain ⟨noChannel, noId, alive⟩ := spares
  refine done.listens found spared ((trySends_other noChannel).trans holds) (fun waits => ?_)
    (fun waits => ?_) (fun failed => noId (trySends_failed.subset failed)) alive
  · obtain ⟨target, member, same⟩ := List.mem_map.mp waits
    exact noChannel (List.mem_map.mpr ⟨target, trySends_waiting.subset member, same⟩)
  · obtain ⟨target, member, same⟩ := List.mem_map.mp waits
    exact noId (List.mem_map.mpr ⟨target, trySends_waiting.subset member, same⟩)

end

/-- A new emission puts its event in the channel of a listener, if there is room. -/
theorem Listens.emit (listens : state.Listens channel queue) (numbered : state.WellNumbered)
    (room : queue.length < state.emitter.listenerBufferSize) (task : EmittingTask)
    (event : PeerEvent) :
    (state.emit task event).WellNumbered ∧
      (state.emit task event).Listens channel (queue ++ [event]) ∧
      (state.emit task event).startPhase = state.startPhase ∧
      (state.emit task event).forwarder = state.forwarder := by
  obtain ⟨id, found, holds, spared⟩ := listens
  unfold NodeRun.emit
  split
  · rename_i error sent
    have none : state.listeners = ∅ := EventEmitter.registered_of_send_error sent
    rw [none] at found
    cases found
  · rename_i targets sent
    obtain ⟨members, idsApart⟩ := EventEmitter.send_targets sent
    have channelsApart : (targets.map Prod.snd).Nodup := by
      refine List.Nodup.map_on (fun first one second other same => ?_)
        (List.Nodup.of_map _ idsApart)
      obtain ⟨name, number⟩ := first
      obtain ⟨otherName, otherNumber⟩ := second
      cases (show number = otherNumber from same)
      rw [numbered.apart name otherName number ((members _ _).mp one) ((members _ _).mp other)]
    have opened : ∀ channel ∈ targets.map Prod.snd, channel < state.emitter.channels.length := by
      intro channel member
      obtain ⟨⟨name, number⟩, target, rfl⟩ := List.mem_map.mp member
      exact numbered.opened name number ((members _ _).mp target)
    have done := trySends_tried state { task, event, waiting := targets, failed := [] }
    obtain ⟨own, served, sent⟩ := @trySends_own _ _ event _ _ _ _ _
      ((members id channel).mpr found) channelsApart idsApart holds room
    refine ⟨numbered.tried opened done, done.listens found spared own served (fun waits => ?_) sent
      List.not_mem_nil, done.startPhase, done.forwarder⟩
    obtain ⟨⟨name, number⟩, member, rfl⟩ := List.mem_map.mp waits
    have same : some number = some channel :=
      ((members _ _).mp (trySends_waiting.subset member)).symm.trans found
    cases same
    exact served (List.mem_map.mpr ⟨_, member, rfl⟩)

/-! ### The steps -/

theorem Follows.new : Follows [] .new := by
  refine ⟨⟨fun _ _ found => ?_, fun _ _ _ found => ?_, fun _ member => ?_⟩, fun _ => rfl,
    .inl ⟨nofun, rfl, rfl⟩⟩
  · cases found
  · cases found
  · cases member

theorem heard_emits (emits : state.pool.emits action = true)
    (heard : state.heard (.pool action) = true) :
    ∃ channel, state.forwarder = .listening channel ∧
      ∀ queue, state.emitter.channels[channel]? = some ⟨queue, true⟩ →
        queue.length < state.emitter.listenerBufferSize := by
  simp only [NodeRun.heard, emits, if_true] at heard
  split at heard
  · rename_i channel listening
    refine ⟨channel, listening, fun queue found => ?_⟩
    rw [found] at heard
    exact of_decide_eq_true heard
  · cases heard

variable {emitter : EventEmitter PeerEventTopic PeerEvent}

theorem WellNumbered.register (numbered : state.WellNumbered)
    (done : state.emitter.register .lifecycle PeerEvent.eventId id = some (emitter, channel))
    (forwarder : Forwarder) : { state with emitter, forwarder }.WellNumbered := by
  obtain ⟨rfl, channels, -, fresh, listeners⟩ := EventEmitter.register_spec done
  have length : emitter.channels.length = state.emitter.channels.length + 1 := by
    rw [channels, List.length_append, List.length_singleton]
  have lookup : ∀ other channel, (emitter.registered .lifecycle PeerEvent.eventId).lookup other =
      some channel → (other = id ∧ channel = state.emitter.channels.length) ∨
        state.listeners.lookup other = some channel := by
    intro other channel found
    rw [listeners] at found
    rcases HashMap.lookup_insert_eq_some.mp found with ⟨same, rfl⟩ | ⟨_, before⟩
    · exact .inl ⟨same, rfl⟩
    · exact .inr before
  refine ⟨fun other channel found => ?_, fun first second channel one other => ?_,
    fun emission member channel waits => ?_⟩
  · show channel < emitter.channels.length
    rcases lookup other channel found with ⟨-, same⟩ | old
    · omega
    · have := numbered.opened other channel old
      omega
  · rcases lookup first channel one with ⟨rfl, atEnd⟩ | old
    · rcases lookup second channel other with ⟨rfl, -⟩ | old
      · rfl
      · exact absurd (numbered.opened second channel old) (by omega)
    · rcases lookup second channel other with ⟨rfl, atEnd⟩ | older
      · exact absurd (numbered.opened first channel old) (by omega)
      · exact numbered.apart first second channel old older
  · show channel < emitter.channels.length
    have := numbered.pending emission member channel waits
    omega

theorem drawn_spares (numbered : state.WellNumbered) (drawn : state.drawn id = true) :
    ∀ other ∈ state.emissions, other.Spares id state.emitter.channels.length := by
  intro other member
  have fresh := List.all_eq_true.mp drawn other member
  rw [Bool.and_eq_true, Bool.not_eq_true', Bool.not_eq_true'] at fresh
  refine ⟨fun waits => ?_, fun known => ?_, fun known => ?_⟩
  · exact absurd (numbered.pending other member _ waits) (Nat.lt_irrefl _)
  · rw [List.contains_iff_mem.mpr known] at fresh
    cases fresh.2
  · rw [List.contains_iff_mem.mpr known] at fresh
    cases fresh.1

section

variable (follows : Follows history state)

include follows

variable {listenEndpoints : List Endpoint}

theorem Follows.run {succeeds : Bool} (step : state.run listenEndpoints succeeds = some next) :
    Follows history next := by
  obtain ⟨⟨opened, apart, pending⟩, unspawned, caughtUp⟩ := follows
  unfold NodeRun.run at step
  split at step
  case h_1 phase | h_2 phase | h_4 phase =>
    split at step <;> cases step <;>
      exact ⟨⟨opened, apart, pending⟩, fun _ => unspawned (by rw [phase]; rfl), caughtUp⟩
  case h_3 phase =>
    cases step
    exact ⟨⟨opened, apart, pending⟩, fun _ => unspawned (by rw [phase]; rfl), caughtUp⟩
  case h_5 phase =>
    cases step
    refine ⟨⟨opened, apart, pending⟩, nofun, .inl ⟨nofun, ?_⟩⟩
    rcases caughtUp with ⟨-, none⟩ | ⟨channel, queue, listening, -⟩
    · exact none
    · rw [unspawned (by rw [phase]; rfl)] at listening
      cases listening
  case h_6 phase =>
    cases step
    exact ⟨⟨opened, apart, pending⟩, nofun, caughtUp⟩
  case h_7 => cases step
  case h_8 => cases step

variable {events : List NodeRunEvent}

/-- A step of the pool: what it emits goes to the channel of the forwarder. -/
theorem Follows.pool (heard : state.heard (.pool action) = true)
    (step : state.poolStep action = some (next, events)) : Follows (history ++ events) next := by
  revert step
  fun_cases poolStep
  all_goals rintro ⟨⟩
  next pool event _ task _ taken =>
    have emits : state.pool.emits action = true :=
      (PeerPool.step_emits taken).resolve_left (List.cons_ne_nil _ _)
    obtain ⟨channel, listening, room⟩ := heard_emits emits heard
    rcases follows.caughtUp with ⟨silent, -⟩ | ⟨own, queue, same, listens, accounted⟩
    · exact absurd listening (silent channel)
    · cases Forwarder.listening.inj (same.symm.trans listening)
      have fits := room queue listens.choose_spec.2.1
      obtain ⟨numbered, later, phase, forwarder⟩ :=
        @Listens.emit { state with pool } channel queue listens
          ⟨follows.wellNumbered.opened, follows.wellNumbered.apart,
            follows.wellNumbered.pending⟩ fits task event
      refine ⟨numbered, ?_, .inr ⟨channel, _, forwarder.trans listening, later, ?_⟩⟩
      · rw [phase, forwarder]
        exact follows.unspawned
      · rw [emitted_append, passed_append, accounted, List.map_append]
        simp [emitted, passed]
  next =>
    rw [List.append_nil]
    exact ⟨⟨follows.wellNumbered.opened, follows.wellNumbered.apart,
      follows.wellNumbered.pending⟩, follows.unspawned, follows.caughtUp⟩

/-- An emission that is tried again does not know the listener of the forwarder. -/
theorem Follows.resume {position : Nat} (found : state.emissions[position]? = some emission) :
    Follows history
      ({ state with emissions := state.emissions.eraseIdx position }.trySends emission) := by
  obtain ⟨⟨opened, apart, pending⟩, unspawned, caughtUp⟩ := follows
  have member : emission ∈ state.emissions := List.mem_of_getElem? found
  have done := trySends_tried { state with emissions := state.emissions.eraseIdx position } emission
  have numbered : { state with emissions := state.emissions.eraseIdx position }.WellNumbered :=
    ⟨opened, apart, fun other kept => pending other (List.mem_of_mem_eraseIdx kept)⟩
  refine ⟨numbered.tried (pending emission member) done, ?_, ?_⟩
  · rw [done.startPhase, done.forwarder]
    exact unspawned
  · rw [done.forwarder]
    rcases caughtUp with silent | ⟨channel, queue, same, ⟨id, registered, holds, spared⟩, accounted⟩
    · exact .inl silent
    · exact .inr ⟨channel, queue, same, done.listens_spared registered
        (fun other kept => spared other (List.mem_of_mem_eraseIdx kept)) holds
        (spared emission member), accounted⟩

theorem Follows.register
    (done : state.emitter.register .lifecycle PeerEvent.eventId id = some (emitter, channel)) :
    Follows history { state with emitter } := by
  refine ⟨follows.wellNumbered.register done state.forwarder, follows.unspawned, ?_⟩
  obtain ⟨-, channels, -, fresh, listeners⟩ := EventEmitter.register_spec done
  rcases follows.caughtUp with silent | ⟨own, queue, same, ⟨name, found, holds, spared⟩, accounted⟩
  · exact .inl silent
  · refine .inr ⟨own, queue, same, ⟨name, ?_, ?_, spared⟩, accounted⟩
    · have different : name ≠ id := by
        rintro rfl
        exact absurd (fresh.symm.trans found) (Option.some_ne_none _).symm
      show (emitter.registered .lifecycle PeerEvent.eventId).lookup name = some own
      rw [listeners, AList.lookup_insert_ne different]
      exact found
    · show emitter.channels[own]? = _
      rw [channels, List.getElem?_append_left (List.getElem?_eq_some_iff.mp holds).1]
      exact holds

/-- The forwarder registers its listener or passes the next event on. -/
theorem Follows.forward (step : state.forward id = some (next, events)) :
    Follows (history ++ events) next := by
  unfold NodeRun.forward at step
  split at step
  · cases step
  · rename_i spawned
    obtain ⟨drawn, step⟩ := Option.ite_none_right_eq_some.mp step
    obtain ⟨⟨emitter, channel⟩, done, ⟨⟩⟩ := Option.map_eq_some_iff.mp step
    obtain ⟨rfl, channels, -, -, listeners⟩ := EventEmitter.register_spec done
    have nothing : emitted history = [] ∧ passed history = [] := by
      rcases follows.caughtUp with ⟨-, none⟩ | ⟨own, queue, listening, -⟩
      · exact none
      · rw [spawned] at listening
        cases listening
    rw [List.append_nil]
    refine ⟨follows.wellNumbered.register done _, fun before => ?_,
      .inr ⟨_, [], rfl, ⟨id, ?_, ?_, drawn_spares follows.wellNumbered drawn⟩, ?_⟩⟩
    · have unspawned := follows.unspawned before
      rw [spawned] at unspawned
      cases unspawned
    · show (emitter.registered .lifecycle PeerEvent.eventId).lookup id = _
      rw [listeners, AList.lookup_insert]
    · show emitter.channels[state.emitter.channels.length]? = _
      rw [channels, List.getElem?_concat_length]
    · rw [nothing.1, nothing.2]
      rfl
  · rename_i channel listening
    obtain ⟨⟨event, emitter⟩, taken, ⟨⟩⟩ := Option.map_eq_some_iff.mp step
    rcases follows.caughtUp with ⟨silent, -⟩ |
      ⟨own, queue, isOwn, ⟨name, found, holds, spared⟩, accounted⟩
    · exact absurd listening (silent channel)
    · cases Forwarder.listening.inj (isOwn.symm.trans listening)
      unfold EventEmitter.recv at taken
      rw [holds] at taken
      rcases queue with _ | ⟨first, rest⟩
      · cases taken
      · cases taken
        obtain ⟨opened, apart, pending⟩ := follows.wellNumbered
        have inside := (List.getElem?_eq_some_iff.mp holds).1
        refine ⟨⟨fun name number known => ?_, apart, fun other member number waits => ?_⟩,
          follows.unspawned, .inr ⟨channel, rest, listening,
            ⟨name, found, List.getElem?_set_self inside, spared⟩, ?_⟩⟩
        · exact (opened name number known).trans_eq List.length_set.symm
        · exact (pending other member number waits).trans_eq List.length_set.symm
        · rw [emitted_append, passed_append, accounted]
          simp [emitted, passed]

/-- What is done to the channel of another listener does not disturb the forwarder. -/
theorem Follows.setChannel (other : state.forwarder ≠ .listening channel)
    (content : Channel PeerEvent) :
    Follows history
      { state with
        emitter := { state.emitter with
          channels := state.emitter.channels.set channel content } } := by
  obtain ⟨⟨opened, apart, pending⟩, unspawned, caughtUp⟩ := follows
  refine ⟨⟨fun name number known => ?_, apart, fun emission member number waits => ?_⟩,
    unspawned, ?_⟩
  · exact (opened name number known).trans_eq List.length_set.symm
  · exact (pending emission member number waits).trans_eq List.length_set.symm
  · rcases caughtUp with silent | ⟨own, queue, same, ⟨name, found, holds, spared⟩, accounted⟩
    · exact .inl silent
    · refine .inr ⟨own, queue, same, ⟨name, found, ?_, spared⟩, accounted⟩
      have different : channel ≠ own := by
        rintro rfl
        exact other same
      exact (List.getElem?_set_ne different).trans holds

theorem Follows.cancel (known : state.listeners.lookup id = some channel)
    (other : state.forwarder ≠ .listening channel) :
    Follows history
      { state with emitter := state.emitter.remove .lifecycle PeerEvent.eventId [id] } := by
  obtain ⟨⟨opened, apart, pending⟩, unspawned, caughtUp⟩ := follows
  have fewer : ∀ name number,
      ((state.emitter.remove .lifecycle PeerEvent.eventId [id]).registered .lifecycle
        PeerEvent.eventId).lookup name = some number →
      state.listeners.lookup name = some number := by
    intro name number found
    rw [EventEmitter.lookup_registered_remove] at found
    obtain ⟨_, found⟩ := Option.ite_none_left_eq_some.mp found
    exact found
  refine ⟨⟨fun name number found => opened name number (fewer name number found),
    fun first second number one another => apart first second number (fewer first number one)
      (fewer second number another), pending⟩, unspawned, ?_⟩
  rcases caughtUp with silent | ⟨own, queue, same, ⟨name, found, holds, spared⟩, accounted⟩
  · exact .inl silent
  · refine .inr ⟨own, queue, same, ⟨name, ?_, holds, spared⟩, accounted⟩
    have different : name ∉ [id] := by
      rw [List.mem_singleton]
      rintro rfl
      cases Option.some.inj (known.symm.trans found)
      exact other same
    exact (EventEmitter.lookup_registered_remove [id] name).trans ((if_neg different).trans found)

theorem Follows.step {action : NodeRunAction} (heard : state.heard action = true)
    (taken : state.step listenEndpoints action = some (next, events)) :
    Follows (history ++ events) next := by
  cases action with
  | run succeeds =>
    obtain ⟨after, run, ⟨⟩⟩ := Option.map_eq_some_iff.mp taken
    rw [List.append_nil]
    exact follows.run run
  | pool action => exact follows.pool heard taken
  | resume position =>
    simp only [NodeRun.step] at taken
    split at taken
    · rename_i emission found
      cases taken
      rw [List.append_nil]
      exact follows.resume found
    · cases taken
  | forward id => exact follows.forward taken
  | register id =>
    obtain ⟨_, taken⟩ := Option.ite_none_right_eq_some.mp taken
    obtain ⟨⟨emitter, channel⟩, done, ⟨⟩⟩ := Option.map_eq_some_iff.mp taken
    rw [List.append_nil]
    exact follows.register done
  | recv channel =>
    obtain ⟨other, taken⟩ := Option.ite_none_left_eq_some.mp taken
    obtain ⟨⟨event, emitter⟩, received, ⟨⟩⟩ := Option.map_eq_some_iff.mp taken
    rw [List.append_nil]
    unfold EventEmitter.recv at received
    split at received
    · cases received
      exact follows.setChannel other _
    · cases received
  | drop channel =>
    obtain ⟨other, ⟨⟩⟩ := Option.ite_none_left_eq_some.mp taken
    rw [List.append_nil]
    exact follows.setChannel other _
  | cancel id =>
    simp only [NodeRun.step] at taken
    split at taken
    · rename_i channel known
      obtain ⟨other, ⟨⟩⟩ := Option.ite_none_left_eq_some.mp taken
      rw [List.append_nil]
      exact follows.cancel known other
    · cases taken

end

end NodeRun

/-- If the pool emits its events only while the forwarder listens and its channel has room, then
discovery is given the emitted events, each once and in the order of their emission; when the
forwarder has nothing left to do, it was given all of them. -/
theorem discovery_sees_events {listenEndpoints : List Endpoint} {history : List NodeRunEvent}
    {state : NodeRun}
    (run : (nodeRunMachine listenEndpoints).Run (fun state action => state.heard action = true)
      history state) :
    passed history <+: emitted history ∧
      ((∀ id, state.forward id = none) → passed history = emitted history) := by
  have follows : NodeRun.Follows history state := run.invariant NodeRun.Follows .new
    fun _ _ _ _ _ follows heard taken => follows.step heard taken
  rcases follows.caughtUp with ⟨-, none, nothing⟩ |
    ⟨channel, queue, listening, ⟨id, found, holds, spared⟩, accounted⟩
  · rw [none, nothing]
    exact ⟨List.prefix_rfl, fun _ => rfl⟩
  · refine ⟨accounted ▸ List.prefix_append _ _, fun rest => ?_⟩
    have empty : queue = [] := by
      have idle := rest id
      simp only [NodeRun.forward, listening, Option.map_eq_none_iff, EventEmitter.recv,
        holds] at idle
      rcases queue with _ | ⟨first, others⟩
      · rfl
      · cases idle
    rw [accounted, empty, List.map_nil, List.append_nil]

def ownEndpoint : Endpoint := .tcp (.ip (.v4 (Vector.replicate 4 10))) 8000

def visitor : PeerID := ⟨Vector.replicate 32 1⟩

/-- The steps of a connection from its handshake to the announcement of the peer. -/
def admission (pid : PeerID) : List NodeRunAction :=
  [.pool (.handshake (.ok pid)), .pool .advance, .pool (.setup true), .pool .advance,
    .pool .advance, .pool .advance]

/-- The steps of a peer from its disconnection to the announcement of its removal. -/
def departure (peer : Nat) : List NodeRunAction :=
  [.pool (.disconnect peer), .pool (.callback peer), .pool (.callback peer),
    .pool (.callback peer), .pool (.callback peer)]

def observedEvents (outcome : List NodeRunEvent × NodeRun) :
    List PeerConnectionEvent × List PeerConnectionEvent :=
  (emitted outcome.1, passed outcome.1)

/-- A node that listens on one endpoint and forwards events before the first connection. -/
theorem discovery_sees_first_peer :
    ∃ (history : List NodeRunEvent) (state : NodeRun),
      (nodeRunMachine [ownEndpoint]).Run
        (fun state action => state.heard action = true) history state ∧
      emitted history = [.connected visitor] ∧
      passed history <+: emitted history := by
  exact Machine.reach_run (fun history state =>
      observedEvents (history, state) = ([.connected visitor], [.connected visitor]))
    ([.run true, .run true, .run true, .run true, .run true, .run true, .forward 7] ++
      admission visitor ++ [.forward 7]) (by decide +kernel)
    fun _ _ run observed => ⟨congrArg Prod.fst observed, (discovery_sees_events run).1⟩

/-- A connection arrives as soon as the endpoint is listened on. The peer is announced before the
forwarder has registered its listener, so discovery learns of its removal only. -/
theorem discovery_misses_peer :
    ∃ (history : List NodeRunEvent) (state : NodeRun),
      (nodeRunMachine [ownEndpoint]).Run (fun _ _ => True) history state ∧
      emitted history = [.connected visitor, .disconnected visitor] ∧
      passed history = [.disconnected visitor] := by
  exact Machine.trace_holds ([.run true, .run true] ++ admission visitor ++
      [.run true, .run true, .run true, .run true, .forward 7] ++ departure 0 ++ [.forward 7])
    (by decide +kernel)

end Karyon.P2p
