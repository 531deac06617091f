/-
This file models who waits for whom around the lock of the peers map of `p2p/src/peer_pool.rs`.

An admission looks the id up and inserts the peer, a removal takes it out; both need the lock for a
moment. `broadcast`, `broadcast_to` and `send_to` keep the lock for reading while they send to one
peer after another, and `shutdown` while it shuts one peer after another down. A send waits while
the send queue of the peer is full, and so does a shutdown; it also waits while the receive queue of
a protocol is full, and the protocol may itself wait in a call of the pool. The writer of the peer
empties its queue only as far as the transport takes its messages, which it does up to a window
until the remote reads.

So an admission or a removal may wait for a remote to read (`pool_waits_for_stuck_peer`). It never
does when every push into a send queue of that peer leaves a free slot (`pool_not_blocked_by_peer`).
-/

import Mathlib.Logic.Relation
import Karyon.P2p.PeerShutdown

namespace Karyon.P2p

open Transition

/-! ### The pool and its tasks -/

/-- The calls that send under the lock. -/
inductive SendCall where
  | broadcast (protoId : ProtocolID) (msg : Bytes)
  | broadcastTo (protoId : ProtocolID) (msg : Bytes) (targets : List PeerID)
  | sendTo (pid : PeerID) (protoId : ProtocolID) (msg : Bytes)

/-- A task that uses the map: an admission before it looks the id up, before it builds the peer
or before it inserts it; a removal; a call before it has the lock, or with the lock and the peers
it has still to send to; the shutdown of the pool before it has the lock, or with the lock and the
peers it has still to shut down, the first of them by the call that has begun. -/
inductive MapTask where
  | checking (pid : PeerID) (queued : QueuedConn) (negotiated : HashSet ProtocolID)
  | building (pid : PeerID) (queued : QueuedConn) (negotiated : HashSet ProtocolID)
  | inserting (pid : PeerID) (wire : Wire)
  | removing (pid : PeerID)
  | starting (call : SendCall)
  | sending (protoId : ProtocolID) (msg : Bytes) (targets : List PeerID)
  | stopping
  | closing (targets : List PeerID) (call : Option Nat)
  | finished

/-- The connection of a peer: its tasks, and the number of messages on each stream that the remote
has not read. -/
structure PeerLine where
  tasks : PeerTasks
  unread : HashMap StreamKey Nat

structure PoolLocks where
  peers : HashMap PeerID PeerLine
  tasks : List MapTask

/-- What can happen next: a connection is to be admitted, a peer removed, a call made, the pool
shut down; a task goes on; a task of a peer takes a turn; a remote reads. -/
inductive LockAction where
  | newPeer (pid : PeerID) (queued : QueuedConn) (negotiated : HashSet ProtocolID)
  | remove (pid : PeerID)
  | call (call : SendCall)
  | shutdown
  | advance (task : Nat)
  | peer (pid : PeerID) (action : PeerAction)
  | read (pid : PeerID) (stream : StreamKey)

/-- The task waits for the lock, if it does not get it at once. -/
def MapTask.locking : MapTask → Bool
  | .checking _ _ _ | .inserting _ _ | .removing _ | .starting _ | .stopping => true
  | .building _ _ _ | .sending _ _ _ | .closing _ _ | .finished => false

/-- The task has the lock for reading. -/
def MapTask.holding : MapTask → Bool
  | .sending _ _ _ | .closing _ _ => true
  | _ => false

/-- The task is a call, which a protocol may have made. -/
def MapTask.calling : MapTask → Bool
  | .starting _ | .sending _ _ _ => true
  | _ => false

/-- A task of the peer takes a turn. The transport takes the message of a writer if it has room in
its window. -/
def PeerLine.step (deps : PeerDeps) (window : Nat) (line : PeerLine) (action : PeerAction) :
    Option PeerLine :=
  match action with
  | .wrote stream true =>
    let unread := (line.unread.lookup stream).getD 0
    if unread < window then
      (line.tasks.step deps action).map fun tasks =>
        { tasks, unread := line.unread.insert stream (unread + 1) }
    else none
  | action => (line.tasks.step deps action).map fun tasks => { line with tasks }

namespace PoolLocks

def new : PoolLocks :=
  { peers := ∅, tasks := [] }

variable (deps : PeerDeps) (window : Nat) (state : PoolLocks)

def setTask (task : Nat) (phase : MapTask) : PoolLocks :=
  { state with tasks := state.tasks.set task phase }

variable (pid : PeerID)

def setLine (line : PeerLine) : PoolLocks :=
  { state with peers := state.peers.insert pid line }

def unlocked : Bool :=
  state.tasks.all fun task => !task.holding

/-- What a call does when it has the lock: it sends to all peers, to those among its targets, or
to one, which may not be there. -/
def begin : SendCall → MapTask
  | .broadcast protoId msg => .sending protoId msg state.peers.keys
  | .broadcastTo protoId msg targets =>
    .sending protoId msg (state.peers.keys.filter fun pid => targets.contains pid)
  | .sendTo pid protoId msg =>
    if (state.peers.lookup pid).isSome then .sending protoId msg [pid] else .finished

/-- Send to the peer. The result is nothing as long as the queue is full, and the peers as they
are when the send fails. -/
def sendTo (protoId : ProtocolID) (msg : Bytes) : Option PoolLocks :=
  match state.peers.lookup pid with
  | none => none
  | some line =>
    match line.tasks.wire.send deps.wire protoId msg with
    | .error _ => some state
    | .ok none => none
    | .ok (some wire) => some (state.setLine pid { line with tasks := { line.tasks with wire } })

def turn (action : PeerAction) : Option PoolLocks :=
  match state.peers.lookup pid with
  | none => none
  | some line => (line.step deps window action).map (state.setLine pid)

/-- A task goes on, if nothing keeps it waiting. A removal is past its step on the map when it shuts
its peer down. -/
def advance (task : Nat) : Option PoolLocks :=
  match state.tasks[task]? with
  | some (.checking pid queued negotiated) =>
    if (state.peers.lookup pid).isSome then some (state.setTask task .finished)
    else some (state.setTask task (.building pid queued negotiated))
  | some (.building pid queued negotiated) =>
    match Wire.fromQueued deps.wire queued negotiated with
    | .ok wire => some (state.setTask task (.inserting pid wire))
    | .error _ => some (state.setTask task .finished)
  | some (.inserting pid wire) =>
    if state.unlocked then
      some ((state.setTask task .finished).setLine pid { tasks := .new wire, unread := ∅ })
    else none
  | some (.removing pid) =>
    if state.unlocked then
      some { state.setTask task .finished with peers := state.peers.erase pid }
    else none
  | some (.starting call) => some (state.setTask task (state.begin call))
  | some (.sending protoId msg (pid :: targets)) =>
    (state.sendTo deps pid protoId msg).map fun next =>
      next.setTask task (.sending protoId msg targets)
  | some (.sending _ _ []) => some (state.setTask task .finished)
  | some .stopping => some (state.setTask task (.closing state.peers.keys none))
  | some (.closing (pid :: targets) call) =>
    match state.peers.lookup pid, call with
    | none, _ => none
    | some line, none =>
      (state.turn deps window pid .shutdown).map fun next =>
        next.setTask task (.closing (pid :: targets) (some line.tasks.calls.length))
    | some line, some call =>
      if line.tasks.calls[call]? = some .finished then
        some (state.setTask task (.closing targets none))
      else state.turn deps window pid (.advance call)
  | some (.closing [] _) => some (state.setTask task .finished)
  | some .finished => none
  | none => none

def read (stream : StreamKey) : Option PoolLocks :=
  match state.peers.lookup pid with
  | none => none
  | some line =>
    match line.unread.lookup stream with
    | some (unread + 1) =>
      some (state.setLine pid { line with unread := line.unread.insert stream unread })
    | _ => none

/-- The calls of `shutdown` of a peer in the map are those of the pool. -/
def step : LockAction → Option PoolLocks
  | .newPeer pid queued negotiated =>
    some { state with tasks := state.tasks ++ [.checking pid queued negotiated] }
  | .remove pid => some { state with tasks := state.tasks ++ [.removing pid] }
  | .call call => some { state with tasks := state.tasks ++ [.starting call] }
  | .shutdown => some { state with tasks := state.tasks ++ [.stopping] }
  | .advance task => state.advance deps window task
  | .peer _ .shutdown | .peer _ (.advance _) => none
  | .peer pid action => state.turn deps window pid action
  | .read pid stream => state.read pid stream

end PoolLocks

/-- A pool whose transports hold as many unread messages as the window. -/
def lockMachine (deps : PeerDeps) (window : Nat) : Machine PoolLocks LockAction Empty where
  start := .new
  step state action := (state.step deps window action).map (·, [])

/-! ### Who waits for whom -/

/-- A task, a writer or a protocol of a peer, or a remote that should read. -/
inductive Party where
  | task (task : Nat)
  | consumer (pid : PeerID) (consumer : Consumer)
  | remote (pid : PeerID)

/-- The party waits for the other one: for the lock that a task has or that a task before it
waits for; for room in a full queue, which its consumer makes; for the remote to read. A protocol
may have sent to its peer or have made any of the calls. -/
inductive PoolLocks.Waits (deps : PeerDeps) (window : Nat) (state : PoolLocks) :
    Party → Party → Prop
  | lock {task holder : Nat} {waiting held : MapTask} (found : state.tasks[task]? = some waiting)
      (locking : waiting.locking = true) (other : state.tasks[holder]? = some held)
      (holding : held.holding = true) : Waits deps window state (.task task) (.task holder)
  | behind {task before : Nat} {waiting earlier : MapTask} (different : task ≠ before)
      (found : state.tasks[task]? = some waiting) (locking : waiting.locking = true)
      (other : state.tasks[before]? = some earlier) (also : earlier.locking = true) :
      Waits deps window state (.task task) (.task before)
  | room {task : Nat} {protoId : ProtocolID} {msg : Bytes} {pid : PeerID} {targets : List PeerID}
      {line : PeerLine} (found : state.tasks[task]? = some (.sending protoId msg (pid :: targets)))
      (peer : state.peers.lookup pid = some line)
      (full : line.tasks.wire.send deps.wire protoId msg = .ok none) :
      Waits deps window state (.task task)
        (.consumer pid (.writer (line.tasks.wire.streamOf protoId)))
  | close {task call : Nat} {pid : PeerID} {targets : List PeerID} {line : PeerLine}
      {phase : ClosePhase} {consumer : Consumer}
      (found : state.tasks[task]? = some (.closing (pid :: targets) (some call)))
      (peer : state.peers.lookup pid = some line) (going : line.tasks.calls[call]? = some phase)
      (pushes : phase.waitsFor = some consumer)
      (full : consumer.capacity ≤ line.tasks.wire.load consumer) :
      Waits deps window state (.task task) (.consumer pid consumer)
  | protocol {pid : PeerID} {name protoId : ProtocolID} {msg : Bytes} {line : PeerLine}
      (peer : state.peers.lookup pid = some line)
      (full : line.tasks.wire.send deps.wire protoId msg = .ok none) :
      Waits deps window state (.consumer pid (.protocol name))
        (.consumer pid (.writer (line.tasks.wire.streamOf protoId)))
  | call {pid : PeerID} {name : ProtocolID} {task : Nat} {made : MapTask}
      (found : state.tasks[task]? = some made) (calling : made.calling = true) :
      Waits deps window state (.consumer pid (.protocol name)) (.task task)
  | transport {pid : PeerID} {stream : StreamKey} {line : PeerLine}
      (peer : state.peers.lookup pid = some line) (held : stream ∈ line.tasks.writing)
      (unread : window ≤ (line.unread.lookup stream).getD 0) :
      Waits deps window state (.consumer pid (.writer stream)) (.remote pid)

/-- What a turn of the peer pushes into a send queue leaves a free slot there. -/
def PeerTasks.keepsSlot (tasks : PeerTasks) : PeerAction → Bool
  | .send protoId _ => tasks.spare 2 (.writer (tasks.wire.streamOf protoId))
  | .advance call => tasks.calls[call]? ≠ some .sending || tasks.spare 2 (.writer none)
  | _ => true

/-- A push into a send queue of the peer leaves a free slot: one of its protocols, of a call that
sends to it, or of the shutdown of the pool. -/
def PoolLocks.keepsSlot (peer : PeerID) (state : PoolLocks) (action : LockAction) : Bool :=
  match state.peers.lookup peer with
  | none => true
  | some line =>
    match action with
    | .peer pid action => pid ≠ peer || line.tasks.keepsSlot action
    | .advance task =>
      match state.tasks[task]? with
      | some (.sending protoId msg (pid :: _)) =>
        pid ≠ peer || line.tasks.keepsSlot (.send protoId msg)
      | some (.closing (pid :: _) (some call)) =>
        pid ≠ peer || line.tasks.keepsSlot (.advance call)
      | _ => true
    | _ => true

/-! ### Queues that are never full -/

variable {deps : PeerDeps} {window : Nat}

/-- None of the send queues is full. -/
def Wire.Roomy (wire : Wire) : Prop :=
  ∀ stream, wire.load (.writer stream) < SEND_QUEUE_SIZE

namespace Wire.Roomy

variable {wire : Wire} (roomy : wire.Roomy)

include roomy

theorem send_ne_wait (protoId : ProtocolID) (msg : Bytes) :
    wire.send deps.wire protoId msg ≠ .ok none := by
  intro waits
  obtain ⟨netMsg, queue, _, found, full⟩ := send_cases waits
  have room := roomy (wire.streamOf protoId)
  rw [load, found] at room
  have pushed : pushQueue SEND_QUEUE_SIZE queue netMsg = some (queue ++ [netMsg]) :=
    pushQueue_eq_some.mpr ⟨room, rfl⟩
  rw [pushed] at full
  cases full

theorem withSendQueue {stream : StreamKey} {queue next : SendQueue}
    (found : wire.sendQueue stream = some queue) (short : next.length < SEND_QUEUE_SIZE) :
    (wire.withSendQueue stream next).Roomy := by
  intro other
  rw [load_withSendQueue found]
  split
  · exact short
  · exact roomy other

theorem withRecvQueues (name : ProtocolID) (queue : List ProtocolEvent) :
    (wire.withRecvQueues (wire.recvQueues.insert name queue)).Roomy := by
  intro stream
  rw [load_insert, if_neg nofun]
  exact roomy stream

end Wire.Roomy

theorem Wire.Roomy.fromQueued {queued : QueuedConn} {negotiated : HashSet ProtocolID} {wire : Wire}
    (built : Wire.fromQueued deps.wire queued negotiated = .ok wire) : wire.Roomy := by
  intro stream
  rw [load]
  cases found : wire.sendQueue stream with
  | none => decide
  | some queue =>
    rw [sendQueue_fromQueued built found]
    decide

/-- Only pushes fill a send queue. -/
theorem PeerTasks.roomy_step {tasks next : PeerTasks} {action : PeerAction}
    (keeps : tasks.keepsSlot action = true) (roomy : tasks.wire.Roomy)
    (stepped : tasks.step deps action = some next) : next.wire.Roomy := by
  have pushes {stream : StreamKey} {queue later : SendQueue} {msg : PeerNetMsg}
      (spare : tasks.spare 2 (.writer stream) = true)
      (found : tasks.wire.sendQueue stream = some queue)
      (pushed : pushQueue SEND_QUEUE_SIZE queue msg = some later) :
      (tasks.wire.withSendQueue stream later).Roomy := by
    have slots := of_decide_eq_true spare
    rw [Wire.load, found] at slots
    exact roomy.withSendQueue found (Nat.lt_of_le_of_lt (Wire.length_of_pushQueue pushed) slots)
  cases steps_of_step stepped with
  | sends built found pushed => exact pushes keeps found pushed
  | closePushes going built found pushed =>
    refine pushes ((Bool.or_eq_true_iff.mp keeps).resolve_left fun other => ?_) found pushed
    exact of_decide_eq_true other going
  | @writes stream msg rest found =>
    have shorter := roomy stream
    rw [Wire.load, found] at shorter
    exact roomy.withSendQueue found (Nat.lt_of_succ_lt shorter)
  | reads | receives | closeNotifies => exact roomy.withRecvQueues _ _
  | _ => exact roomy

theorem PeerLine.step_eq_some {line after : PeerLine} {action : PeerAction}
    (stepped : line.step deps window action = some after) :
    line.tasks.step deps action = some after.tasks := by
  unfold PeerLine.step at stepped
  split at stepped
  · obtain ⟨_, stepped⟩ := Option.ite_none_right_eq_some.mp stepped
    obtain ⟨tasks, taken, rfl⟩ := Option.map_eq_some_iff.mp stepped
    exact taken
  · obtain ⟨tasks, taken, rfl⟩ := Option.map_eq_some_iff.mp stepped
    exact taken

namespace PoolLocks

/-- No send queue of the peer is full, and none of a peer that is about to be inserted. -/
structure Unfilled (peer : PeerID) (state : PoolLocks) : Prop where
  line : ∀ line, state.peers.lookup peer = some line → line.tasks.wire.Roomy
  inserting : ∀ pid wire, .inserting pid wire ∈ state.tasks → wire.Roomy

variable {peer pid : PeerID} {state next : PoolLocks} {task : Nat} {action : PeerAction}
  {phase : MapTask} {line : PeerLine}

theorem keeps_of_eq (keeps : (decide (pid ≠ peer) || line.tasks.keepsSlot action) = true)
    (same : pid = peer) : line.tasks.keepsSlot action = true :=
  (Bool.or_eq_true_iff.mp keeps).resolve_left fun different => of_decide_eq_true different same

theorem begin_ne_inserting (call : SendCall) (pid : PeerID) (wire : Wire) :
    state.begin call ≠ .inserting pid wire := by
  fun_cases begin <;> nofun

section

variable (unfilled : state.Unfilled peer)

include unfilled

theorem Unfilled.setTask (roomy : ∀ pid wire, phase = .inserting pid wire → wire.Roomy) :
    (state.setTask task phase).Unfilled peer := by
  refine ⟨unfilled.line, fun pid wire member => ?_⟩
  rcases List.mem_or_eq_of_mem_set member with old | same
  · exact unfilled.inserting pid wire old
  · exact roomy pid wire same.symm

theorem Unfilled.setOther (task : Nat) (other : ∀ pid wire, phase ≠ .inserting pid wire) :
    (state.setTask task phase).Unfilled peer :=
  unfilled.setTask fun pid wire same => absurd same (other pid wire)

theorem Unfilled.addTask (other : ∀ pid wire, phase ≠ .inserting pid wire) :
    Unfilled peer { state with tasks := state.tasks ++ [phase] } := by
  refine ⟨unfilled.line, fun pid wire member => ?_⟩
  rcases mem_concat.mp member with old | new
  · exact unfilled.inserting pid wire old
  · exact absurd new.symm (other pid wire)

theorem Unfilled.setLine (roomy : pid = peer → line.tasks.wire.Roomy) :
    (state.setLine pid line).Unfilled peer := by
  refine ⟨fun other found => ?_, unfilled.inserting⟩
  rcases HashMap.lookup_insert_eq_some.mp found with ⟨same, rfl⟩ | ⟨_, before⟩
  · exact roomy same.symm
  · exact unfilled.line other before

section

variable (keeps : ∀ line, state.peers.lookup peer = some line → pid = peer →
  line.tasks.keepsSlot action = true)

include keeps

theorem Unfilled.turn (turned : state.turn deps window pid action = some next) :
    next.Unfilled peer := by
  revert turned
  fun_cases PoolLocks.turn
  · rintro ⟨⟩
  · rename_i line found
    intro turned
    obtain ⟨after, stepped, rfl⟩ := Option.map_eq_some_iff.mp turned
    refine unfilled.setLine fun same => ?_
    subst same
    exact (PeerTasks.roomy_step (keeps line found rfl) (unfilled.line line found)
      (PeerLine.step_eq_some stepped))

theorem Unfilled.sendTo {protoId : ProtocolID} {msg : Bytes} (sends : action = .send protoId msg)
    (sent : state.sendTo deps pid protoId msg = some next) : next.Unfilled peer := by
  subst sends
  revert sent
  fun_cases PoolLocks.sendTo
  all_goals rintro ⟨⟩
  next => exact unfilled
  next line found wire pushed =>
    have stepped : line.tasks.step deps (.send protoId msg) = some { line.tasks with wire } := by
      simp only [PeerTasks.step, pushed]
    refine unfilled.setLine fun same => ?_
    subst same
    exact PeerTasks.roomy_step (keeps line found rfl) (unfilled.line line found) stepped

end

theorem Unfilled.advance (keeps : state.keepsSlot peer (.advance task) = true)
    (advanced : state.advance deps window task = some next) : next.Unfilled peer := by
  have others : (state.setTask task .finished).Unfilled peer := unfilled.setOther task nofun
  unfold PoolLocks.advance at advanced
  split at advanced
  case h_1 =>
    split at advanced <;> cases advanced <;> exact unfilled.setOther task nofun
  case h_2 pid queued negotiated found =>
    split at advanced
    · rename_i wire built
      cases advanced
      refine unfilled.setTask fun other itsWire same => ?_
      cases same
      exact .fromQueued built
    · cases advanced
      exact others
  case h_3 pid wire found =>
    obtain ⟨_, ⟨⟩⟩ := Option.ite_none_right_eq_some.mp advanced
    refine others.setLine fun _ => ?_
    exact unfilled.inserting pid wire (List.mem_of_getElem? found)
  case h_4 pid found =>
    obtain ⟨_, ⟨⟩⟩ := Option.ite_none_right_eq_some.mp advanced
    refine ⟨fun line itsFound => ?_, others.inserting⟩
    exact unfilled.line line (HashMap.lookup_erase_eq_some.mp itsFound).2
  case h_5 call found =>
    cases advanced
    exact unfilled.setOther task (begin_ne_inserting call)
  case h_6 protoId msg pid targets found =>
    obtain ⟨after, sent, rfl⟩ := Option.map_eq_some_iff.mp advanced
    refine (unfilled.sendTo (fun line itsFound same => ?_) rfl sent).setOther task nofun
    simp only [PoolLocks.keepsSlot, itsFound, found] at keeps
    exact keeps_of_eq keeps same
  case h_9 pid targets call found =>
    split at advanced
    · cases advanced
    · obtain ⟨after, turned, rfl⟩ := Option.map_eq_some_iff.mp advanced
      exact (unfilled.turn (fun _ _ _ => rfl) turned).setOther task nofun
    · split at advanced
      · cases advanced
        exact unfilled.setOther task nofun
      · refine unfilled.turn (fun line itsFound same => ?_) advanced
        simp only [PoolLocks.keepsSlot, itsFound, found] at keeps
        exact keeps_of_eq keeps same
  case h_7 | h_8 | h_10 =>
    cases advanced
    exact unfilled.setOther task nofun
  case h_11 | h_12 => cases advanced

theorem Unfilled.step {action : LockAction} (keeps : state.keepsSlot peer action = true)
    (taken : state.step deps window action = some next) : next.Unfilled peer := by
  revert taken
  fun_cases PoolLocks.step
  all_goals try rintro ⟨⟩
  iterate 4
    next => exact unfilled.addTask nofun
  next => exact unfilled.advance keeps
  next =>
    refine unfilled.turn fun line found same => ?_
    simp only [PoolLocks.keepsSlot, found] at keeps
    exact keeps_of_eq keeps same
  next =>
    fun_cases PoolLocks.read <;> rintro ⟨⟩
    rename_i line found _ _
    exact unfilled.setLine fun same => unfilled.line line (same ▸ found)

/-- Nobody waits for the writers of a peer whose queues have room. -/
theorem Unfilled.not_waits_writer {party : Party} {stream : StreamKey} :
    ¬ state.Waits deps window party (.consumer peer (.writer stream)) := by
  intro waits
  cases waits with
  | room _ itsLine full | protocol itsLine full =>
    exact (unfilled.line _ itsLine).send_ne_wait _ _ full
  | close _ itsLine _ _ full => exact Nat.not_lt.mpr full (unfilled.line _ itsLine stream)

end

/-- A chain that ends at a remote goes through a party that waits for one of its writers. -/
theorem waits_writer_of_chain {start : Party}
    (chain : Relation.TransGen (state.Waits deps window) start (.remote peer)) :
    ∃ stream, start = .consumer peer (.writer stream) ∨ ∃ party,
      state.Waits deps window party (.consumer peer (.writer stream)) := by
  obtain ⟨last, upTo, waits⟩ := Relation.TransGen.tail'_iff.mp chain
  cases waits with
  | @transport _ stream line found held unread =>
    refine ⟨stream, ?_⟩
    rcases Relation.ReflTransGen.cases_tail upTo with same | ⟨party, -, before⟩
    · exact .inl same.symm
    · exact .inr ⟨party, before⟩

end PoolLocks

/-- If every push into a send queue of a peer leaves a free slot, then no admission, no removal
and no other task of the pool waits, directly or through a chain of held locks and full queues,
for this peer to read. -/
theorem pool_not_blocked_by_peer {peer : PeerID} {history : List Empty} {state : PoolLocks}
    (run : (lockMachine deps window).Run (fun state action => state.keepsSlot peer action = true)
      history state) (task : Nat) :
    ¬ Relation.TransGen (state.Waits deps window) (.task task) (.remote peer) := by
  have unfilled : state.Unfilled peer := by
    refine run.invariant (fun _ state => state.Unfilled peer) ?_ ?_
    · exact ⟨fun _ found => (nomatch found), fun _ _ member => (nomatch member)⟩
    · intro _ _ _ _ _ unfilled keeps taken
      obtain ⟨_, stepped, ⟨⟩⟩ := Option.map_eq_some_iff.mp taken
      exact unfilled.step keeps stepped
  intro chain
  obtain ⟨stream, same | ⟨party, waits⟩⟩ := PoolLocks.waits_writer_of_chain chain
  · cases same
  · exact unfilled.not_waits_writer waits

/-- The send waits for room in its queue. -/
def Wire.sendWaits (deps : PeerDeps) (wire : Wire) (protoId : ProtocolID) (msg : Bytes) : Bool :=
  match wire.send deps.wire protoId msg with
  | .ok none => true
  | _ => false

/-- The first task waits for the lock that the second one has, which waits for room in a queue of
the peer, whose writer waits for the transport. -/
def PoolLocks.blocked (deps : PeerDeps) (window : Nat) (state : PoolLocks) (peer : PeerID)
    (task holder : Nat) : Bool :=
  match state.tasks[task]?, state.tasks[holder]?, state.peers.lookup peer with
  | some waiting, some (.sending protoId msg (pid :: _)), some line =>
    let stream := line.tasks.wire.streamOf protoId
    waiting.locking && decide (pid = peer) && line.tasks.wire.sendWaits deps protoId msg &&
      line.tasks.writing.contains stream && decide (window ≤ (line.unread.lookup stream).getD 0)
  | _, _, _ => false

/-- Such a task waits for the remote of the peer to read. -/
theorem PoolLocks.chain_of_blocked {state : PoolLocks} {peer : PeerID} {task holder : Nat}
    (blocked : state.blocked deps window peer task holder = true) :
    Relation.TransGen (state.Waits deps window) (.task task) (.remote peer) := by
  unfold PoolLocks.blocked at blocked
  split at blocked
  · rename_i waiting protoId msg pid targets line found held itsLine
    simp only [Bool.and_eq_true, decide_eq_true_eq, List.contains_iff_mem] at blocked
    obtain ⟨⟨⟨⟨locking, rfl⟩, full⟩, writing⟩, unread⟩ := blocked
    have waits : line.tasks.wire.send deps.wire protoId msg = .ok none := by
      unfold Wire.sendWaits at full
      split at full
      · assumption
      · cases full
    exact ((Relation.TransGen.single (.lock found locking held rfl)).tail
      (.room held itsLine waits)).tail (.transport itsLine writing unread)
  · cases blocked

/-- The step on the map that a task is about to take. -/
inductive MapStep where
  | insert (pid : PeerID)
  | remove (pid : PeerID)
  deriving DecidableEq

def MapTask.mapStep : MapTask → Option MapStep
  | .inserting pid _ => some (.insert pid)
  | .removing pid => some (.remove pid)
  | _ => none

/-- The remote of the peer reads nothing. -/
def LockAction.leavesUnread (peer : PeerID) : LockAction → Bool
  | .read pid _ => decide (pid ≠ peer)
  | _ => true

/-- Encodings for one message of one protocol. -/
def oneMessageDeps : PeerDeps where
  wire := { protocolMsg := .ofTable [⟨"Chat", [1]⟩], streamInit := .ofTable [⟨"Chat"⟩] }
  shutdownMsg := .ofTable [⟨0⟩]

def stuckPeer : PeerID := ⟨Vector.replicate 32 1⟩
def otherPeer : PeerID := ⟨Vector.replicate 32 2⟩
def newcomer : PeerID := ⟨Vector.replicate 32 3⟩

/-- A connection over a pipe is to be admitted, which takes three steps of its task. -/
def arrives (pid : PeerID) : LockAction :=
  .newPeer pid ⟨.inbound, none⟩ (AList.singleton "Chat" ())

/-- The steps on the map that two tasks are about to take, and whether both are blocked by a
third one. -/
def observedLocks (first second holder : Nat) (reached : List Empty × PoolLocks) :
    Option MapStep × Option MapStep × Bool × Bool :=
  ((reached.2.tasks[first]?).bind MapTask.mapStep, (reached.2.tasks[second]?).bind MapTask.mapStep,
    reached.2.blocked oneMessageDeps 1 stuckPeer first holder,
    reached.2.blocked oneMessageDeps 1 stuckPeer second holder)

/-- A peer gets a message, and then the message with which the pool shuts it down. Neither the
admission of the next peer nor a removal waits for it to read. -/
theorem pool_not_blocked_by_peer_sent_once :
    ∃ history state, (lockMachine oneMessageDeps 1).Run
        (fun state action => state.keepsSlot stuckPeer action = true) history state ∧
      (state.tasks[2]?).bind MapTask.mapStep = some (.insert newcomer) ∧
      (state.tasks[3]?).bind MapTask.mapStep = some (.remove otherPeer) ∧
      ¬ Relation.TransGen (state.Waits oneMessageDeps 1) (.task 2) (.remote stuckPeer) ∧
      ¬ Relation.TransGen (state.Waits oneMessageDeps 1) (.task 3) (.remote stuckPeer) := by
  exact Machine.reach_run (fun history state => observedLocks 2 3 1 (history, state) =
      (some (.insert newcomer), some (.remove otherPeer), false, false))
    [arrives stuckPeer, .advance 0, .advance 0, .advance 0, .peer stuckPeer (.send "Chat" [1]),
      .shutdown, .advance 1, .advance 1, .advance 1,
      arrives newcomer, .advance 2, .advance 2, .remove otherPeer] (by decide +kernel)
    fun _ _ run observed => ⟨congrArg Prod.fst observed,
      congrArg (fun image => image.2.1) observed, pool_not_blocked_by_peer run 2,
      pool_not_blocked_by_peer run 3⟩

/-- A peer reads nothing. Its transport is full, its writer holds a message and its send queue is
full when a broadcast takes the lock and comes to it. The admission of a new peer and the removal
of another peer then wait for the broadcast, and so for the peer to read. -/
theorem pool_waits_for_stuck_peer :
    ∃ history state, (lockMachine oneMessageDeps 1).Run
        (fun _ action => action.leavesUnread stuckPeer = true) history state ∧
      (state.tasks[3]?).bind MapTask.mapStep = some (.insert newcomer) ∧
      (state.tasks[4]?).bind MapTask.mapStep = some (.remove otherPeer) ∧
      Relation.TransGen (state.Waits oneMessageDeps 1) (.task 3) (.remote stuckPeer) ∧
      Relation.TransGen (state.Waits oneMessageDeps 1) (.task 4) (.remote stuckPeer) := by
  exact Machine.reach_run (fun history state => observedLocks 3 4 2 (history, state) =
      (some (.insert newcomer), some (.remove otherPeer), true, true))
    ([arrives stuckPeer, .advance 0, .advance 0, .advance 0,
      arrives otherPeer, .advance 1, .advance 1, .advance 1,
      .peer stuckPeer (.send "Chat" [1]), .peer stuckPeer (.write none),
      .peer stuckPeer (.wrote none true),
      .peer stuckPeer (.send "Chat" [1]), .peer stuckPeer (.write none)] ++
      List.replicate 128 (.peer stuckPeer (.send "Chat" [1])) ++
      [.call (.broadcast "Chat" [1]), .advance 2,
      arrives newcomer, .advance 3, .advance 3, .remove otherPeer]) (by decide +kernel)
    fun _ _ _ observed => ⟨congrArg Prod.fst observed,
      congrArg (fun image => image.2.1) observed,
      PoolLocks.chain_of_blocked (congrArg (fun image => image.2.2.1) observed),
      PoolLocks.chain_of_blocked (congrArg (fun image => image.2.2.2) observed)⟩

end Karyon.P2p
