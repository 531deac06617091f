/-
This file models the shutdown of a peer, `Peer::shutdown` of `p2p/src/peer/mod.rs` with the
`shutdown` of the two wires of `connection.rs`, together with the tasks of the peer.

A shutdown pushes before it cancels: on a pipe the shutdown message into the send queue, then on
both wires the shutdown event into the receive queue of every protocol. Each queue is bounded and
has one consumer, the writer of its stream or the task of its protocol, and others that fill it: the
senders and the reader. A writer ends when a write fails; the task of a protocol may return at any
time.

So a shutdown may wait for room in a queue that nobody empties any more (`peerShutdown_deadlocks`).
It does not when the queues whose consumers have ended keep a free slot, and it does not when the
consumers outlive its pushes (`peerShutdown_no_deadlock`).
-/

import Karyon.P2p.Wire

namespace Karyon.P2p

open Transition

/-! ### A peer and its tasks -/

structure ShutdownMsg where
  code : UInt8
  deriving DecidableEq

structure PeerDeps where
  wire : WireDeps
  shutdownMsg : Bincode ShutdownMsg

/-- The task that empties a queue: the writer of a stream or the task of a protocol. -/
inductive Consumer where
  | writer (stream : StreamKey)
  | protocol (protoId : ProtocolID)
  deriving DecidableEq

def Consumer.capacity : Consumer → Nat
  | .writer _ => SEND_QUEUE_SIZE
  | .protocol _ => RECV_QUEUE_SIZE

/-- The number of messages in the queue of a consumer. -/
def Wire.load (self : Wire) : Consumer → Nat
  | .writer stream => ((self.sendQueue stream).map List.length).getD 0
  | .protocol protoId => ((self.recvQueues.lookup protoId).map List.length).getD 0

/-- Where a call of `shutdown` is: before its push into the send queue, before its pushes into
the receive queues that are left, or past all of them. -/
inductive ClosePhase where
  | sending
  | broadcasting (left : List ProtocolID)
  | finished
  deriving DecidableEq

/-- The wire, the writers that hold a message, the readers and the consumers that have ended, and
the calls of `shutdown`. -/
structure PeerTasks where
  wire : Wire
  writing : List StreamKey
  endedReaders : List StreamKey
  ended : List Consumer
  calls : List ClosePhase

inductive PeerAction where
  | send (protoId : ProtocolID) (payload : Bytes)
  | write (stream : StreamKey)
  | wrote (stream : StreamKey) (succeeds : Bool)
  | read (stream : StreamKey) (msg : PeerNetMsg)
  | readFails (stream : StreamKey)
  | recv (protoId : ProtocolID)
  | protocolReturns (protoId : ProtocolID)
  | shutdown
  | advance (call : Nat)
  | cancel (consumer : Consumer)

namespace PeerTasks

def new (wire : Wire) : PeerTasks :=
  { wire, writing := [], endedReaders := [], ended := [], calls := [] }

variable (deps : PeerDeps) (state : PeerTasks)

def finish (consumer : Consumer) : Option PeerTasks :=
  if consumer ∈ state.ended then none
  else some { state with ended := consumer :: state.ended }

/-- The first thing that `shutdown` of the wire does. A QUIC connection is closed at once. -/
def closePhase : ClosePhase :=
  match state.wire with
  | .single _ => .sending
  | .mux connection => .broadcasting connection.recvQueues.keys

/-- A call of `shutdown` goes on, if there is room for what it pushes. -/
def advance (call : Nat) : Option PeerTasks :=
  match state.calls[call]? with
  | some .sending =>
    match PeerNetMsg.new deps.shutdownMsg .shutdown ⟨0⟩, state.wire.sendQueue none with
    | .error _, _ => some { state with calls := state.calls.set call .finished }
    | .ok msg, some queue =>
      (pushQueue SEND_QUEUE_SIZE queue msg).map fun queue =>
        { state with
          wire := state.wire.withSendQueue none queue
          calls := state.calls.set call (.broadcasting state.wire.recvQueues.keys) }
    | .ok _, none => none
  | some (.broadcasting (protoId :: left)) =>
    match state.wire.recvQueues.lookup protoId with
    | some queue =>
      (pushQueue RECV_QUEUE_SIZE queue .shutdown).map fun queue =>
        { state with
          wire := state.wire.withRecvQueues (state.wire.recvQueues.insert protoId queue)
          calls := state.calls.set call (.broadcasting left) }
    | none => none
  | some (.broadcasting []) => some { state with calls := state.calls.set call .finished }
  | _ => none

def step : PeerAction → Option PeerTasks
  | .send protoId payload =>
    match state.wire.send deps.wire protoId payload with
    | .ok (some wire) => some { state with wire }
    | _ => none
  | .write stream =>
    if .writer stream ∈ state.ended ∨ state.writing.contains stream then none
    else (state.wire.write stream).map fun written =>
      { state with wire := written.2, writing := stream :: state.writing }
  | .wrote stream succeeds =>
    if state.writing.contains stream then
      let state := { state with writing := state.writing.erase stream }
      if succeeds then some state else state.finish (.writer stream)
    else none
  | .read stream msg =>
    if state.endedReaders.contains stream then none
    else
      match state.wire.read deps.wire stream msg with
      | some (.ok (some wire)) => some { state with wire }
      | some (.error _) => some { state with endedReaders := stream :: state.endedReaders }
      | _ => none
  | .readFails stream => some { state with endedReaders := stream :: state.endedReaders }
  | .recv protoId =>
    if .protocol protoId ∈ state.ended then none
    else
      match state.wire.recv protoId with
      | .ok (some (_, wire)) => some { state with wire }
      | _ => none
  | .protocolReturns protoId => state.finish (.protocol protoId)
  | .shutdown => some { state with calls := state.calls ++ [state.closePhase] }
  | .advance call => state.advance deps call
  | .cancel consumer =>
    if .finished ∈ state.calls then state.finish consumer else none

end PeerTasks

/-- A peer on a wire, with its tasks and the calls of `shutdown` as its steps. -/
def peerMachine (deps : PeerDeps) (wire : Wire) : Machine PeerTasks PeerAction Empty where
  start := .new wire
  step state action := (state.step deps action).map (·, [])

/-! ### Waiting for room -/

/-- Something is pushed into one of the queues. -/
def PeerAction.pushes : PeerAction → Bool
  | .send _ _ | .read _ _ | .advance _ => true
  | _ => false

/-- The consumer that ends. -/
def PeerAction.ends : PeerAction → Option Consumer
  | .wrote stream false => some (.writer stream)
  | .protocolReturns protoId => some (.protocol protoId)
  | .cancel consumer => some consumer
  | _ => none

def PeerAction.calls : PeerAction → Bool
  | .shutdown => true
  | _ => false

/-- The consumer of the queue into which a call of `shutdown` pushes next. -/
def ClosePhase.waitsFor : ClosePhase → Option Consumer
  | .sending => some (.writer none)
  | .broadcasting (protoId :: _) => some (.protocol protoId)
  | .broadcasting [] => none
  | .finished => none

/-- A call of `shutdown` has pushed what it pushes into the queue of a consumer. The send queues
of a QUIC connection get nothing. -/
def ClosePhase.passed : ClosePhase → Consumer → Bool
  | _, .writer (some _) => true
  | .sending, _ => false
  | .broadcasting left, .protocol protoId => protoId ∉ left
  | .broadcasting _, .writer none => true
  | .finished, _ => true

namespace PeerTasks

variable (state : PeerTasks)

/-- A call of `shutdown` waits for room in a queue whose consumer has ended. -/
def Deadlocked : Prop :=
  ∃ phase ∈ state.calls, ∃ consumer ∈ state.ended, phase.waitsFor = some consumer ∧
    consumer.capacity ≤ state.wire.load consumer

/-- The queue of the consumer has that many free slots. -/
def spare (slots : Nat) (consumer : Consumer) : Bool :=
  state.wire.load consumer + slots ≤ consumer.capacity

/-- The queues whose consumers have ended keep a free slot: a consumer ends only if its queue has
one, and nothing is pushed unless each of these queues has two. -/
def keepsRoom (action : PeerAction) : Bool :=
  (!action.pushes || state.ended.all (state.spare 2)) && action.ends.all (state.spare 1)

/-- Every call of `shutdown` is past the queue of the consumer. -/
def passed (consumer : Consumer) : Bool :=
  state.calls.all fun phase => phase.passed consumer

/-- The shutdown is called while the consumers of the queues into which it pushes run, and every
consumer outlives the pushes of the calls under way. -/
def outlives (action : PeerAction) : Bool :=
  (!action.calls || state.ended.all ClosePhase.sending.passed) && action.ends.all state.passed

end PeerTasks

/-! ### What one step can do -/

namespace Wire

variable {self : Wire}

theorem load_withSendQueue {stream : StreamKey} {queue : SendQueue}
    (found : self.sendQueue stream = some queue) (next : SendQueue) (consumer : Consumer) :
    (self.withSendQueue stream next).load consumer =
      if consumer = .writer stream then next.length else self.load consumer := by
  cases consumer with
  | writer other =>
    rw [load, sendQueue_withSendQueue found]
    by_cases same : other = stream
    · rw [if_pos same, if_pos (congrArg _ same)]
      rfl
    · rw [if_neg same, if_neg fun equal => same (Consumer.writer.inj equal)]
      rfl
  | protocol protoId =>
    have queues : (self.withSendQueue stream next).recvQueues = self.recvQueues := by
      cases self <;> cases stream <;> rfl
    rw [load, queues, if_neg nofun]
    rfl

theorem load_insert (self : Wire) (name : ProtocolID) (queue : List ProtocolEvent)
    (consumer : Consumer) :
    (self.withRecvQueues (self.recvQueues.insert name queue)).load consumer =
      if consumer = .protocol name then queue.length else self.load consumer := by
  cases consumer with
  | writer stream =>
    have queues : (self.withRecvQueues (self.recvQueues.insert name queue)).sendQueue stream =
        self.sendQueue stream := by
      cases self <;> cases stream <;> rfl
    rw [load, queues, if_neg nofun]
    rfl
  | protocol protoId =>
    rw [load, recvQueues_withRecvQueues]
    by_cases same : protoId = name
    · rw [same, AList.lookup_insert, if_pos rfl]
      rfl
    · rw [AList.lookup_insert_ne same, if_neg fun equal => same (Consumer.protocol.inj equal)]
      rfl

/-- A queue that is replaced by one with at most as many messages more. -/
theorem load_withSendQueue_le {stream : StreamKey} {queue next : SendQueue} {more : Nat}
    (found : self.sendQueue stream = some queue) (length : next.length ≤ queue.length + more)
    (consumer : Consumer) :
    (self.withSendQueue stream next).load consumer ≤ self.load consumer + more := by
  rw [load_withSendQueue found]
  split
  · rename_i same
    rw [same, load, found]
    exact length
  · exact Nat.le_add_right _ _

theorem load_insert_le {name : ProtocolID} {queue next : List ProtocolEvent} {more : Nat}
    (found : self.recvQueues.lookup name = some queue) (length : next.length ≤ queue.length + more)
    (consumer : Consumer) :
    (self.withRecvQueues (self.recvQueues.insert name next)).load consumer ≤
      self.load consumer + more := by
  rw [load_insert]
  split
  · rename_i same
    rw [same, load, found]
    exact length
  · exact Nat.le_add_right _ _

theorem length_of_pushQueue {Item : Type} {capacity : Nat} {queue next : List Item} {item : Item}
    (pushed : pushQueue capacity queue item = some next) : next.length ≤ queue.length + 1 := by
  rw [(pushQueue_eq_some.mp pushed).2, List.length_append, List.length_singleton]

end Wire

variable {consumer : Consumer}

section

variable {action : PeerAction} (ends : action.ends = some consumer)

include ends

theorem PeerAction.pushes_of_ends : action.pushes = false := by
  cases action with
  | send | read | advance => cases ends
  | _ => rfl

theorem PeerAction.calls_of_ends : action.calls = false := by
  cases action with
  | shutdown => cases ends
  | _ => rfl

end

/-- What a call is past before its first push, it is always past. -/
theorem ClosePhase.passed_of_sending {phase : ClosePhase}
    (passed : ClosePhase.sending.passed consumer = true) : phase.passed consumer = true := by
  cases consumer with
  | writer stream =>
    cases stream with
    | none => cases passed
    | some protoId => cases phase <;> rfl
  | protocol protoId => cases passed

/-- A call is not past the queue into which it pushes next. -/
theorem ClosePhase.not_passed_of_waitsFor {phase : ClosePhase}
    (waits : phase.waitsFor = some consumer) : phase.passed consumer = false := by
  cases phase with
  | sending =>
    cases waits
    rfl
  | broadcasting left =>
    cases left with
    | nil => cases waits
    | cons protoId left =>
      cases waits
      exact decide_eq_false fun absent => absent List.mem_cons_self
  | finished => cases waits

namespace PeerTasks

variable {deps : PeerDeps}

/-- The calls of `shutdown` after a step: as before, with a new call, or with one that has gone
on and is past every queue that it was past. -/
inductive CallsStep (state : PeerTasks) (action : PeerAction) : List ClosePhase → Prop
  | same : CallsStep state action state.calls
  | called (calls : action.calls = true) :
      CallsStep state action (state.calls ++ [state.closePhase])
  | goes {call : Nat} {before after : ClosePhase} (found : state.calls[call]? = some before)
      (further : ∀ consumer, before.passed consumer = true → after.passed consumer = true) :
      CallsStep state action (state.calls.set call after)

/-- What a step does: it fills a queue by at most what it pushes, ends at most the consumer that
it ends, and moves the calls of `shutdown`. -/
structure Effect (state : PeerTasks) (action : PeerAction) (next : PeerTasks) : Prop where
  load : ∀ consumer, next.wire.load consumer ≤
    state.wire.load consumer + if action.pushes then 1 else 0
  ended : next.ended = state.ended ∨
    ∃ consumer, action.ends = some consumer ∧ next.ended = consumer :: state.ended
  calls : CallsStep state action next.calls

/-- What a step does to the wire, the tasks and the calls, case by case. -/
inductive Steps (deps : PeerDeps) (state : PeerTasks) : PeerAction → PeerTasks → Prop
  | sends {protoId : ProtocolID} {payload : Bytes} {netMsg : PeerNetMsg} {queue later : SendQueue}
      (built : PeerNetMsg.new deps.wire.protocolMsg .protocol ⟨protoId, payload⟩ = .ok netMsg)
      (found : state.wire.sendQueue (state.wire.streamOf protoId) = some queue)
      (pushed : pushQueue SEND_QUEUE_SIZE queue netMsg = some later) :
      Steps deps state (.send protoId payload)
        { state with wire := state.wire.withSendQueue (state.wire.streamOf protoId) later }
  | writes {stream : StreamKey} {msg : PeerNetMsg} {rest : SendQueue}
      (found : state.wire.sendQueue stream = some (msg :: rest)) :
      Steps deps state (.write stream)
        { state with
          wire := state.wire.withSendQueue stream rest
          writing := stream :: state.writing }
  | wrote {stream : StreamKey} :
      Steps deps state (.wrote stream true)
        { state with writing := state.writing.erase stream }
  | reads {stream : StreamKey} {msg : PeerNetMsg} {name : ProtocolID}
      {queue : List ProtocolEvent} {payload : Bytes}
      (found : state.wire.recvQueues.lookup name = some queue) :
      Steps deps state (.read stream msg)
        { state with
          wire := state.wire.withRecvQueues
            (state.wire.recvQueues.insert name (queue ++ [.message payload])) }
  | readStops {stream : StreamKey} {msg : PeerNetMsg} :
      Steps deps state (.read stream msg)
        { state with endedReaders := stream :: state.endedReaders }
  | readFails {stream : StreamKey} :
      Steps deps state (.readFails stream)
        { state with endedReaders := stream :: state.endedReaders }
  | receives {protoId : ProtocolID} {event : ProtocolEvent} {rest : List ProtocolEvent}
      (found : state.wire.recvQueues.lookup protoId = some (event :: rest)) :
      Steps deps state (.recv protoId)
        { state with
          wire := state.wire.withRecvQueues (state.wire.recvQueues.insert protoId rest) }
  | ends {action : PeerAction} {consumer : Consumer} {writing : List StreamKey}
      (ends : action.ends = some consumer)
      (cancelled : action = .cancel consumer → .finished ∈ state.calls) :
      Steps deps state action { state with writing, ended := consumer :: state.ended }
  | calls : Steps deps state .shutdown { state with calls := state.calls ++ [state.closePhase] }
  | closePushes {call : Nat} {msg : PeerNetMsg} {queue later : SendQueue}
      (going : state.calls[call]? = some .sending)
      (built : PeerNetMsg.new deps.shutdownMsg .shutdown ⟨0⟩ = .ok msg)
      (found : state.wire.sendQueue none = some queue)
      (pushed : pushQueue SEND_QUEUE_SIZE queue msg = some later) :
      Steps deps state (.advance call)
        { state with
          wire := state.wire.withSendQueue none later
          calls := state.calls.set call (.broadcasting state.wire.recvQueues.keys) }
  | closeNotifies {call : Nat} {protoId : ProtocolID} {left : List ProtocolID}
      {queue later : List ProtocolEvent}
      (going : state.calls[call]? = some (.broadcasting (protoId :: left)))
      (found : state.wire.recvQueues.lookup protoId = some queue)
      (pushed : pushQueue RECV_QUEUE_SIZE queue .shutdown = some later) :
      Steps deps state (.advance call)
        { state with
          wire := state.wire.withRecvQueues (state.wire.recvQueues.insert protoId later)
          calls := state.calls.set call (.broadcasting left) }
  | closeEnds {call : Nat} {before : ClosePhase} (going : state.calls[call]? = some before) :
      Steps deps state (.advance call)
        { state with calls := state.calls.set call .finished }

variable {state : PeerTasks} {action : PeerAction} {next : PeerTasks}

theorem steps_of_finish {writing : List StreamKey} (ends : action.ends = some consumer)
    (cancelled : action = .cancel consumer → .finished ∈ state.calls)
    (finished : finish { state with writing } consumer = some next) :
    Steps deps state action next := by
  revert finished
  fun_cases finish <;> rintro ⟨⟩
  exact .ends ends cancelled

theorem steps_of_advance {call : Nat} (advanced : state.advance deps call = some next) :
    Steps deps state (.advance call) next := by
  revert advanced
  fun_cases advance
  all_goals try rintro ⟨⟩
  next going _ _ => exact .closeEnds going
  next going _ _ found built =>
    intro advanced
    obtain ⟨later, pushed, rfl⟩ := Option.map_eq_some_iff.mp advanced
    exact .closePushes going built found pushed
  next going _ found =>
    intro advanced
    obtain ⟨later, pushed, rfl⟩ := Option.map_eq_some_iff.mp advanced
    exact .closeNotifies going found pushed
  next going => exact .closeEnds going

theorem steps_of_step (stepped : state.step deps action = some next) :
    Steps deps state action next := by
  cases action with
  | send protoId payload =>
    simp only [step] at stepped
    split at stepped
    · rename_i wire sent
      cases stepped
      obtain ⟨netMsg, queue, built, found, pushes⟩ := Wire.send_cases sent
      obtain ⟨later, pushed, rfl⟩ := Option.map_eq_some_iff.mp pushes.symm
      exact .sends built found pushed
    · cases stepped
  | write stream =>
    obtain ⟨_, stepped⟩ := Option.ite_none_left_eq_some.mp stepped
    obtain ⟨⟨msg, wire⟩, written, rfl⟩ := Option.map_eq_some_iff.mp stepped
    obtain ⟨rest, found, rfl⟩ := Wire.write_eq_some written
    exact .writes found
  | wrote stream succeeds =>
    obtain ⟨_, stepped⟩ := Option.ite_none_right_eq_some.mp stepped
    cases succeeds with
    | true =>
      cases stepped
      exact .wrote
    | false => exact steps_of_finish rfl (by rintro ⟨⟩) stepped
  | read stream msg =>
    obtain ⟨_, stepped⟩ := Option.ite_none_left_eq_some.mp stepped
    split at stepped
    · rename_i wire read
      cases stepped
      obtain ⟨name, queue, payload, _, found, rfl⟩ := Wire.read_eq_ok read
      exact .reads found
    · cases stepped
      exact .readStops
    · cases stepped
  | readFails stream =>
    cases stepped
    exact .readFails
  | recv protoId =>
    obtain ⟨_, stepped⟩ := Option.ite_none_left_eq_some.mp stepped
    split at stepped
    · rename_i event wire received
      cases stepped
      obtain ⟨rest, found, rfl⟩ := Wire.recv_eq_ok received
      exact .receives found
    · cases stepped
  | protocolReturns protoId => exact steps_of_finish rfl (by rintro ⟨⟩) stepped
  | shutdown =>
    cases stepped
    exact .calls
  | advance call => exact steps_of_advance stepped
  | cancel consumer =>
    obtain ⟨finished, stepped⟩ := Option.ite_none_right_eq_some.mp stepped
    exact steps_of_finish rfl (fun _ => finished) stepped

theorem step_effect (stepped : state.step deps action = some next) :
    Effect state action next := by
  cases steps_of_step stepped with
  | sends _ found pushed =>
    exact ⟨Wire.load_withSendQueue_le found (Wire.length_of_pushQueue pushed), Or.inl rfl, .same⟩
  | writes found =>
    exact ⟨Wire.load_withSendQueue_le found (Nat.le_succ _), Or.inl rfl, .same⟩
  | reads found =>
    refine ⟨Wire.load_insert_le found ?_, Or.inl rfl, .same⟩
    rw [List.length_append, List.length_singleton]
    rfl
  | receives found => exact ⟨Wire.load_insert_le found (Nat.le_succ _), Or.inl rfl, .same⟩
  | wrote | readStops | readFails => exact ⟨fun _ => Nat.le_add_right _ _, Or.inl rfl, .same⟩
  | ends ends _ => exact ⟨fun _ => Nat.le_add_right _ _, Or.inr ⟨_, ends, rfl⟩, .same⟩
  | calls => exact ⟨fun _ => Nat.le_add_right _ _, Or.inl rfl, .called rfl⟩
  | closePushes going _ found pushed =>
    exact ⟨Wire.load_withSendQueue_le found (Wire.length_of_pushQueue pushed), Or.inl rfl,
      .goes going fun consumer passed => ClosePhase.passed_of_sending passed⟩
  | closeNotifies going found pushed =>
    refine ⟨Wire.load_insert_le found (Wire.length_of_pushQueue pushed), Or.inl rfl,
      .goes going fun consumer passed => ?_⟩
    cases consumer with
    | writer stream => cases stream <;> rfl
    | protocol name =>
      refine decide_eq_true fun member => of_decide_eq_true passed ?_
      exact List.mem_cons_of_mem _ member
  | closeEnds going =>
    refine ⟨fun _ => Nat.le_add_right _ _, Or.inl rfl, .goes going fun consumer _ => ?_⟩
    cases consumer with
    | writer stream => cases stream <;> rfl
    | protocol name => rfl

/-! ### Two ways out -/

/-- The queues whose consumers have ended have a free slot. -/
def Roomy (state : PeerTasks) : Prop :=
  ∀ consumer ∈ state.ended, state.wire.load consumer < consumer.capacity

theorem Effect.roomy (effect : Effect state action next) (keeps : state.keepsRoom action = true)
    (roomy : Roomy state) : Roomy next := by
  obtain ⟨pushed, ends⟩ := Bool.and_eq_true_iff.mp keeps
  have stays (consumer : Consumer) (member : consumer ∈ state.ended) :
      next.wire.load consumer < consumer.capacity := by
    have load := effect.load consumer
    cases pushes : action.pushes with
    | false =>
      rw [pushes] at load
      exact Nat.lt_of_le_of_lt load (roomy consumer member)
    | true =>
      rw [pushes, Bool.not_true, Bool.false_or] at pushed
      have spare := of_decide_eq_true (List.all_eq_true.mp pushed consumer member)
      rw [pushes, if_pos rfl] at load
      omega
  intro consumer member
  rcases effect.ended with same | ⟨finished, its, more⟩
  · exact stays consumer (same ▸ member)
  · rw [more] at member
    rcases List.mem_cons.mp member with rfl | before
    · have load := effect.load consumer
      rw [PeerAction.pushes_of_ends its] at load
      rw [its] at ends
      exact Nat.lt_of_le_of_lt load (of_decide_eq_true ends)
    · exact stays consumer before

theorem Roomy.not_deadlocked (roomy : Roomy state) : ¬ state.Deadlocked := by
  intro ⟨phase, _, consumer, member, _, full⟩
  exact Nat.not_lt.mpr full (roomy consumer member)

/-- Every call of `shutdown` is past the queues of the consumers that have ended. -/
def Outlived (state : PeerTasks) : Prop :=
  ∀ consumer ∈ state.ended, state.passed consumer = true

theorem CallsStep.passed (calls : CallsStep state action next.calls)
    (before : state.passed consumer = true)
    (early : action.calls = true → ClosePhase.sending.passed consumer = true) :
    next.passed consumer = true := by
  have passed := List.all_eq_true.mp before
  refine List.all_eq_true.mpr fun phase member => ?_
  generalize next.calls = after at calls member
  cases calls with
  | same => exact passed phase member
  | called its =>
    rcases mem_concat.mp member with older | rfl
    · exact passed phase older
    · exact ClosePhase.passed_of_sending (early its)
  | goes found further =>
    rcases List.mem_or_eq_of_mem_set member with other | rfl
    · exact passed phase other
    · exact further consumer (passed _ (List.mem_of_getElem? found))

theorem Effect.outlived (effect : Effect state action next)
    (outlives : state.outlives action = true) (outlived : Outlived state) : Outlived next := by
  obtain ⟨called, ends⟩ := Bool.and_eq_true_iff.mp outlives
  intro consumer member
  rcases effect.ended with same | ⟨finished, its, more⟩
  · rw [same] at member
    refine effect.calls.passed (outlived consumer member) fun calls => ?_
    rw [calls, Bool.not_true, Bool.false_or] at called
    exact List.all_eq_true.mp called consumer member
  · rw [more] at member
    refine effect.calls.passed ?_ fun calls => ?_
    · rcases List.mem_cons.mp member with rfl | before
      · rw [its] at ends
        exact ends
      · exact outlived consumer before
    · rw [PeerAction.calls_of_ends its] at calls
      cases calls

theorem Outlived.not_deadlocked (outlived : Outlived state) :
    ¬ state.Deadlocked := by
  intro ⟨phase, call, consumer, member, waits, _⟩
  have passed := List.all_eq_true.mp (outlived consumer member) phase call
  rw [ClosePhase.not_passed_of_waitsFor waits] at passed
  cases passed

end PeerTasks

/-- No shutdown waits for room in a queue whose consumer has ended, if the consumers outlive the
pushes of the shutdowns, and also if the queues whose consumers have ended keep a free slot. -/
theorem peerShutdown_no_deadlock {deps : PeerDeps} {wire : Wire} {history : List Empty}
    {state : PeerTasks}
    (run : (peerMachine deps wire).Run (fun state action => state.outlives action = true)
        history state ∨
      (peerMachine deps wire).Run (fun state action => state.keepsRoom action = true)
        history state) :
    ¬ state.Deadlocked := by
  rcases run with outlives | keeps
  · refine PeerTasks.Outlived.not_deadlocked ?_
    refine outlives.invariant (fun _ state => state.Outlived) nofun ?_
    intro _ _ _ _ _ outlived allowed step
    obtain ⟨_, stepped, ⟨⟩⟩ := Option.map_eq_some_iff.mp step
    exact (PeerTasks.step_effect stepped).outlived allowed outlived
  · refine PeerTasks.Roomy.not_deadlocked ?_
    refine keeps.invariant (fun _ state => state.Roomy) nofun ?_
    intro _ _ _ _ _ roomy allowed step
    obtain ⟨_, stepped, ⟨⟩⟩ := Option.map_eq_some_iff.mp step
    exact (PeerTasks.step_effect stepped).roomy allowed roomy

instance (state : PeerTasks) : Decidable state.Deadlocked :=
  inferInstanceAs (Decidable (∃ phase ∈ state.calls, ∃ consumer ∈ state.ended, _ ∧ _))

def chatDeps : PeerDeps where
  wire := { protocolMsg := .ofTable [⟨"Chat", [1]⟩], streamInit := .ofTable [⟨"Chat"⟩] }
  shutdownMsg := .ofTable [⟨0⟩]

/-- Encodings of the messages of a peer with one protocol, for payloads of any size. -/
def plainDeps : PeerDeps where
  wire :=
    { protocolMsg :=
        { encode := fun msg =>
            if msg.protocolId = "Chat" then .ok msg.payload
            else .error (.bincodeEncode "unknown protocol")
          decode := fun bytes => .ok (⟨"Chat", bytes⟩, bytes.length) }
      streamInit := .ofTable [⟨"Chat"⟩] }
  shutdownMsg := .ofTable [⟨0⟩]

def chatPipe : Wire :=
  .single (.fromQueued (AList.singleton "Chat" ()))

/-- The calls of `shutdown`, the consumers that have ended, and whether there is a deadlock. -/
def observedPeer (reached : List Empty × PeerTasks) : List ClosePhase × List Consumer × Bool :=
  (reached.2.calls, reached.2.ended, decide reached.2.Deadlocked)

/-- A shutdown goes through all its pushes, and the tasks are cancelled after it. -/
theorem peerShutdown_no_deadlock_chat :
    ∃ history state, (peerMachine chatDeps chatPipe).Run
        (fun state action => state.outlives action = true) history state ∧
      state.calls = [.finished] ∧ state.ended = [.protocol "Chat", .writer none] ∧
      ¬ state.Deadlocked := by
  exact Machine.reach_run (fun history state => observedPeer (history, state) =
      ([.finished], [.protocol "Chat", .writer none], false))
    [.shutdown, .advance 0, .advance 0, .advance 0, .cancel (.writer none),
      .cancel (.protocol "Chat")] (by decide +kernel)
    fun _ _ run observed => ⟨congrArg Prod.fst observed,
      congrArg (fun image => image.2.1) observed, peerShutdown_no_deadlock (Or.inl run)⟩

/-- The task of a protocol returns and the remote fills its receive queue, or a write fails with
the send queue full: a shutdown then waits for a task that has ended. -/
theorem peerShutdown_deadlocks :
    (∃ history state, (peerMachine chatDeps chatPipe).Run (fun _ _ => True) history state ∧
      state.calls = [.broadcasting ["Chat"]] ∧ state.ended = [.protocol "Chat"] ∧
      state.Deadlocked) ∧
    ∃ history state, (peerMachine chatDeps chatPipe).Run (fun _ _ => True) history state ∧
      state.calls = [.sending] ∧ state.ended = [.writer none] ∧ state.Deadlocked := by
  constructor
  · exact Machine.trace_holds (.protocolReturns "Chat" ::
        List.replicate 128 (.read none ⟨⟨.protocol⟩, []⟩) ++ [.shutdown, .advance 0])
      (by decide +kernel)
  · exact Machine.trace_holds (.send "Chat" [1] :: .write none ::
        List.replicate 128 (.send "Chat" [1]) ++ [.wrote none false, .shutdown])
      (by decide +kernel)

end Karyon.P2p
