/-
This file models how a peer is stopped: the stop channel of `p2p/src/peer/mod.rs` with
the tasks of `connection.rs` that put a reason into it.

A reader, the task of a protocol and `Peer::shutdown` leave a reason when they end; the
writer of a stream does not. It ends when a message cannot be encoded, which a message
over the size limit of the codec cannot, or when the transport fails. What is pushed
into its queue afterwards is accepted and never sent (`writer_ends_silently`). The peer
is stopped whenever a writer has ended if all messages are within the limit and the
transport fails for a writer only after it has failed for the reader of the stream
(`writer_end_stops_peer`).
-/

import Karyon.P2p.NetCodec
import Karyon.P2p.PeerLink
import Karyon.P2p.PeerShutdown

namespace Karyon.P2p

open Transition

/-! ### A peer with its stop channel -/

/-- The task that put a reason into the stop channel. -/
inductive StopReason where
  | reader (stream : StreamKey)
  | protocol (protoId : ProtocolID)
  | shutdown

/-- The tasks of a peer with the messages that the writers send, the stop channel, whether a
reason has been put into it, and whether the peer is in the pool. -/
structure PeerStop where
  tasks : PeerTasks
  sending : HashMap StreamKey PeerNetMsg
  stopChannel : Option StopReason
  stopped : Bool
  inPool : Bool

/-- What can happen next: a task takes a turn, the transport succeeds or fails for the message
that a writer sends, or `Peer::run` takes the reason and the peer leaves the pool. -/
inductive StopAction where
  | task (action : PeerAction)
  | sent (stream : StreamKey) (transport : Bool)
  | leave

/-- The message that an action puts into a send queue. -/
def PeerAction.puts (deps : PeerDeps) : PeerAction → Option PeerNetMsg
  | .send protoId payload =>
    (PeerNetMsg.new deps.wire.protocolMsg .protocol ⟨protoId, payload⟩).toOption
  | .advance _ => (PeerNetMsg.new deps.shutdownMsg .shutdown ⟨0⟩).toOption
  | _ => none

namespace PeerStop

def new (wire : Wire) : PeerStop where
  tasks := .new wire
  sending := ∅
  stopChannel := none
  stopped := false
  inPool := true

/-- The reason that a turn leaves. A reader leaves one on every way out of its loop, a protocol
when its task returns, and `Peer::shutdown` after the shutdown of the wire. -/
def reason (after : PeerTasks) : PeerAction → Option StopReason
  | .read stream _ => if after.endedReaders.contains stream then some (.reader stream) else none
  | .readFails stream => some (.reader stream)
  | .protocolReturns protoId => some (.protocol protoId)
  | .advance call => if after.calls[call]? = some .finished then some .shutdown else none
  | _ => none

variable (deps : PeerDeps) (codec : PeerNetMsgCodec) (state : PeerStop)

/-- Try to put a reason into the channel, which has room for one. -/
def trySend (reason : Option StopReason) : PeerStop :=
  { state with
    stopChannel := state.stopChannel.or reason
    stopped := state.stopped || reason.isSome }

/-- A task takes a turn. A writer keeps the message that it takes out of its queue. -/
def turn (action : PeerAction) : Option PeerStop :=
  match state.tasks.step deps action with
  | none => none
  | some tasks =>
    match action with
    | .write stream =>
      (state.tasks.wire.write stream).map fun written =>
        { state with tasks, sending := state.sending.insert stream written.1 }
    | .wrote _ _ => none
    | action => some ({ state with tasks }.trySend (reason tasks action))

def step : StopAction → Option PeerStop
  | .task action => state.turn deps action
  | .sent stream transport =>
    match state.sending.lookup stream with
    | none => none
    | some msg =>
      let succeeds := (codec.encode msg []).toBool && transport
      (state.tasks.step deps (.wrote stream succeeds)).map fun tasks =>
        { state with tasks, sending := state.sending.erase stream }
  | .leave =>
    match state.stopChannel with
    | some _ => some { state with stopChannel := none, inPool := false }
    | none => none

/-- What is put into a send queue is within the limit of the codec, and the transport fails for
the writer of a stream only when the reader of the stream has ended. -/
def withinLimits : StopAction → Bool
  | .task action => (action.puts deps).all codec.fits
  | .sent stream false => state.tasks.endedReaders.contains stream
  | _ => true

end PeerStop

def stopMachine (deps : PeerDeps) (codec : PeerNetMsgCodec) (wire : Wire) :
    Machine PeerStop StopAction Empty where
  start := .new wire
  step state action := (state.step deps codec action).map (·, [])

/-! ### What a turn of a task does -/

theorem Wire.sendQueue_withRecvQueues (self : Wire) (queues : RecvQueues) (stream : StreamKey) :
    (self.withRecvQueues queues).sendQueue stream = self.sendQueue stream := by
  cases self <;> cases stream <;> rfl

variable {stream : StreamKey} {msg : PeerNetMsg}

section

variable {self : Wire} {queue : SendQueue} (own : self.sendQueue stream = some queue)

include own

theorem Wire.mem_withSendQueue {other : StreamKey} {later found : SendQueue}
    (replaced : (self.withSendQueue stream later).sendQueue other = some found)
    (member : msg ∈ found) (kept : msg ∈ later → msg ∈ queue) :
    ∃ before, self.sendQueue other = some before ∧ msg ∈ before := by
  rw [sendQueue_withSendQueue own] at replaced
  split at replaced
  · rename_i same
    cases replaced
    exact ⟨queue, same ▸ own, kept member⟩
  · exact ⟨found, replaced, member⟩

theorem Wire.mem_of_push {other : StreamKey} {later found : SendQueue} {pushed : PeerNetMsg}
    (push : pushQueue SEND_QUEUE_SIZE queue pushed = some later)
    (replaced : (self.withSendQueue stream later).sendQueue other = some found)
    (member : msg ∈ found) :
    (∃ before, self.sendQueue other = some before ∧ msg ∈ before) ∨ msg = pushed := by
  by_cases same : msg = pushed
  · exact .inr same
  · refine .inl (mem_withSendQueue own replaced member fun inLater => ?_)
    rw [(pushQueue_eq_some.mp push).2, List.mem_append, List.mem_singleton] at inLater
    exact inLater.resolve_right same

end

namespace PeerTasks

variable {deps : PeerDeps} {state next : PeerTasks} {action : PeerAction}

/-- What a turn does: it puts at most its own message into a send queue, and leaves a reason
if it ends a reader or finishes a shutdown. Tasks are cancelled after a shutdown only. -/
structure Turn (deps : PeerDeps) (state : PeerTasks) (action : PeerAction) (next : PeerTasks) :
    Prop where
  queued : ∀ stream queue, next.wire.sendQueue stream = some queue → ∀ msg ∈ queue,
    (∃ before, state.wire.sendQueue stream = some before ∧ msg ∈ before) ∨
      action.puts deps = some msg
  readers : ∀ stream ∈ next.endedReaders, stream ∈ state.endedReaders ∨
    (PeerStop.reason next action).isSome = true
  calls : .finished ∈ next.calls → .finished ∈ state.calls ∨
    (PeerStop.reason next action).isSome = true
  ended : ∀ consumer ∈ next.ended, consumer ∈ state.ended ∨
    action.ends = some consumer ∧ (action = .cancel consumer → .finished ∈ state.calls)

/-- A turn that leaves the send queues, the readers and the calls alone. -/
theorem Turn.quiet (queues : ∀ stream, next.wire.sendQueue stream = state.wire.sendQueue stream)
    (readers : next.endedReaders = state.endedReaders) (calls : next.calls = state.calls)
    (ended : ∀ consumer ∈ next.ended, consumer ∈ state.ended ∨
      action.ends = some consumer ∧ (action = .cancel consumer → .finished ∈ state.calls)) :
    Turn deps state action next := by
  refine ⟨fun stream queue found msg member => .inl ⟨queue, ?_, member⟩, fun stream member => ?_,
    fun finished => .inl (calls ▸ finished), ended⟩
  · exact (queues stream).symm.trans found
  · exact .inl (readers ▸ member)

/-- A call of `shutdown` that goes on leaves a reason when it finishes. -/
theorem finished_of_set {call : Nat} {before after : ClosePhase}
    (found : state.calls[call]? = some before) (calls : next.calls = state.calls.set call after)
    (finished : .finished ∈ next.calls) :
    .finished ∈ state.calls ∨ (PeerStop.reason next (.advance call)).isSome = true := by
  rw [calls] at finished
  rcases List.mem_or_eq_of_mem_set finished with old | same
  · exact .inl old
  · have inside := (List.getElem?_eq_some_iff.mp found).1
    refine .inr ?_
    rw [PeerStop.reason, calls, List.getElem?_set_self inside, if_pos (congrArg some same.symm)]
    rfl

theorem step_turn (stepped : state.step deps action = some next) :
    Turn deps state action next := by
  cases steps_of_step stepped with
  | sends built found pushed =>
    refine ⟨fun stream queue replaced msg member => ?_, fun _ member => .inl member,
      fun finished => .inl finished, fun _ member => .inl member⟩
    refine (Wire.mem_of_push found pushed replaced member).imp_right ?_
    rintro rfl
    rw [PeerAction.puts, built]
    rfl
  | writes found =>
    exact ⟨fun _ _ replaced _ member =>
        .inl (Wire.mem_withSendQueue found replaced member (List.mem_cons_of_mem _)),
      fun _ member => .inl member, fun finished => .inl finished, fun _ member => .inl member⟩
  | wrote => exact .quiet (fun _ => rfl) rfl rfl fun _ member => .inl member
  | reads found =>
    exact .quiet (Wire.sendQueue_withRecvQueues _ _) rfl rfl fun _ member => .inl member
  | readStops =>
    refine ⟨fun _ queue found _ member => .inl ⟨queue, found, member⟩, fun other _ => .inr ?_,
      fun finished => .inl finished, fun _ member => .inl member⟩
    rw [PeerStop.reason, if_pos (List.contains_iff_mem.mpr List.mem_cons_self)]
    rfl
  | readFails =>
    exact ⟨fun _ queue found _ member => .inl ⟨queue, found, member⟩, fun _ _ => .inr rfl,
      fun finished => .inl finished, fun _ member => .inl member⟩
  | receives found =>
    exact .quiet (Wire.sendQueue_withRecvQueues _ _) rfl rfl fun _ member => .inl member
  | ends ends cancelled =>
    refine .quiet (fun _ => rfl) rfl rfl fun other member => ?_
    rcases List.mem_cons.mp member with rfl | old
    · exact .inr ⟨ends, cancelled⟩
    · exact .inl old
  | calls =>
    refine ⟨fun _ queue found _ member => .inl ⟨queue, found, member⟩, fun _ member => .inl member,
      fun finished => ?_, fun _ member => .inl member⟩
    rcases mem_concat.mp finished with old | phase
    · exact .inl old
    · unfold closePhase at phase
      split at phase <;> cases phase
  | closePushes going built found pushed =>
    refine ⟨fun stream queue replaced other member => ?_, fun _ member => .inl member,
      finished_of_set going rfl, fun _ member => .inl member⟩
    refine (Wire.mem_of_push found pushed replaced member).imp_right ?_
    rintro rfl
    rw [PeerAction.puts, built]
    rfl
  | closeNotifies going found pushed =>
    refine ⟨fun stream queue itsFound _ member => .inl ⟨queue, ?_, member⟩,
      fun _ member => .inl member, finished_of_set going rfl, fun _ member => .inl member⟩
    exact (Wire.sendQueue_withRecvQueues _ _ stream).symm.trans itsFound
  | closeEnds going =>
    exact ⟨fun _ queue itsFound _ member => .inl ⟨queue, itsFound, member⟩,
      fun _ member => .inl member, finished_of_set going rfl, fun _ member => .inl member⟩

end PeerTasks

/-! ### What holds in every run -/

namespace PeerStop

variable {deps : PeerDeps} {codec : PeerNetMsgCodec} {state next : PeerStop}

/-- Everything that waits or is being sent is within the limit, and a reason has been left if a
reader or a writer has ended or a shutdown is finished. -/
structure Accounted (codec : PeerNetMsgCodec) (state : PeerStop) : Prop where
  queued : ∀ stream queue, state.tasks.wire.sendQueue stream = some queue →
    ∀ msg ∈ queue, codec.fits msg = true
  sending : ∀ stream msg, state.sending.lookup stream = some msg → codec.fits msg = true
  readers : ∀ stream ∈ state.tasks.endedReaders, state.stopped = true
  calls : .finished ∈ state.tasks.calls → state.stopped = true
  writers : ∀ stream, .writer stream ∈ state.tasks.ended → state.stopped = true

section

variable (accounted : Accounted codec state)

include accounted

/-- A turn of a task that is not the end of a write. -/
theorem Accounted.turn {action : PeerAction} (within : (action.puts deps).all codec.fits = true)
    (taken : state.turn deps action = some next) : Accounted codec next := by
  unfold PeerStop.turn at taken
  split at taken
  · cases taken
  · rename_i tasks stepped
    have turn := PeerTasks.step_turn stepped
    have queued : ∀ stream queue, tasks.wire.sendQueue stream = some queue →
        ∀ msg ∈ queue, codec.fits msg = true := by
      intro stream queue found msg member
      rcases turn.queued stream queue found msg member with ⟨before, old, inOld⟩ | puts
      · exact accounted.queued stream before old msg inOld
      · rw [puts] at within
        exact within
    split at taken
    · rename_i stream
      obtain ⟨⟨msg, wire⟩, written, rfl⟩ := Option.map_eq_some_iff.mp taken
      obtain ⟨rest, own, -⟩ := Wire.write_eq_some written
      refine ⟨queued, fun other held found => ?_, fun other member => ?_, fun finished => ?_,
        fun other member => ?_⟩
      · rcases HashMap.lookup_insert_eq_some.mp found with ⟨rfl, rfl⟩ | ⟨_, before⟩
        · exact accounted.queued other _ own msg List.mem_cons_self
        · exact accounted.sending other held before
      · exact accounted.readers other ((turn.readers other member).resolve_right nofun)
      · exact accounted.calls ((turn.calls finished).resolve_right nofun)
      · exact accounted.writers other ((turn.ended _ member).resolve_right nofun)
    · cases taken
    · rename_i noWrite noWrote
      cases taken
      have left : state.stopped = true ∨ (reason tasks action).isSome = true →
          (state.stopped || (reason tasks action).isSome) = true :=
        Bool.or_eq_true_iff.mpr
      refine ⟨queued, accounted.sending, fun stream member => left ?_, fun finished => left ?_,
        fun stream member => left ?_⟩
      · exact (turn.readers stream member).imp_left (accounted.readers stream)
      · exact (turn.calls finished).imp_left accounted.calls
      · rcases turn.ended _ member with old | ⟨ends, cancels⟩
        · exact .inl (accounted.writers stream old)
        · cases action with
          | cancel consumer =>
            cases ends
            exact .inl (accounted.calls (cancels rfl))
          | wrote other succeeds => exact absurd rfl (noWrote other succeeds)
          | _ => cases ends

/-- The end of a write: a message within the limit was encoded, so it was the transport that
failed. -/
theorem Accounted.sent {transport : Bool}
    (within : state.withinLimits deps codec (.sent stream transport) = true)
    (taken : state.step deps codec (.sent stream transport) = some next) :
    Accounted codec next := by
  simp only [PeerStop.step] at taken
  split at taken
  · cases taken
  · rename_i msg held
    obtain ⟨tasks, stepped, rfl⟩ := Option.map_eq_some_iff.mp taken
    have encoded : (codec.encode msg []).toBool = true := by
      rw [PeerNetMsgCodec.encode_of_fits (accounted.sending stream msg held)]
      rfl
    rw [encoded, Bool.true_and] at stepped
    have turn := PeerTasks.step_turn stepped
    refine ⟨fun other queue found other' member => ?_, fun other held found => ?_,
      fun other member => ?_, fun finished => ?_, fun other member => ?_⟩
    · obtain ⟨before, old, inOld⟩ :=
        (turn.queued other queue found other' member).resolve_right nofun
      exact accounted.queued other before old other' inOld
    · exact accounted.sending other held (HashMap.lookup_erase_eq_some.mp found).2
    · exact accounted.readers other ((turn.readers other member).resolve_right nofun)
    · exact accounted.calls ((turn.calls finished).resolve_right nofun)
    · rcases turn.ended _ member with old | ⟨ends, -⟩
      · exact accounted.writers other old
      · cases transport with
        | true => cases ends
        | false => exact accounted.readers stream (List.contains_iff_mem.mp within)

theorem Accounted.step {action : StopAction}
    (within : state.withinLimits deps codec action = true)
    (taken : state.step deps codec action = some next) : Accounted codec next := by
  cases action with
  | task action => exact accounted.turn within taken
  | sent stream transport => exact accounted.sent within taken
  | leave =>
    simp only [PeerStop.step] at taken
    split at taken
    · cases taken
      exact ⟨accounted.queued, accounted.sending, accounted.readers, accounted.calls,
        accounted.writers⟩
    · cases taken

end

theorem Accounted.new {negotiated : HashSet ProtocolID} {wire : Wire}
    (built : wire.Built negotiated) : Accounted codec (.new wire) where
  queued stream queue found msg member := by
    rw [built.sendQueue_eq_nil found] at member
    cases member
  sending _ _ found := nomatch found
  readers _ member := nomatch member
  calls finished := nomatch finished
  writers _ member := nomatch member

/-- A writer whose message is over the limit ends, whatever the transport does. -/
theorem step_sent_of_not_fits {tasks : PeerTasks} (held : state.sending.lookup stream = some msg)
    (tooLong : codec.fits msg = false)
    (stepped : state.tasks.step deps (.wrote stream false) = some tasks) (transport : Bool) :
    state.step deps codec (.sent stream transport) =
      some { state with tasks, sending := state.sending.erase stream } := by
  obtain ⟨error, refused⟩ := PeerNetMsgCodec.encode_of_not_fits tooLong []
  have fails : ((codec.encode msg []).toBool && transport) = false := by
    rw [refused]
    rfl
  simp only [PeerStop.step, held, fails, stepped, Option.map_some]

end PeerStop

/-- If what is put into the send queues is within the limit of the codec, and the transport fails
for a writer only when the reader of the stream has ended, then a peer whose writer has ended has
been given a stop reason. -/
theorem writer_end_stops_peer {deps : PeerDeps} {codec : PeerNetMsgCodec} {wire : Wire}
    {negotiated : HashSet ProtocolID} (built : wire.Built negotiated) {history : List Empty}
    {state : PeerStop}
    (run : (stopMachine deps codec wire).Run
      (fun state action => state.withinLimits deps codec action = true) history state)
    {stream : StreamKey} (ended : .writer stream ∈ state.tasks.ended) :
    state.stopped = true := by
  have accounted : PeerStop.Accounted codec state := by
    refine run.invariant (fun _ state => state.Accounted codec) (.new built) ?_
    intro _ _ _ _ _ accounted within taken
    obtain ⟨_, stepped, ⟨⟩⟩ := Option.map_eq_some_iff.mp taken
    exact accounted.step within stepped
  exact accounted.writers stream ended

/-- The consumers that have ended and whether a reason was left. -/
def observedStop (reached : List Empty × PeerStop) : List Consumer × Bool :=
  (reached.2.tasks.ended, reached.2.stopped)

/-- The reader fails, then the transport fails for the writer. -/
theorem writer_end_stops_peer_after_reader :
    ∃ history state, (stopMachine plainDeps (.new envelopeBincode) chatPipe).Run
        (fun state action => state.withinLimits plainDeps (.new envelopeBincode) action = true)
        history state ∧
      state.tasks.ended = [.writer none] ∧ state.stopped = true := by
  refine Machine.reach_run
    (fun history state => observedStop (history, state) = ([.writer none], true))
    [.task (.send "Chat" [1]), .task (.write none), .task (.readFails none), .sent none false]
    (by decide +kernel) fun _ state run observed => ?_
  have ended : state.tasks.ended = [.writer none] := congrArg Prod.fst observed
  have member : Consumer.writer none ∈ state.tasks.ended := by
    rw [ended]
    exact List.mem_singleton_self _
  exact ⟨ended, writer_end_stops_peer .single run member⟩

/-- A peer whose writer sends a payload. -/
def sendingPayload (payload : Bytes) : PeerStop where
  tasks := { PeerTasks.new chatPipe with writing := [none] }
  sending := AList.insert none ⟨⟨.protocol⟩, payload⟩ ∅
  stopChannel := none
  stopped := false
  inPool := true

/-- The peer after its writer has ended, on a wire. -/
def silentPeer (payload : Bytes) (wire : Wire) : PeerStop where
  tasks := { PeerTasks.new wire with ended := [.writer none] }
  sending := AList.erase none (sendingPayload payload).sending
  stopChannel := none
  stopped := false
  inPool := true

/-- A payload of the largest frame size is accepted, but its envelope is over the limit, so the
writer ends. The peer stays in the pool with its reader running and without a stop reason, and
what is accepted afterwards stays in the queue. -/
theorem writer_ends_silently :
    ∃ history state, (stopMachine plainDeps (.new envelopeBincode) chatPipe).Run
        (fun _ _ => True) history state ∧
      .writer none ∈ state.tasks.ended ∧ state.inPool = true ∧ state.stopped = false ∧
      state.tasks.endedReaders = [] ∧
      state.tasks.wire.sendQueue none = some [⟨⟨.protocol⟩, [1]⟩] ∧
      state.step plainDeps (.new envelopeBincode) (.task (.write none)) = none := by
  obtain ⟨payload, long⟩ : ∃ payload : Bytes, Net.MAX_BUFFER_SIZE ≤ payload.length :=
    ⟨List.replicate Net.MAX_BUFFER_SIZE 0, List.length_replicate.ge⟩
  have tooLong : (PeerNetMsgCodec.new envelopeBincode).fits ⟨⟨.protocol⟩, payload⟩ = false :=
    decide_eq_false (Nat.not_le.mpr (Nat.lt_succ_of_le long))
  have accepted : (stopMachine plainDeps (.new envelopeBincode) chatPipe).trace
      [.task (.send "Chat" payload), .task (.write none)] = some ([], sendingPayload payload) := rfl
  have refused := PeerStop.step_sent_of_not_fits
    (show (sendingPayload payload).sending.lookup none = _ from AList.lookup_insert _) tooLong
    (show (sendingPayload payload).tasks.step plainDeps (.wrote none false) = some _ from rfl)
    true
  have stuck : (stopMachine plainDeps (.new envelopeBincode) chatPipe).step
      (sendingPayload payload) (.sent none true) = some (silentPeer payload chatPipe, []) :=
    congrArg (Option.map (·, [])) refused
  have again : (stopMachine plainDeps (.new envelopeBincode) chatPipe).step
      (silentPeer payload chatPipe) (.task (.send "Chat" [1])) =
      some (silentPeer payload (chatPipe.withSendQueue none [⟨⟨.protocol⟩, [1]⟩]), []) := rfl
  refine ⟨_, _, ((Machine.Run.of_trace accepted).step trivial stuck).step trivial again, ?_⟩
  exact ⟨List.mem_cons_self, rfl, rfl, rfl, rfl, rfl⟩

end Karyon.P2p
