/-
This file models one connection of a peer with both of its ends, and proves what is
kept on it.

The local wire sends and the wire of the remote receives; the messages in between are
under way. Both ends were built from negotiated protocols they agree on. The writers,
the readers of the remote and the protocols of the remote take their turns in any
order. As long as only messages for negotiated protocols are sent, no reader stops
because of an unsupported protocol (`PeerLink.Sound.step`).
-/

import Karyon.P2p.Wire

namespace Karyon.P2p

variable (deps : WireDeps)

/-! ### One connection -/

/-- A connection with the direction from the local node to the remote: the local wire, the
messages under way on each stream, the wire of the remote and the streams whose reader has
stopped. -/
structure PeerLink where
  negotiated : HashSet ProtocolID
  wire : Wire
  transit : StreamKey → List PeerNetMsg
  remote : Wire
  ended : List StreamKey

/-- A message is put on the wire, or a reader of the remote stops. -/
inductive LinkEvent where
  | put (msg : PeerNetMsg)
  | stopped (reason : Error)

/-- A writer or a reader takes a turn, a reader fails to receive, or a protocol of the remote
takes an event. -/
inductive LinkAction where
  | write (stream : StreamKey)
  | read (stream : StreamKey)
  | fail (stream : StreamKey) (text : String)
  | recv (protoId : ProtocolID)

namespace PeerLink

variable (link : PeerLink) (stream : StreamKey)

def withTransit (msgs : List PeerNetMsg) : PeerLink :=
  { link with transit := Function.update link.transit stream msgs }

/-- The reader of a stream ends and leaves its reason. -/
def stop (reason : Error) : PeerLink × List LinkEvent :=
  ({ link with ended := stream :: link.ended }, [.stopped reason])

/-- A writer puts the next message of its queue on the wire. -/
def write : Option (PeerLink × List LinkEvent) :=
  match link.wire.write stream with
  | some (msg, wire) =>
    some ({ link.withTransit stream (link.transit stream ++ [msg]) with wire }, [.put msg])
  | none => none

/-- A reader takes the next message from the wire. -/
def read : Option (PeerLink × List LinkEvent) :=
  if stream ∈ link.ended then none
  else
    match link.transit stream with
    | [] => none
    | msg :: rest =>
      match link.remote.read deps stream msg with
      | none => none
      | some (.error reason) => some ((link.withTransit stream rest).stop stream reason)
      | some (.ok none) => none
      | some (.ok (some remote)) => some ({ link.withTransit stream rest with remote }, [])

/-- A reader fails to receive a message. -/
def fail (text : String) : Option (PeerLink × List LinkEvent) :=
  if stream ∈ link.ended then none else some (link.stop stream (.karyonNet text))

/-- A protocol of the remote takes the next event out of its queue. -/
def recv (protoId : ProtocolID) : Option (PeerLink × List LinkEvent) :=
  match link.remote.recv protoId with
  | .ok (some (_, remote)) => some ({ link with remote }, [])
  | _ => none

def step : LinkAction → Option (PeerLink × List LinkEvent)
  | .write stream => link.write stream
  | .read stream => link.read deps stream
  | .fail stream text => link.fail stream text
  | .recv protoId => link.recv protoId

/-- A connection whose two ends were just built from protocols they agree on. -/
inductive Established : PeerLink → Prop
  | built {ours theirs : HashSet ProtocolID} {near far : QueuedConn} {wire remote : Wire} :
      (∀ protoId, protoId ∈ ours ↔ protoId ∈ theirs) →
      Ends deps ours near far ∨ Ends deps theirs far near →
      Wire.fromQueued deps near ours = .ok wire →
      Wire.fromQueued deps far theirs = .ok remote →
      Established ⟨ours, wire, fun _ => [], remote, []⟩

end PeerLink

variable {deps}

/-! ### Wires that were just built -/

namespace Wire

variable {negotiated : HashSet ProtocolID} {wire : Wire}

theorem fromQueued_isSingle {queued : QueuedConn}
    (built : Wire.fromQueued deps queued negotiated = .ok wire) :
    wire.isSingle = !queued.quicConn.isSome := by
  rcases fromQueued_eq_ok built with ⟨pipe, rfl⟩ | ⟨_, _, quic, _, rfl⟩
  · rw [pipe]
    rfl
  · rw [quic]
    rfl

variable (built : wire.Built negotiated) (protoId : ProtocolID)

include built

theorem Built.sendQueue_streamOf :
    wire.sendQueue (wire.streamOf protoId) =
      if wire.isSingle = true ∨ protoId ∈ negotiated then some [] else none := by
  cases built with
  | single => rfl
  | mux queues =>
    simp only [isSingle, Bool.false_eq_true, false_or]
    exact queues protoId

theorem Built.sendQueue_eq_nil {stream : StreamKey} {queue : SendQueue}
    (found : wire.sendQueue stream = some queue) : queue = [] := by
  cases built with
  | single =>
    cases stream with
    | none =>
      cases found
      rfl
    | some protoId => cases found
  | mux queues =>
    cases stream with
    | none => cases found
    | some protoId =>
      have lookup := (queues protoId).symm.trans found
      obtain ⟨_, ⟨⟩⟩ := Option.ite_none_right_eq_some.mp lookup
      rfl

theorem Built.lookup_recvQueues :
    wire.recvQueues.lookup protoId = if protoId ∈ negotiated then some [] else none := by
  cases built <;> exact lookup_buildRecvQueues negotiated protoId

/-- A wire that was just built has room for a message, so a send does not wait. -/
theorem Built.send_ne_wait (payload : Bytes) : wire.send deps protoId payload ≠ .ok none := by
  intro waits
  obtain ⟨netMsg, queue, _, found, full⟩ := send_cases waits
  have empty := built.sendQueue_eq_nil found
  subst empty
  cases full

end Wire

theorem Ends.quicConn_isSome {dialled : HashSet ProtocolID} {near far : QueuedConn}
    (ends : Ends deps dialled near far) : near.quicConn.isSome = far.quicConn.isSome := by
  cases ends <;> rfl

/-! ### What one connection keeps -/

/-- The local wire has a stream for exactly the negotiated protocols, unless it is a pipe; only
messages for negotiated protocols are queued or under way; and the remote has a queue for each
negotiated protocol. -/
structure PeerLink.Sound (deps : WireDeps) (link : PeerLink) : Prop where
  accepts : ∀ protoId, (link.wire.sendQueue (link.wire.streamOf protoId)).isSome = true ↔
    link.wire.isSingle = true ∨ protoId ∈ link.negotiated
  queued : ∀ stream queue, link.wire.sendQueue stream = some queue →
    ∀ msg ∈ queue, Carries deps link.negotiated msg
  underway : ∀ stream, ∀ msg ∈ link.transit stream, Carries deps link.negotiated msg
  served : ∀ protoId ∈ link.negotiated, (link.remote.recvQueues.lookup protoId).isSome = true

/-- An event that breaks nothing: a message for a negotiated protocol is put on the wire, or a
reader stops for another reason than an unsupported protocol. -/
def LinkEvent.Harmless (deps : WireDeps) (negotiated : HashSet ProtocolID) : LinkEvent → Prop
  | .put msg => Carries deps negotiated msg
  | .stopped reason => ∀ protoId, reason ≠ .unsupportedProtocol protoId

namespace PeerLink

variable {link next : PeerLink}

section

variable (lawful : deps.streamInit.RoundTrips Eq) (established : link.Established deps)

include lawful established

theorem Established.ends :
    link.wire.Built link.negotiated ∧ link.transit = (fun _ => []) ∧ link.ended = [] ∧
      link.remote.isSingle = link.wire.isSingle ∧
      ∃ theirs, (∀ protoId, protoId ∈ link.negotiated ↔ protoId ∈ theirs) ∧
        link.remote.Built theirs := by
  obtain ⟨agreed, ends, here, there⟩ := established
  have same := Wire.fromQueued_isSingle here
  have remote := Wire.fromQueued_isSingle there
  have agreedBack := fun protoId => (agreed protoId).symm
  rcases ends with dialled | accepted
  · rw [dialled.quicConn_isSome, ← remote] at same
    exact ⟨dialled.built_dialled here, rfl, rfl, same.symm, _, agreed,
      dialled.built_accepted lawful agreedBack there⟩
  · rw [← accepted.quicConn_isSome, ← remote] at same
    exact ⟨accepted.built_accepted lawful agreed here, rfl, rfl, same.symm, _, agreed,
      accepted.built_dialled there⟩

theorem Established.sound : link.Sound deps := by
  obtain ⟨built, transit, _, _, theirs, agreed, remote⟩ := established.ends lawful
  refine ⟨fun protoId => ?_, fun stream queue found => ?_, fun stream => ?_,
    fun protoId member => ?_⟩
  · rw [built.sendQueue_streamOf]
    split <;> simp_all
  · rw [built.sendQueue_eq_nil found]
    nofun
  · rw [transit]
    nofun
  · rw [remote.lookup_recvQueues, if_pos ((agreed protoId).mp member)]
    rfl

end

/-- What a step on a connection does: it stays sound, keeps its protocols and its kind, and the
events are harmless. -/
structure Keeps (deps : WireDeps) (link next : PeerLink) (events : List LinkEvent) : Prop where
  sound : next.Sound deps
  negotiated : next.negotiated = link.negotiated
  isSingle : next.wire.isSingle = link.wire.isSingle
  harmless : ∀ event ∈ events, event.Harmless deps link.negotiated

variable {stream : StreamKey} {events : List LinkEvent}

section

variable (sound : link.Sound deps)

include sound

theorem Sound.withSendQueue {queue later : SendQueue}
    (found : link.wire.sendQueue stream = some queue)
    (carries : ∀ msg ∈ later, Carries deps link.negotiated msg) :
    Sound deps { link with wire := link.wire.withSendQueue stream later } := by
  refine ⟨fun protoId => ?_, fun other waiting lookup => ?_, sound.underway, sound.served⟩
  · have unchanged : (link.wire.withSendQueue stream later).streamOf protoId =
        link.wire.streamOf protoId := by
      rw [Wire.streamOf, Wire.isSingle_withSendQueue, Wire.streamOf]
    rw [unchanged, Wire.sendQueue_withSendQueue found, Wire.isSingle_withSendQueue,
      ← sound.accepts protoId]
    split
    · rename_i same
      rw [same, found]
      rfl
    · rfl
  · have lookup : (link.wire.withSendQueue stream later).sendQueue other = some waiting := lookup
    rw [Wire.sendQueue_withSendQueue found] at lookup
    split at lookup
    · cases lookup
      exact carries
    · exact sound.queued other waiting lookup

theorem Sound.withTransit (stream : StreamKey) {msgs : List PeerNetMsg}
    (carries : ∀ msg ∈ msgs, Carries deps link.negotiated msg) :
    (link.withTransit stream msgs).Sound deps := by
  refine ⟨sound.accepts, sound.queued, fun other => ?_, sound.served⟩
  show ∀ msg ∈ Function.update link.transit stream msgs other, Carries deps link.negotiated msg
  by_cases same : other = stream
  · rw [same, Function.update_self]
    exact carries
  · rw [Function.update_of_ne same]
    exact sound.underway other

theorem Sound.withRemote (name : ProtocolID) (queue : List ProtocolEvent) :
    Sound deps { link with
      remote := link.remote.withRecvQueues (link.remote.recvQueues.insert name queue) } := by
  refine ⟨sound.accepts, sound.queued, sound.underway, fun protoId member => ?_⟩
  rw [Wire.recvQueues_withRecvQueues, AList.lookup_isSome, AList.mem_insert]
  exact Or.inr (AList.lookup_isSome.mp (sound.served protoId member))

variable {protoId : ProtocolID}

/-- Sending a message for a protocol that a pipe may carry keeps the connection sound. -/
theorem Sound.send (lawful : deps.protocolMsg.RoundTrips Eq) {payload : Bytes} {wire : Wire}
    (pipe : link.wire.isSingle = true → protoId ∈ link.negotiated)
    (sent : link.wire.send deps protoId payload = .ok (some wire)) :
    Sound deps { link with wire } ∧ wire.isSingle = link.wire.isSingle := by
  obtain ⟨netMsg, queue, built, found, pushes⟩ := Wire.send_cases sent
  obtain ⟨later, pushed, rfl⟩ := Option.map_eq_some_iff.mp pushes.symm
  obtain ⟨_, rfl⟩ := pushQueue_eq_some.mp pushed
  have member : protoId ∈ link.negotiated :=
    ((sound.accepts protoId).mp (by rw [found]; rfl)).elim pipe id
  refine ⟨sound.withSendQueue found fun msg inside => ?_, Wire.isSingle_withSendQueue _ _ _⟩
  rcases List.mem_append.mp inside with inside | inside
  · exact sound.queued _ _ found msg inside
  · rw [List.mem_singleton.mp inside]
    exact carries_new lawful built member

theorem Sound.write (step : link.write stream = some (next, events)) :
    Keeps deps link next events := by
  revert step
  fun_cases PeerLink.write <;> rintro ⟨⟩
  rename_i msg _ written
  obtain ⟨rest, found, rfl⟩ := Wire.write_eq_some written
  have carries := sound.queued _ _ found
  have underway : ∀ other ∈ link.transit stream ++ [msg],
      Carries deps link.negotiated other := by
    intro other inside
    rcases List.mem_append.mp inside with inside | inside
    · exact sound.underway stream other inside
    · rw [List.mem_singleton.mp inside]
      exact carries msg List.mem_cons_self
  refine ⟨(sound.withTransit stream underway).withSendQueue found fun other inside =>
    carries other (List.mem_cons_of_mem _ inside), rfl, Wire.isSingle_withSendQueue _ _ _,
    fun event member => ?_⟩
  rw [List.mem_singleton.mp member]
  exact carries msg List.mem_cons_self

theorem Sound.read (step : link.read deps stream = some (next, events)) :
    Keeps deps link next events := by
  obtain ⟨_, step⟩ := Option.ite_none_left_eq_some.mp step
  split at step
  · cases step
  · rename_i msg rest underway
    have carries : ∀ other ∈ msg :: rest, Carries deps link.negotiated other :=
      underway ▸ sound.underway stream
    have taken := sound.withTransit stream fun other inside =>
      carries other (List.mem_cons_of_mem _ inside)
    split at step
    · cases step
    · rename_i reason failed
      exact absurd failed
        (Wire.read_ne_error (carries msg List.mem_cons_self) sound.served reason)
    · cases step
    · rename_i remote read
      cases step
      obtain ⟨name, queue, payload, _, _, rfl⟩ := Wire.read_eq_ok read
      exact ⟨taken.withRemote name _, rfl, rfl, nofun⟩

theorem Sound.fail {text : String} (step : link.fail stream text = some (next, events)) :
    Keeps deps link next events := by
  revert step
  fun_cases PeerLink.fail <;> rintro ⟨⟩
  refine ⟨⟨sound.accepts, sound.queued, sound.underway, sound.served⟩, rfl, rfl,
    fun event member => ?_⟩
  rw [List.mem_singleton.mp member]
  nofun

theorem Sound.recv (step : link.recv protoId = some (next, events)) :
    Keeps deps link next events := by
  revert step
  fun_cases PeerLink.recv <;> rintro ⟨⟩
  rename_i received
  obtain ⟨rest, _, rfl⟩ := Wire.recv_eq_ok received
  exact ⟨sound.withRemote _ rest, rfl, rfl, nofun⟩

theorem Sound.step {action : LinkAction} (step : link.step deps action = some (next, events)) :
    Keeps deps link next events := by
  cases action with
  | write stream => exact sound.write step
  | read stream => exact sound.read step
  | fail stream text => exact sound.fail step
  | recv protoId => exact sound.recv step

/-- On a sound connection exactly the negotiated protocols are accepted, and all on a pipe. -/
theorem Sound.send_accepts {payload bytes : Bytes}
    (admissible : deps.protocolMsg.encode ⟨protoId, payload⟩ = .ok bytes) :
    (∃ sent, link.wire.send deps protoId payload = .ok sent) ↔
      link.wire.isSingle = true ∨ protoId ∈ link.negotiated := by
  have built : PeerNetMsg.new deps.protocolMsg .protocol ⟨protoId, payload⟩ =
      .ok ⟨⟨.protocol⟩, bytes⟩ := by
    rw [PeerNetMsg.new, admissible]
    rfl
  rw [Wire.send_eq, built, ← sound.accepts protoId]
  cases link.wire.sendQueue (link.wire.streamOf protoId) with
  | none => exact ⟨fun accepted => (nomatch accepted.choose_spec), nofun⟩
  | some queue => exact ⟨fun _ => rfl, fun _ => ⟨_, rfl⟩⟩

end

end PeerLink

end Karyon.P2p
