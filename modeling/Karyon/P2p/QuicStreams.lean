/-
This file looks at the streams that the accepting end of a QUIC connection has after
`setup_quic_streams` of `p2p/src/peer/connection.rs`, whatever the remote opens, and at the
tasks that `MuxConnection::from_queued` spawns for them.

The loop counts the streams that it accepts, not the protocols that they are for. It
returns with a stream for each negotiated protocol exactly if no two of the streams that
it accepts have the same header (`streamPerProtocol_iff`).
-/

import Karyon.P2p.Wire
import Mathlib.Data.List.Perm.Subperm

namespace Karyon.P2p

/-! ### The tasks of the streams -/

/-- A task of a stream, with the queue that it drains or fills. -/
inductive StreamTask where
  | writer (queue : ProtocolID)
  | reader (queue : ProtocolID)
  deriving DecidableEq

/-- Spawn a writer and a reader for every stream. There is no result where a queue that is expected
is missing. -/
def spawnTasks (sendQueues : HashMap ProtocolID SendQueue) (recvQueues : RecvQueues) :
    List MuxStream → Option (List StreamTask)
  | [] => some []
  | stream :: rest => do
    let _ ← sendQueues.lookup stream.protoId
    let _ ← recvQueues.lookup stream.protoId
    let later ← spawnTasks sendQueues recvQueues rest
    return .writer stream.protoId :: .reader stream.protoId :: later

theorem spawnTasks_eq_some {sendQueues : HashMap ProtocolID SendQueue} {recvQueues : RecvQueues}
    {streams : List MuxStream}
    (queued : ∀ stream ∈ streams,
      stream.protoId ∈ sendQueues ∧ stream.protoId ∈ recvQueues) :
    spawnTasks sendQueues recvQueues streams =
      some (streams.flatMap fun stream => [.writer stream.protoId, .reader stream.protoId]) := by
  induction streams with
  | nil => rfl
  | cons stream rest inductionHypothesis =>
    obtain ⟨sendQueue, recvQueue⟩ := queued stream List.mem_cons_self
    obtain ⟨_, sends⟩ := Option.isSome_iff_exists.mp (AList.lookup_isSome.mpr sendQueue)
    obtain ⟨_, receives⟩ := Option.isSome_iff_exists.mp (AList.lookup_isSome.mpr recvQueue)
    have later := inductionHypothesis fun other member =>
      queued other (List.mem_cons_of_mem _ member)
    rw [spawnTasks, sends, receives, later]
    rfl

/-- Each stream has one writer and one reader. -/
theorem count_tasks (streams : List MuxStream) (protoId : ProtocolID) :
    (streams.flatMap fun stream =>
        [StreamTask.writer stream.protoId, .reader stream.protoId]).count (.writer protoId) =
      (streams.map MuxStream.protoId).count protoId ∧
    (streams.flatMap fun stream =>
        [StreamTask.writer stream.protoId, .reader stream.protoId]).count (.reader protoId) =
      (streams.map MuxStream.protoId).count protoId := by
  induction streams with
  | nil => exact ⟨rfl, rfl⟩
  | cons stream rest inductionHypothesis =>
    obtain ⟨writers, readers⟩ := inductionHypothesis
    rw [List.flatMap_cons, List.count_append, List.count_append, writers, readers, List.map_cons,
      List.count_cons]
    by_cases same : stream.protoId = protoId <;> simp [same, Nat.add_comm]

/-! ### What the remote opened -/

variable (deps : WireDeps)

/-- The protocols that the headers of streams name. -/
def headerIds (incoming : List Bytes) : List ProtocolID :=
  incoming.filterMap fun bytes => (readHeader deps bytes).toOption.map MuxStream.protoId

/-- One stream for each negotiated protocol: the streams carry each of them once, each has its
queue and no other protocol has one, the tasks are one writer and one reader for each, and exactly
they can be sent for. -/
structure StreamPerProtocol (negotiated : HashSet ProtocolID)
    (queues : HashMap ProtocolID SendQueue) (streams : List MuxStream) : Prop where
  once : ∀ protoId, (streams.map MuxStream.protoId).count protoId =
    if protoId ∈ negotiated then 1 else 0
  keys : ∀ protoId, protoId ∈ queues ↔ protoId ∈ negotiated
  tasks : ∃ tasks, spawnTasks queues (buildRecvQueues negotiated) streams = some tasks ∧
    ∀ protoId ∈ negotiated, tasks.count (.writer protoId) = 1 ∧ tasks.count (.reader protoId) = 1
  sends : ∀ protoId payload netMsg,
    PeerNetMsg.new deps.protocolMsg .protocol ⟨protoId, payload⟩ = .ok netMsg →
      ((∃ sent, (Wire.mux ⟨queues, buildRecvQueues negotiated⟩).send deps protoId payload =
        .ok sent) ↔ protoId ∈ negotiated)

variable {deps} {negotiated : HashSet ProtocolID} {queues : HashMap ProtocolID SendQueue}
  {streams : List MuxStream}

theorem headerIds_of_accepted {incoming : List Bytes}
    (headers : incoming.map (readHeader deps) = streams.map .ok) :
    headerIds deps incoming = streams.map MuxStream.protoId := by
  have through : headerIds deps incoming = (incoming.map (readHeader deps)).filterMap
      fun header => header.toOption.map MuxStream.protoId := by
    rw [headerIds, List.filterMap_map]
    rfl
  rw [through, headers, List.filterMap_map]
  show (streams.filterMap fun stream => some stream.protoId) = _
  rw [List.filterMap_eq_map']

variable {ids : List ProtocolID}

/-- Distinct negotiated protocols, as many as there are, are all of them. -/
theorem perm_of_nodup (distinct : ids.Nodup) (members : ∀ protoId ∈ ids, protoId ∈ negotiated)
    (count : ids.length = negotiated.keys.length) : ids.Perm negotiated.keys := by
  have within := distinct.subperm fun protoId inside => AList.mem_keys.mp (members protoId inside)
  exact within.perm_of_length_le (Nat.le_of_eq count.symm)

theorem count_eq_of_perm (perm : ids.Perm negotiated.keys) (protoId : ProtocolID) :
    ids.count protoId = if protoId ∈ negotiated then 1 else 0 := by
  rw [perm.count_eq]
  split
  · rename_i member
    exact List.count_eq_one_of_mem negotiated.keys_nodup (AList.mem_keys.mp member)
  · rename_i absent
    exact List.count_eq_zero_of_not_mem fun inside => absent (AList.mem_keys.mpr inside)

variable {protoId : ProtocolID}

theorem mem_openQueues : protoId ∈ openQueues ids ∅ ↔ protoId ∈ ids := by
  rw [← AList.lookup_isSome, lookup_openQueues, AList.lookup_empty]
  split
  · rename_i inside
    exact iff_of_true rfl inside
  · rename_i outside
    exact iff_of_false Bool.false_ne_true outside

/-- A message for a protocol can be sent exactly if the protocol has a queue. -/
theorem send_mux_iff {payload : Bytes} {netMsg : PeerNetMsg}
    (encodes : PeerNetMsg.new deps.protocolMsg .protocol ⟨protoId, payload⟩ = .ok netMsg)
    (recvQueues : RecvQueues) :
    (∃ sent, (Wire.mux ⟨queues, recvQueues⟩).send deps protoId payload = .ok sent) ↔
      protoId ∈ queues := by
  have queue : (Wire.mux ⟨queues, recvQueues⟩).sendQueue
      ((Wire.mux ⟨queues, recvQueues⟩).streamOf protoId) = queues.lookup protoId := rfl
  rw [Wire.send_eq, encodes, queue, ← AList.lookup_isSome]
  cases queues.lookup protoId with
  | none => exact iff_of_false (by rintro ⟨_, ⟨⟩⟩) Bool.false_ne_true
  | some queue => exact iff_of_true ⟨_, rfl⟩ rfl

/-- The accepting end has one stream for each negotiated protocol exactly if the streams that it
accepted name different protocols. -/
theorem streamPerProtocol_iff {quicConn : QuicConn}
    (setUp : setupQuicStreams deps quicConn .inbound negotiated = .ok (queues, streams)) :
    StreamPerProtocol deps negotiated queues streams ↔
      (headerIds deps (quicConn.incoming.take negotiated.keys.length)).Nodup := by
  obtain ⟨added, sameQueues, sameStreams, count, headers, members⟩ := acceptStreams_eq_ok setUp
  obtain rfl : queues = openQueues (added.map MuxStream.protoId) ∅ := sameQueues
  obtain rfl : streams = added := sameStreams
  rw [headerIds_of_accepted headers]
  have member : ∀ protoId ∈ streams.map MuxStream.protoId, protoId ∈ negotiated := by
    intro protoId inside
    obtain ⟨stream, present, rfl⟩ := List.mem_map.mp inside
    exact members stream present
  constructor
  · intro each
    refine List.nodup_iff_count_le_one.mpr fun protoId => ?_
    rw [each.once]
    split <;> decide
  · intro distinct
    have perm := perm_of_nodup distinct member (by rw [List.length_map, count])
    have keys (protoId : ProtocolID) :
        protoId ∈ openQueues (streams.map MuxStream.protoId) ∅ ↔ protoId ∈ negotiated := by
      rw [mem_openQueues, perm.mem_iff]
      exact AList.mem_keys.symm
    refine ⟨count_eq_of_perm perm, keys, ?_, fun protoId payload netMsg encodes => ?_⟩
    · refine ⟨_, spawnTasks_eq_some fun stream inside => ⟨(keys _).mpr (members stream inside), ?_⟩,
        fun protoId inside => ?_⟩
      · rw [← AList.lookup_isSome, lookup_buildRecvQueues, if_pos (members stream inside)]
        rfl
      · rw [(count_tasks streams protoId).1, (count_tasks streams protoId).2,
          count_eq_of_perm perm, if_pos inside]
        exact ⟨rfl, rfl⟩
    · rw [send_mux_iff encodes, keys]

/-- Encodings of the headers and of one message of two protocols. -/
def twoProtocolDeps : WireDeps where
  protocolMsg := .ofTable [⟨"Ping", [7]⟩, ⟨"Chat", [7]⟩]
  streamInit := .ofTable [⟨"Ping"⟩, ⟨"Chat"⟩]

def pingAndChat : HashSet ProtocolID :=
  ((∅ : HashSet ProtocolID).insert "Chat" ()).insert "Ping" ()

/-- A remote that opens a stream for each of the two protocols. -/
theorem streamPerProtocol_iff_two :
    ∃ queues streams, setupQuicStreams twoProtocolDeps ⟨[[1, 0, 0], [0, 0]]⟩ .inbound pingAndChat =
        .ok (queues, streams) ∧
      StreamPerProtocol twoProtocolDeps pingAndChat queues streams := by
  have setUp : setupQuicStreams twoProtocolDeps ⟨[[1, 0, 0], [0, 0]]⟩ .inbound pingAndChat =
      .ok (openQueues ["Chat", "Ping"] ∅, [⟨"Chat", [1, 0, 0]⟩, ⟨"Ping", [0, 0]⟩]) := rfl
  exact ⟨_, _, setUp, (streamPerProtocol_iff setUp).mpr (by decide)⟩

/-- A remote that opens two streams for one of the two protocols is accepted. The other protocol
has no stream, and nothing can be sent for it. -/
theorem streamPerProtocol_counterexample :
    ∃ queues streams, setupQuicStreams twoProtocolDeps ⟨[[1, 0, 0], [1, 0, 0]]⟩ .inbound
        pingAndChat = .ok (queues, streams) ∧
      streams.map MuxStream.protoId = ["Chat", "Chat"] ∧ queues.keys = ["Chat"] ∧
      spawnTasks queues (buildRecvQueues pingAndChat) streams =
        some [.writer "Chat", .reader "Chat", .writer "Chat", .reader "Chat"] ∧
      (Wire.mux ⟨queues, buildRecvQueues pingAndChat⟩).send twoProtocolDeps "Ping" [7] =
        .error (.unsupportedProtocol "Ping") := by
  exact ⟨openQueues ["Chat", "Chat"] ∅, [⟨"Chat", [1, 0, 0]⟩, ⟨"Chat", [1, 0, 0]⟩], rfl, rfl, rfl,
    rfl, rfl⟩

end Karyon.P2p
