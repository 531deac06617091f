/-
This file proves that two honest nodes agree on the outcome of their handshake.

Both nodes run the same program over a duplex link. The link delivers what was
sent in order, its framing may refuse a message of either side, and a side that
gave up closes the connection. One schedule is followed to its end, by the first
thing that goes wrong on either side; the library of message-passing programs then
carries the outcome to every order of sends and receives.
-/

import Karyon.P2p.Handshake

namespace Karyon.P2p

open Interaction

variable {deps : HandshakeDeps}

/-! ### Both sides compute the same protocols -/

/-- A version accepts the wire form of another one when each requirement matches the other
version. -/
theorem accept_of_iff (lawful : deps.semver.Lawful) (ours theirs : Version deps.semver) :
    Accept ours (.of theirs) ↔
      deps.semver.matches ours.req theirs.v = true ∧
        deps.semver.matches theirs.req ours.v = true := by
  obtain ⟨parsed, parses, equivalent⟩ := lawful theirs.req
  constructor
  · rintro ⟨theirReq, found, ourMatch, theirMatch⟩
    rw [WireVersion.of, parses] at found
    cases found
    rw [equivalent] at theirMatch
    exact ⟨ourMatch, theirMatch⟩
  · rintro ⟨ourMatch, theirMatch⟩
    rw [← equivalent] at theirMatch
    exact ⟨parsed, parses, ourMatch, theirMatch⟩

theorem accept_of_comm (lawful : deps.semver.Lawful) (ours theirs : Version deps.semver) :
    Accept ours (.of theirs) ↔ Accept theirs (.of ours) := by
  rw [accept_of_iff lawful, accept_of_iff lawful]
  exact And.comm

/-- The protocols shared with an honest node, in terms of the two protocol maps. -/
theorem mem_protocolsIntersection_honest (a b : HandshakeParams deps) {vermsg : VerMsg}
    (same : VerMsg.Same b.vermsg vermsg) (id : ProtocolID) :
    id ∈ protocolsIntersection a.protocols vermsg.protocols ↔
      ∃ ourMeta theirMeta, a.protocols.lookup id = some ourMeta ∧
        b.protocols.lookup id = some theirMeta ∧
          Accept ourMeta.version (.of theirMeta.version) := by
  rw [mem_protocolsIntersection, ← same.2.2 id, HandshakeParams.vermsg, HashMap.lookup_mapValues]
  constructor
  · rintro ⟨ourMeta, theirVersion, ours, theirs, accepted⟩
    obtain ⟨theirMeta, found, rfl⟩ := Option.map_eq_some_iff.mp theirs
    exact ⟨ourMeta, theirMeta, ours, found, accepted⟩
  · rintro ⟨ourMeta, theirMeta, ours, theirs, accepted⟩
    refine ⟨ourMeta, .of theirMeta.version, ours, ?_, accepted⟩
    rw [theirs]
    rfl

section

variable (lawful : deps.Lawful) {msg : PeerNetMsg}

include lawful

/-- What accepting the version message of an honest node gives. -/
theorem checkVersion_honest {a b : HandshakeParams deps}
    (encoded : PeerNetMsg.new deps.verMsg .version b.vermsg = .ok msg) {pid : PeerID}
    {shared : List ProtocolID} (accepted : checkVersion a msg = .ok (pid, shared)) :
    pid = b.ownId ∧ ∀ id, id ∈ shared ↔
      ∃ ourMeta theirMeta, a.protocols.lookup id = some ourMeta ∧
        b.protocols.lookup id = some theirMeta ∧
          Accept ourMeta.version (.of theirMeta.version) := by
  obtain ⟨_, vermsg, length, decoded, _, rfl, rfl⟩ := (checkVersion_eq_ok_iff _ _ _ _).mp accepted
  obtain ⟨payload, bytes, rfl⟩ := PeerNetMsg.new_eq_ok encoded
  obtain ⟨vermsg', length', decodes, same⟩ := lawful.verMsg _ _ bytes
  rw [decodes] at decoded
  cases decoded
  exact ⟨same.1.symm, mem_protocolsIntersection_honest a b same⟩

/-! ### What a side does with the acknowledgement of an honest node -/

theorem checkVerack_true {p : HandshakeParams deps} (encoded : verackMsg p true = .ok msg) :
    checkVerack deps p.ownId msg = .ok () := by
  obtain ⟨payload, bytes, rfl⟩ := PeerNetMsg.new_eq_ok encoded
  obtain ⟨verack, length, decodes, rfl⟩ := lawful.verAck _ _ bytes
  exact (checkVerack_eq_ok_iff _ _).mpr ⟨rfl, length, decodes⟩

theorem checkVerack_false {p : HandshakeParams deps} (encoded : verackMsg p false = .ok msg)
    (pid : PeerID) : ∃ error, checkVerack deps pid msg = .error error := by
  cases checked : checkVerack deps pid msg with
  | error error => exact ⟨error, rfl⟩
  | ok =>
    obtain ⟨_, length, decodes⟩ := (checkVerack_eq_ok_iff _ _).mp checked
    exact absurd decodes (verackMsg_false lawful.verAck encoded pid length)

end

/-! ### The first thing that goes wrong -/

def BothFail (first second : Except Error (PeerID × List ProtocolID)) : Prop :=
  (∃ error, first = .error error) ∧ ∃ error, second = .error error

variable (link : Link PeerNetMsg Error) (p : HandshakeParams deps) {incoming : List PeerNetMsg}

/-- A side gives up when the remote one closes the connection before its version message. -/
theorem finish_handshake_nil : ∃ error, link.finish (handshake p).run [] = .error error := by
  rw [handshake_run]
  cases PeerNetMsg.new deps.verMsg .version p.vermsg with
  | error error => exact ⟨error, rfl⟩
  | ok msg =>
    rw [Prog.orFail, Link.finish_sendThen]
    cases link.refused msg with
    | some error => exact ⟨error, rfl⟩
    | none => exact ⟨_, rfl⟩

/-- Nothing is in flight that a side would take for a positive acknowledgement. -/
def Negative (deps : HandshakeDeps) (incoming : List PeerNetMsg) : Prop :=
  ∀ msg rest, incoming = msg :: rest → ∀ pid, ∃ error, checkVerack deps pid msg = .error error

/-- A side gives up when the remote one closes the connection without a positive
acknowledgement. -/
theorem finish_awaitVerack (pid : PeerID) (shared : List ProtocolID)
    (negative : Negative deps incoming) :
    ∃ error, link.finish (awaitVerack deps pid shared) incoming = .error error := by
  cases incoming with
  | nil => exact ⟨_, rfl⟩
  | cons msg rest =>
    obtain ⟨error, rejected⟩ := negative msg rest rfl pid
    refine ⟨error, ?_⟩
    simp only [awaitVerack, Prog.recvThen, Link.finish, rejected]
    rfl

theorem finish_answer (first : PeerNetMsg) (negative : Negative deps incoming) :
    ∃ error, link.finish (answer p first) incoming = .error error := by
  unfold answer
  split
  · rename_i pid shared accepted
    cases verackMsg p true with
    | error error => exact ⟨error, rfl⟩
    | ok ack =>
      rw [Prog.orFail, Link.finish_sendThen]
      cases link.refused ack with
      | some error => exact ⟨error, rfl⟩
      | none => exact finish_awaitVerack link pid shared negative
  · rename_i error rejected
    split
    · cases verackMsg p false with
      | error error => exact ⟨error, rfl⟩
      | ok nack =>
        rw [Prog.orFail, Link.finish_sendThen]
        cases link.refused nack with
        | some error | none => exact ⟨error, rfl⟩
    · exact ⟨error, rfl⟩

/-- A side sends its version message, or the handshake fails on both sides. -/
theorem handshake_leads {other : HandshakeProg} {related : _ → _ → Prop}
    (fails : ∃ error, link.finish other [] = .error error)
    (failure : ∀ first second, BothFail first second → related first second)
    (next : ∀ msg, PeerNetMsg.new deps.verMsg .version p.vermsg = .ok msg →
      Duplex.Leads link ⟨.recvThen (answer p), other, [msg], incoming⟩ related) :
    Duplex.Leads link ⟨(handshake p).run, other, [], incoming⟩ related := by
  rw [handshake_run]
  cases encoded : PeerNetMsg.new deps.verMsg .version p.vermsg with
  | error error =>
    exact Duplex.Leads.of_hungUp _ _ _ (failure _ _ ⟨⟨error, rfl⟩, fails⟩)
  | ok msg =>
    cases refusal : link.refused msg with
    | some error => exact Duplex.Leads.refused refusal (failure _ _ ⟨⟨error, rfl⟩, fails⟩)
    | none => exact Duplex.Leads.sendThen refusal (next msg encoded)

/-- A side accepts and sends its acknowledgement, or the handshake fails on both sides. -/
theorem answer_leads (lawful : deps.Lawful) (msg : PeerNetMsg) {other : HandshakeProg}
    {related : _ → _ → Prop}
    (fails : ∀ toOther, Negative deps toOther → ∃ error, link.finish other toOther = .error error)
    (failure : ∀ first second, BothFail first second → related first second)
    (next : ∀ pid shared ack, checkVersion p msg = .ok (pid, shared) →
      verackMsg p true = .ok ack →
      Duplex.Leads link ⟨awaitVerack deps pid shared, other, [ack], incoming⟩ related) :
    Duplex.Leads link ⟨answer p msg, other, [], incoming⟩ related := by
  have closed := fails [] nofun
  unfold answer
  split
  · rename_i pid shared accepted
    cases encoded : verackMsg p true with
    | error error => exact Duplex.Leads.of_hungUp _ _ _ (failure _ _ ⟨⟨error, rfl⟩, closed⟩)
    | ok ack =>
      cases refusal : link.refused ack with
      | some error => exact Duplex.Leads.refused refusal (failure _ _ ⟨⟨error, rfl⟩, closed⟩)
      | none => exact Duplex.Leads.sendThen refusal (next pid shared ack accepted encoded)
  · rename_i error rejected
    split
    · cases encoded : verackMsg p false with
      | error error => exact Duplex.Leads.of_hungUp _ _ _ (failure _ _ ⟨⟨error, rfl⟩, closed⟩)
      | ok nack =>
        cases refusal : link.refused nack with
        | some error => exact Duplex.Leads.refused refusal (failure _ _ ⟨⟨error, rfl⟩, closed⟩)
        | none =>
          refine Duplex.Leads.sendThen refusal
            (Duplex.Leads.of_hungUp _ _ _ (failure _ _ ⟨⟨error, rfl⟩, fails _ ?_⟩))
          intro msg rest same pid
          cases same
          exact checkVerack_false lawful encoded pid
    · exact Duplex.Leads.of_hungUp _ _ _ (failure _ _ ⟨⟨error, rfl⟩, closed⟩)

/-! ### Agreement -/

/-- The results of two nodes agree: both fail, or each has the other's id and the protocols
are the same. -/
def Agree (a b : HandshakeParams deps) (first second : Except Error (PeerID × List ProtocolID)) :
    Prop :=
  (∃ sharedA sharedB, first = .ok (b.ownId, sharedA) ∧ second = .ok (a.ownId, sharedB) ∧
    ∀ id, id ∈ sharedA ↔ id ∈ sharedB) ∨ BothFail first second

/-- Once both nodes have sent their acknowledgements, both succeed. -/
theorem awaitVerack_leads (lawful : deps.Lawful) {a b : HandshakeParams deps}
    {ackA ackB : PeerNetMsg} {sharedA sharedB : List ProtocolID}
    (encodedA : verackMsg a true = .ok ackA) (encodedB : verackMsg b true = .ok ackB)
    (same : ∀ id, id ∈ sharedA ↔ id ∈ sharedB) :
    Duplex.Leads link ⟨awaitVerack deps b.ownId sharedA, awaitVerack deps a.ownId sharedB,
      [ackA], [ackB]⟩ (Agree a b) := by
  refine Duplex.Leads.recvThen ?_
  rw [checkVerack_true lawful encodedB]
  refine Duplex.Leads.of_swap (Duplex.Leads.recvThen ?_)
  rw [checkVerack_true lawful encodedA]
  exact ⟨_, _, _, _, .refl, Or.inl ⟨sharedA, sharedB, rfl, rfl, same⟩⟩

theorem handshakes_lead (lawful : deps.Lawful) (a b : HandshakeParams deps) :
    Duplex.Leads link ⟨(handshake a).run, (handshake b).run, [], []⟩ (Agree a b) := by
  have failure (first second) (fail : BothFail first second) : Agree a b first second := Or.inr fail
  have swapped (second first) (fail : BothFail second first) : Agree a b first second :=
    Or.inr fail.symm
  refine handshake_leads link a (finish_handshake_nil link b) failure fun msgA encodedA => ?_
  refine Duplex.Leads.of_swap (handshake_leads link b ⟨_, rfl⟩ swapped fun msgB encodedB => ?_)
  refine Duplex.Leads.recvThen (Duplex.Leads.of_swap (Duplex.Leads.recvThen ?_))
  refine answer_leads link a lawful msgB (fun _ => finish_answer link b msgA) failure
    fun pidA sharedA ackA acceptedA verackA => ?_
  refine Duplex.Leads.of_swap (answer_leads link b lawful msgA
    (fun _ => finish_awaitVerack link pidA sharedA) swapped
    fun pidB sharedB ackB acceptedB verackB => Duplex.Leads.of_swap ?_)
  obtain ⟨rfl, membersA⟩ := checkVersion_honest lawful encodedB acceptedA
  obtain ⟨rfl, membersB⟩ := checkVersion_honest lawful encodedA acceptedB
  refine awaitVerack_leads link lawful verackA verackB fun id => ?_
  rw [membersA, membersB]
  constructor
  · rintro ⟨ourMeta, theirMeta, ours, theirs, accepted⟩
    exact ⟨theirMeta, ourMeta, theirs, ours, (accept_of_comm lawful.semver _ _).mp accepted⟩
  · rintro ⟨ourMeta, theirMeta, ours, theirs, accepted⟩
    exact ⟨theirMeta, ourMeta, theirs, ours, (accept_of_comm lawful.semver _ _).mp accepted⟩

/-- A link whose framing refuses nothing. -/
def sampleLink : Link PeerNetMsg Error where
  refused _ := none
  closed := .karyonNet "connection aborted"

/-- Agreement of the handshake. Two honest nodes with any versions, protocol maps and ids, and
with any identities verified by their transports, run their handshakes over a first-in
first-out link whose framing may refuse messages. No run goes on forever; and in whatever order
messages are sent and received, once neither side can go on both have failed, or both have
succeeded, each with the id of the other, and with the same protocols. -/
theorem handshake_agreement (lawful : deps.Lawful) (link : Link PeerNetMsg Error)
    (a b : HandshakeParams deps) :
    WellFounded (fun later earlier : Duplex PeerNetMsg Error (PeerID × List ProtocolID)
      (PeerID × List ProtocolID) => link.Step earlier later) ∧
    ∀ last, Relation.ReflTransGen link.Step ⟨(handshake a).run, (handshake b).run, [], []⟩ last →
      last.Final link →
        (∃ sharedA sharedB, last.left = .done (.ok (b.ownId, sharedA)) ∧
          last.right = .done (.ok (a.ownId, sharedB)) ∧ ∀ id, id ∈ sharedA ↔ id ∈ sharedB) ∨
        ∃ errorA errorB, last.left = .done (.error errorA) ∧
          last.right = .done (.error errorB) := by
  refine ⟨Duplex.wellFounded_step link, fun last run final => ?_⟩
  obtain ⟨first, second, left, right, agree⟩ :=
    (handshakes_lead link lawful a b).decides run final
  rcases agree with ⟨sharedA, sharedB, rfl, rfl, same⟩ | ⟨⟨errorA, rfl⟩, ⟨errorB, rfl⟩⟩
  · exact Or.inl ⟨sharedA, sharedB, left, right, same⟩
  · exact Or.inr ⟨errorA, errorB, left, right⟩

/-- The two sample nodes both succeed, on the one protocol whose versions accept each other. -/
theorem handshake_agreement_chat :
    ∃ last, Relation.ReflTransGen sampleLink.Step
        ⟨(handshake alice).run, (handshake bob).run, [], []⟩ last ∧
      last.Final sampleLink ∧ last.left = .done (.ok (bobId, ["chat"])) ∧
      ∃ sharedB, last.right = .done (.ok (aliceId, sharedB)) ∧
        ∀ id, id ∈ ["chat"] ↔ id ∈ sharedB := by
  have run : Relation.ReflTransGen sampleLink.Step
      ⟨(handshake alice).run, (handshake bob).run, [], []⟩
      ⟨.done (.ok (bobId, ["chat"])), .done (.ok (aliceId, ["chat"])), [], []⟩ :=
    .head (.left rfl) (.head (.right rfl) (.head (.left rfl) (.head (.right rfl)
      (.head (.left rfl) (.head (.right rfl) (.head (.left rfl) (.head (.right rfl) .refl)))))))
  refine ⟨_, run, Duplex.final_of_done, rfl, ?_⟩
  rcases (handshake_agreement sampleDeps_lawful sampleLink alice bob).2 _ run
    Duplex.final_of_done with ⟨sharedA, sharedB, left, right, same⟩ | ⟨_, _, left, _⟩
  · cases left
    exact ⟨sharedB, right, same⟩
  · cases left

end Karyon.P2p
