/-
This file models the peer handshake of `p2p/src/handshake.rs` and proves what a
successful handshake means whatever the remote does.

The handshake is a message-passing program: it sends its own version message,
reads the remote's, answers with an acknowledgement and reads the remote's
acknowledgement. Timeouts and transport failures are outcomes of a receive, so a
remote that stays silent, closes the connection or sends garbage is one of the
environments the program can be observed in.
-/

import Karyon.Lib.Interaction
import Karyon.P2p.Message

namespace Karyon.P2p

open Interaction

/-! ### Messages -/

/-- A version and the versions it accepts, as sent on the wire. -/
structure WireVersion where
  v : VersionInt
  req : String
  deriving DecidableEq

/-- The version-exchange message. -/
structure VerMsg where
  peerId : PeerID
  version : WireVersion
  protocols : HashMap ProtocolID WireVersion

instance : DecidableEq VerMsg := fun first second =>
  decidable_of_iff (first.peerId = second.peerId ∧ first.version = second.version ∧
    first.protocols.entries = second.protocols.entries) (by
      cases first
      cases second
      simp [AList.ext_iff])

/-- The answer to a version message. -/
structure VerAckMsg where
  peerId : PeerID
  ack : Bool
  deriving DecidableEq

/-- Version messages that differ at most in the iteration order of their protocol maps. -/
def VerMsg.Same (first second : VerMsg) : Prop :=
  first.peerId = second.peerId ∧ first.version = second.version ∧
    HashMap.Same first.protocols second.protocols

/-- The libraries the handshake runs on. -/
structure HandshakeDeps where
  semver : Semver
  verMsg : Bincode VerMsg
  verAck : Bincode VerAckMsg

/-- What is relied on of these libraries. -/
structure HandshakeDeps.Lawful (deps : HandshakeDeps) : Prop where
  semver : deps.semver.Lawful
  verMsg : deps.verMsg.RoundTrips VerMsg.Same
  verAck : deps.verAck.RoundTrips Eq

variable (deps : HandshakeDeps)

/-- The non-IO inputs to the handshake. -/
structure HandshakeParams where
  ownId : PeerID
  configVersion : Version deps.semver
  protocols : HashMap ProtocolID (ProtocolMeta deps.semver)
  verifiedPeerId : Option PeerID

variable {deps}

def WireVersion.of (version : Version deps.semver) : WireVersion :=
  { v := version.v, req := deps.semver.toString version.req }

/-! ### The validations -/

/-- Each side accepts the other side's version. -/
def mutualMatch (ours : Version deps.semver) (theirs : WireVersion) : Bool :=
  match deps.semver.parse theirs.req with
  | none => false
  | some theirReq =>
    deps.semver.matches ours.req theirs.v && deps.semver.matches theirReq ours.v

/-- The protocols both sides have in versions that accept each other, in the iteration order
of their map. -/
def protocolsIntersection (ourProtocols : HashMap ProtocolID (ProtocolMeta deps.semver))
    (theirProtocols : HashMap ProtocolID WireVersion) : List ProtocolID :=
  theirProtocols.entries.filterMap fun binding =>
    match ourProtocols.lookup binding.1 with
    | some ourMeta => if mutualMatch ourMeta.version binding.2 then some binding.1 else none
    | none => none

/-- Some local protocol is required but not shared. -/
def missesRequired (protocols : HashMap ProtocolID (ProtocolMeta deps.semver))
    (shared : List ProtocolID) : Bool :=
  protocols.entries.any fun binding =>
    binding.2.flags.contains .REQUIRED && !shared.any fun p => p == binding.1

def validateVersionMsg (msg : PeerNetMsg) (p : HandshakeParams deps) :
    Except Error (PeerID × List ProtocolID) := do
  let (vermsg, _) ← deps.verMsg.decode msg.payload
  if !mutualMatch p.configVersion vermsg.version then
    throw (.incompatibleVersion "system version")
  if let some vpid := p.verifiedPeerId then
    if vpid ≠ vermsg.peerId then
      throw .incompatiblePeer
  let shared := protocolsIntersection p.protocols vermsg.protocols
  if shared.isEmpty then
    throw .incompatiblePeer
  if missesRequired p.protocols shared then
    throw .incompatiblePeer
  return (vermsg.peerId, shared)

def validateVerackMsg (deps : HandshakeDeps) (msg : PeerNetMsg) (pid : PeerID) :
    Except Error Unit := do
  let (verack, _) ← deps.verAck.decode msg.payload
  if !verack.ack || verack.peerId ≠ pid then
    throw .incompatiblePeer

/-! ### The handshake program -/

variable (p : HandshakeParams deps)

def HandshakeParams.vermsg : VerMsg :=
  { peerId := p.ownId
    version := .of p.configVersion
    protocols := HashMap.mapValues (fun m => .of m.version) p.protocols }

abbrev HandshakeM := ExceptT Error (Prog PeerNetMsg Error)

def sendVermsg : HandshakeM Unit := do
  let msg ← liftExcept (PeerNetMsg.new deps.verMsg .version p.vermsg)
  sendMsg msg

def sendVerack (deps : HandshakeDeps) (ownId : PeerID) (ack : Bool) : HandshakeM Unit := do
  let msg ← liftExcept (PeerNetMsg.new deps.verAck .verack { peerId := ownId, ack })
  sendMsg msg

def unexpectedMsg (command : PeerNetCmd) : Error :=
  .invalidMsg ("unexpected msg found " ++ command.debug)

def checkVersion (msg : PeerNetMsg) : Except Error (PeerID × List ProtocolID) :=
  match msg.header.command with
  | .version => validateVersionMsg msg p
  | command => .error (unexpectedMsg command)

def checkVerack (deps : HandshakeDeps) (pid : PeerID) (msg : PeerNetMsg) : Except Error Unit :=
  match msg.header.command with
  | .verack => validateVerackMsg deps msg pid
  | command => .error (unexpectedMsg command)

/-- Run the handshake. Both sides send a version message, check the remote one with the same
rules and answer with an acknowledgement. -/
def handshake : HandshakeM (PeerID × List ProtocolID) := do
  sendVermsg p
  let msg ← recvMsg
  let result := checkVersion p msg
  match result with
  | .ok _ => sendVerack deps p.ownId true
  | .error (.incompatibleVersion _) | .error .incompatiblePeer => sendVerack deps p.ownId false
  | _ => pure ()
  let (pid, shared) ← liftExcept result
  let msg ← recvMsg
  liftExcept (checkVerack deps pid msg)
  return (pid, shared)

/-! ### The stages of the program -/

/-- The program of the handshake, with its result as a value. -/
abbrev HandshakeProg := Prog PeerNetMsg Error (Except Error (PeerID × List ProtocolID))

/-- The errors the handshake answers with a negative acknowledgement. -/
def rejects : Error → Bool
  | .incompatibleVersion _ => true
  | .incompatiblePeer => true
  | _ => false

def verackMsg (ack : Bool) : Except Error PeerNetMsg :=
  PeerNetMsg.new deps.verAck .verack { peerId := p.ownId, ack }

/-- The end of a handshake that accepted the remote's version message. -/
def awaitVerack (deps : HandshakeDeps) (pid : PeerID) (shared : List ProtocolID) :
    HandshakeProg :=
  .recvThen fun msg => .orFail (checkVerack deps pid msg) fun _ => .done (.ok (pid, shared))

/-- The answer to the first message, and what follows it. -/
def answer (msg : PeerNetMsg) : HandshakeProg :=
  match checkVersion p msg with
  | .ok (pid, shared) => .orFail (verackMsg p true) fun ack =>
      .sendThen ack (awaitVerack deps pid shared)
  | .error error =>
    if rejects error then .orFail (verackMsg p false) fun nack =>
      .sendThen nack (.done (.error error))
    else .done (.error error)

/-- The handshake sends its version message, then answers the first message it receives. -/
theorem handshake_run :
    (handshake p).run = .orFail (PeerNetMsg.new deps.verMsg .version p.vermsg) fun msg =>
      .sendThen msg (.recvThen (answer p)) := by
  have verack (ack : Bool) (next : Unit → HandshakeM (PeerID × List ProtocolID)) :
      (sendVerack deps p.ownId ack >>= next).run =
        .orFail (verackMsg p ack) fun msg => .sendThen msg (next ()).run := by
    rw [sendVerack, bind_assoc, run_liftExcept_bind]
    refine congrArg (Prog.orFail _) (funext fun msg => ?_)
    rw [run_sendMsg_bind]
  rw [handshake, sendVermsg, bind_assoc, run_liftExcept_bind]
  refine congrArg (Prog.orFail _) (funext fun msg => ?_)
  rw [run_sendMsg_bind, run_recvMsg_bind]
  refine congrArg (fun next => Prog.sendThen msg (Prog.recvThen next)) (funext fun first => ?_)
  rw [answer]
  have finish (pid : PeerID) (shared : List ProtocolID) :
      (do
        let msg ← recvMsg
        liftExcept (checkVerack deps pid msg)
        return (pid, shared) : HandshakeM (PeerID × List ProtocolID)).run =
        awaitVerack deps pid shared := by
    rw [run_recvMsg_bind, awaitVerack]
    refine congrArg Prog.recvThen (funext fun msg => ?_)
    rw [run_liftExcept_bind]
    rfl
  cases checkVersion p first with
  | ok accepted =>
    simp only
    rw [verack, run_liftExcept_bind, Prog.orFail, finish]
  | error error =>
    cases error <;> simp only [rejects, Bool.false_eq_true, if_true, if_false]
    all_goals first
      | rw [verack, run_liftExcept_bind]; rfl
      | rfl

/-! ### What the validations check -/

/-- The local version and the one received accept each other. -/
def Accept (ours : Version deps.semver) (theirs : WireVersion) : Prop :=
  ∃ theirReq, deps.semver.parse theirs.req = some theirReq ∧
    deps.semver.matches ours.req theirs.v = true ∧
    deps.semver.matches theirReq ours.v = true

theorem mutualMatch_iff (ours : Version deps.semver) (theirs : WireVersion) :
    mutualMatch ours theirs = true ↔ Accept ours theirs := by
  unfold mutualMatch Accept
  cases deps.semver.parse theirs.req with
  | none | some theirReq => simp

section

variable (ours : HashMap ProtocolID (ProtocolMeta deps.semver))
  (theirs : HashMap ProtocolID WireVersion)

include ours theirs

/-- The shared protocols are the ids present in both maps whose versions accept each other. -/
theorem mem_protocolsIntersection (id : ProtocolID) :
    id ∈ protocolsIntersection ours theirs ↔
      ∃ ourMeta theirVersion, ours.lookup id = some ourMeta ∧
        theirs.lookup id = some theirVersion ∧ Accept ourMeta.version theirVersion := by
  have bound (version : WireVersion) :
      (⟨id, version⟩ : Sigma fun _ : ProtocolID => WireVersion) ∈ theirs.entries ↔
        theirs.lookup id = some version := by
    rw [← Option.mem_def, AList.mem_lookup_iff]
  unfold protocolsIntersection
  rw [List.mem_filterMap]
  constructor
  · rintro ⟨⟨name, version⟩, member, selected⟩
    simp only at selected
    split at selected
    · rename_i ourMeta found
      obtain ⟨accepted, ⟨⟩⟩ := Option.ite_none_right_eq_some.mp selected
      exact ⟨ourMeta, version, found, (bound version).mp member,
        (mutualMatch_iff _ _).mp accepted⟩
    · cases selected
  · rintro ⟨ourMeta, version, found, theirsFound, accepted⟩
    refine ⟨⟨id, version⟩, (bound version).mpr theirsFound, ?_⟩
    simp only [found]
    rw [if_pos ((mutualMatch_iff _ _).mpr accepted)]

theorem nodup_protocolsIntersection : (protocolsIntersection ours theirs).Nodup := by
  have selected : protocolsIntersection ours theirs =
      (theirs.entries.filter fun binding =>
        match ours.lookup binding.1 with
        | some ourMeta => mutualMatch ourMeta.version binding.2
        | none => false).map Sigma.fst := by
    unfold protocolsIntersection
    induction theirs.entries with
    | nil => rfl
    | cons binding rest inductionHypothesis =>
      rw [List.filterMap_cons, List.filter_cons]
      cases ours.lookup binding.1 with
      | none => simpa using inductionHypothesis
      | some ourMeta =>
        cases accepted : mutualMatch ourMeta.version binding.2 <;>
          simp [accepted, inductionHypothesis]
  rw [selected]
  exact theirs.keys_nodup.sublist (List.filter_sublist.map _)

end

/-- The conditions on the remote's version message. -/
structure Acceptable (p : HandshakeParams deps) (vermsg : VerMsg) : Prop where
  version : Accept p.configVersion vermsg.version
  verified : ∀ vpid, p.verifiedPeerId = some vpid → vermsg.peerId = vpid
  nonempty : protocolsIntersection p.protocols vermsg.protocols ≠ []
  required : ∀ id ourMeta, p.protocols.lookup id = some ourMeta →
    ourMeta.flags.contains .REQUIRED = true →
      id ∈ protocolsIntersection p.protocols vermsg.protocols

theorem missesRequired_eq_false_iff (protocols : HashMap ProtocolID (ProtocolMeta deps.semver))
    (shared : List ProtocolID) :
    missesRequired protocols shared = false ↔
      ∀ id ourMeta, protocols.lookup id = some ourMeta →
        ourMeta.flags.contains .REQUIRED = true → id ∈ shared := by
  unfold missesRequired
  rw [List.any_eq_false]
  constructor
  · intro all id ourMeta found required
    have member := AList.mem_lookup_iff.mp (Option.mem_def.mpr found)
    have checked := all _ member
    simpa [required] using checked
  · rintro all ⟨id, ourMeta⟩ member
    have found : protocols.lookup id = some ourMeta := AList.mem_lookup_iff.mpr member
    simp only [Bool.and_eq_true, not_and, Bool.not_eq_true, Bool.not_eq_false']
    intro required
    simpa using all id ourMeta found required

/-- The checks of a decoded version message, in their order. -/
theorem validateVersionMsg_of_decode {msg : PeerNetMsg} {vermsg : VerMsg} {length : Nat}
    (decoded : deps.verMsg.decode msg.payload = .ok (vermsg, length)) :
    validateVersionMsg msg p =
      if mutualMatch p.configVersion vermsg.version = false then
        .error (.incompatibleVersion "system version")
      else if ∃ vpid, p.verifiedPeerId = some vpid ∧ vpid ≠ vermsg.peerId then
        .error .incompatiblePeer
      else if protocolsIntersection p.protocols vermsg.protocols = [] then
        .error .incompatiblePeer
      else if missesRequired p.protocols
          (protocolsIntersection p.protocols vermsg.protocols) = true then
        .error .incompatiblePeer
      else .ok (vermsg.peerId, protocolsIntersection p.protocols vermsg.protocols) := by
  unfold validateVersionMsg
  rw [decoded]
  simp only [bind, Except.bind, pure, Except.pure, throw, throwThe, MonadExceptOf.throw,
    Bool.not_eq_true', List.isEmpty_iff]
  split
  · rfl
  · cases verified : p.verifiedPeerId with
    | none => simp
    | some vpid =>
      by_cases same : vpid = vermsg.peerId
      · simp [same]
      · simp [same]

/-- A version message passes exactly when it decodes and meets the conditions. -/
theorem validateVersionMsg_eq_ok_iff (msg : PeerNetMsg) (p : HandshakeParams deps)
    (pid : PeerID) (shared : List ProtocolID) :
    validateVersionMsg msg p = .ok (pid, shared) ↔
      ∃ vermsg length, deps.verMsg.decode msg.payload = .ok (vermsg, length) ∧
        Acceptable p vermsg ∧ pid = vermsg.peerId ∧
        shared = protocolsIntersection p.protocols vermsg.protocols := by
  constructor
  · intro passed
    obtain ⟨⟨vermsg, length⟩, decoded, _⟩ := Fallible.bind_eq_ok.mp passed
    rw [validateVersionMsg_of_decode p decoded] at passed
    split at passed
    · cases passed
    · rename_i version
      split at passed
      · cases passed
      · rename_i verified
        split at passed
        · cases passed
        · rename_i nonempty
          split at passed
          · cases passed
          · rename_i required
            cases passed
            refine ⟨vermsg, length, decoded, ⟨?_, ?_, nonempty, ?_⟩, rfl, rfl⟩
            · exact (mutualMatch_iff _ _).mp (Bool.eq_true_of_not_eq_false version)
            · intro vpid found
              by_contra different
              exact verified ⟨vpid, found, fun same => different same.symm⟩
            · exact (missesRequired_eq_false_iff _ _).mp (Bool.eq_false_of_not_eq_true required)
  · rintro ⟨vermsg, length, decoded, acceptable, rfl, rfl⟩
    rw [validateVersionMsg_of_decode p decoded, if_neg, if_neg, if_neg acceptable.nonempty, if_neg]
    · rw [(missesRequired_eq_false_iff _ _).mpr acceptable.required]
      exact Bool.false_ne_true
    · rintro ⟨vpid, found, different⟩
      exact different (acceptable.verified vpid found).symm
    · rw [(mutualMatch_iff _ _).mpr acceptable.version]
      exact Bool.noConfusion

theorem checkVersion_eq_ok_iff (msg : PeerNetMsg) (pid : PeerID) (shared : List ProtocolID) :
    checkVersion p msg = .ok (pid, shared) ↔
      msg.header.command = .version ∧
        ∃ vermsg length, deps.verMsg.decode msg.payload = .ok (vermsg, length) ∧
          Acceptable p vermsg ∧ pid = vermsg.peerId ∧
          shared = protocolsIntersection p.protocols vermsg.protocols := by
  rw [← validateVersionMsg_eq_ok_iff]
  unfold checkVersion
  cases msg.header.command <;> simp

theorem checkVerack_eq_ok_iff (pid : PeerID) (msg : PeerNetMsg) :
    checkVerack deps pid msg = .ok () ↔
      msg.header.command = .verack ∧
        ∃ length, deps.verAck.decode msg.payload = .ok (⟨pid, true⟩, length) := by
  unfold checkVerack
  cases msg.header.command with
  | version | protocol | shutdown => simp
  | verack =>
    simp only [true_and, validateVerackMsg, bind, Except.bind]
    cases deps.verAck.decode msg.payload with
    | error error => simp
    | ok result =>
      obtain ⟨⟨peerId, ack⟩, length⟩ := result
      cases ack with
      | false => simp [throw, throwThe, MonadExceptOf.throw]
      | true =>
        by_cases same : peerId = pid
        · simp [same, pure, Except.pure]
        · simp [same, throw, throwThe, MonadExceptOf.throw]

/-! ### Soundness against any remote -/

variable {p : HandshakeParams deps} {trace : List (Event PeerNetMsg Error)} {last : HandshakeProg}

/-- A run of the handshake has either received a first message and is answering it, or it has
neither succeeded nor sent anything but its version message. -/
theorem handshake_steps (steps : Prog.Steps (handshake p).run trace last) :
    (∃ own first rest, trace = .sent own (.ok ()) :: .received (.ok first) :: rest ∧
      own.header.command = .version ∧ Prog.Steps (answer p first) rest last) ∨
    ((∀ result, last ≠ .done (.ok result)) ∧
      ∀ msg outcome, .sent msg outcome ∈ trace → msg.header.command = .version) := by
  rw [handshake_run] at steps
  rcases steps.of_orFail with ⟨error, _, rfl, rfl⟩ | ⟨own, encoded, sending⟩
  · exact Or.inr ⟨nofun, nofun⟩
  have command : own.header.command = .version := by
    obtain ⟨payload, _, rfl⟩ := PeerNetMsg.new_eq_ok encoded
    rfl
  rcases sending.of_sendThen with ⟨rfl, rfl⟩ | ⟨error, rfl, rfl⟩ | ⟨rest, rfl, receiving⟩
  · exact Or.inr ⟨nofun, nofun⟩
  · refine Or.inr ⟨nofun, fun msg outcome member => ?_⟩
    cases List.mem_singleton.mp member
    exact command
  rcases receiving.of_recvThen with ⟨rfl, rfl⟩ | ⟨error, rfl, rfl⟩ |
    ⟨first, rest, rfl, answering⟩
  · refine Or.inr ⟨nofun, fun msg outcome member => ?_⟩
    cases List.mem_singleton.mp member
    exact command
  · refine Or.inr ⟨nofun, fun msg outcome member => ?_⟩
    rcases List.mem_cons.mp member with same | member
    · cases same
      exact command
    · cases List.mem_singleton.mp member
  · exact Or.inl ⟨own, first, rest, rfl, command, answering⟩

/-- An answer that acknowledges accepted the first message, and it succeeds only with the
remote's acknowledgement; an answer that rejects sends at most a negative one. -/
theorem answer_steps {first : PeerNetMsg} (steps : Prog.Steps (answer p first) trace last) :
    (∃ pid shared, checkVersion p first = .ok (pid, shared) ∧
      ∀ result, last = .done (.ok result) → result = (pid, shared) ∧
        ∃ ack second, trace = [.sent ack (.ok ()), .received (.ok second)] ∧
          checkVerack deps pid second = .ok ()) ∨
    ((∀ result, last ≠ .done (.ok result)) ∧
      ∀ msg outcome, .sent msg outcome ∈ trace → verackMsg p false = .ok msg) := by
  unfold answer at steps
  split at steps
  · rename_i pid shared accepted
    refine Or.inl ⟨pid, shared, accepted, fun result success => ?_⟩
    subst success
    rcases steps.of_orFail with ⟨error, _, _, impossible⟩ | ⟨ack, _, sending⟩
    · cases impossible
    rcases sending.of_sendThen with ⟨_, impossible⟩ | ⟨error, _, impossible⟩ |
      ⟨rest, rfl, receiving⟩
    · cases impossible
    · cases impossible
    rcases receiving.of_recvThen with ⟨_, impossible⟩ | ⟨error, _, impossible⟩ |
      ⟨second, rest, rfl, checking⟩
    · cases impossible
    · cases impossible
    rcases checking.of_orFail with ⟨error, _, _, impossible⟩ | ⟨_, acknowledged, returning⟩
    · cases impossible
    obtain ⟨rfl, ⟨⟩⟩ := returning.of_done
    exact ⟨rfl, ack, second, rfl, acknowledged⟩
  · refine Or.inr ?_
    split at steps
    · rcases steps.of_orFail with ⟨error, _, rfl, rfl⟩ | ⟨nack, encoded, sending⟩
      · exact ⟨nofun, nofun⟩
      rcases sending.of_sendThen with ⟨rfl, rfl⟩ | ⟨error, rfl, rfl⟩ | ⟨rest, rfl, returning⟩
      · exact ⟨nofun, nofun⟩
      · refine ⟨nofun, fun msg outcome member => ?_⟩
        cases List.mem_singleton.mp member
        exact encoded
      · obtain ⟨rfl, rfl⟩ := returning.of_done
        refine ⟨nofun, fun msg outcome member => ?_⟩
        cases List.mem_singleton.mp member
        exact encoded
    · obtain ⟨rfl, rfl⟩ := steps.of_done
      exact ⟨nofun, nofun⟩

/-- The negative acknowledgement of the local node does not read as a positive one. -/
theorem verackMsg_false (roundTrips : deps.verAck.RoundTrips Eq) {msg : PeerNetMsg}
    (encoded : verackMsg p false = .ok msg) (peerId : PeerID) (length : Nat) :
    deps.verAck.decode msg.payload ≠ .ok (⟨peerId, true⟩, length) := by
  obtain ⟨payload, bytes, rfl⟩ := PeerNetMsg.new_eq_ok encoded
  obtain ⟨decoded, read, decodes, rfl⟩ := roundTrips _ _ bytes
  simp [decodes]

/-- Soundness of the handshake. Whatever the remote sends, and however receives and sends end,
a handshake that returned a peer id and a protocol list has received a version message that
decodes and then an acknowledgement of it; the id is the one the version message claims and
the one the transport verified; the system versions accept each other; the list is
duplicate-free, nonempty, exactly the ids of both maps whose versions accept each other, and
has every required protocol. And the local side sends a positive acknowledgement only after it
received a version message that meets all the conditions. -/
theorem handshake_sound (roundTrips : deps.verAck.RoundTrips Eq) (p : HandshakeParams deps)
    (trace : List (Event PeerNetMsg Error)) :
    (∀ pid shared, Prog.Steps (handshake p).run trace (.done (.ok (pid, shared))) →
      ∃ before between after first second vermsg firstLength secondLength,
        trace = before ++ .received (.ok first) ::
          (between ++ .received (.ok second) :: after) ∧
        first.header.command = .version ∧
        deps.verMsg.decode first.payload = .ok (vermsg, firstLength) ∧
        second.header.command = .verack ∧
        deps.verAck.decode second.payload = .ok (⟨pid, true⟩, secondLength) ∧
        pid = vermsg.peerId ∧
        (∀ vpid, p.verifiedPeerId = some vpid → pid = vpid) ∧
        Accept p.configVersion vermsg.version ∧
        shared.Nodup ∧ shared ≠ [] ∧
        (∀ id, id ∈ shared ↔ ∃ ourMeta theirVersion, p.protocols.lookup id = some ourMeta ∧
          vermsg.protocols.lookup id = some theirVersion ∧
          Accept ourMeta.version theirVersion) ∧
        ∀ id ourMeta, p.protocols.lookup id = some ourMeta →
          ourMeta.flags.contains .REQUIRED = true → id ∈ shared) ∧
    ∀ last, Prog.Steps (handshake p).run trace last →
      ∀ before after msg outcome peerId length, trace = before ++ .sent msg outcome :: after →
        msg.header.command = .verack →
        deps.verAck.decode msg.payload = .ok (⟨peerId, true⟩, length) →
          ∃ first vermsg firstLength, .received (.ok first) ∈ before ∧
            first.header.command = .version ∧
            deps.verMsg.decode first.payload = .ok (vermsg, firstLength) ∧
            Acceptable p vermsg := by
  constructor
  · intro pid shared steps
    rcases handshake_steps steps with ⟨own, first, rest, rfl, _, answering⟩ | ⟨failed, _⟩
    · rcases answer_steps answering with ⟨_, _, accepted, success⟩ | ⟨failed, _⟩
      · obtain ⟨same, ack, second, rfl, acknowledged⟩ := success _ rfl
        cases same
        obtain ⟨command, vermsg, firstLength, decoded, acceptable, identity, rfl⟩ :=
          (checkVersion_eq_ok_iff _ _ _ _).mp accepted
        obtain ⟨verackCommand, secondLength, verackDecoded⟩ :=
          (checkVerack_eq_ok_iff _ _).mp acknowledged
        exact ⟨[.sent own (.ok ())], [.sent ack (.ok ())], [], first, second, vermsg, firstLength,
          secondLength, rfl, command, decoded, verackCommand, verackDecoded, identity,
          fun vpid verified => identity.trans (acceptable.verified vpid verified),
          acceptable.version, nodup_protocolsIntersection _ _, acceptable.nonempty,
          mem_protocolsIntersection _ _, acceptable.required⟩
      · exact absurd rfl (failed _)
    · exact absurd rfl (failed _)
  · intro last steps before after msg outcome peerId length shape isVerack positive
    rcases handshake_steps steps with ⟨own, first, rest, rfl, ownCommand, answering⟩ |
      ⟨_, onlyVersion⟩
    · match before with
      | [] =>
        cases shape
        rw [ownCommand] at isVerack
        cases isVerack
      | [_] => cases shape
      | _ :: _ :: tail =>
        cases shape
        rcases answer_steps answering with ⟨_, _, accepted, _⟩ | ⟨_, negative⟩
        · obtain ⟨command, vermsg, firstLength, decoded, acceptable, _⟩ :=
            (checkVersion_eq_ok_iff _ _ _ _).mp accepted
          exact ⟨first, vermsg, firstLength, by simp, command, decoded, acceptable⟩
        · have encoded := negative msg outcome (by simp)
          exact absurd positive (verackMsg_false roundTrips encoded peerId length)
    · have command := onlyVersion msg outcome (by rw [shape]; simp)
      rw [isVerack] at command
      cases command

/-! ### Two sample nodes -/

/-- The requirements `*` and `1`. -/
def sampleSemver : Semver where
  VersionReq := Bool
  parse text := if text = "*" then some true else if text = "1" then some false else none
  toString any := if any then "*" else "1"
  «matches» any version := any || version.major == 1

theorem sampleSemver_lawful : sampleSemver.Lawful := by
  intro req
  refine ⟨req, ?_, fun version => rfl⟩
  cases req with
  | false | true => rfl

def aliceId : PeerID := ⟨Vector.replicate 32 1⟩
def bobId : PeerID := ⟨Vector.replicate 32 2⟩

def aliceVermsg : VerMsg where
  peerId := aliceId
  version := ⟨⟨1, 2, 0⟩, "1"⟩
  protocols := [⟨"chat", ⟨⟨1, 0, 0⟩, "1"⟩⟩, ⟨"ping", ⟨⟨2, 0, 0⟩, "*"⟩⟩].toAList

def bobVermsg : VerMsg where
  peerId := bobId
  version := ⟨⟨1, 3, 0⟩, "*"⟩
  protocols := [⟨"swarm", ⟨⟨1, 0, 0⟩, "*"⟩⟩, ⟨"chat", ⟨⟨1, 1, 0⟩, "*"⟩⟩].toAList

def sampleDeps : HandshakeDeps where
  semver := sampleSemver
  verMsg := .ofTable [aliceVermsg, bobVermsg]
  verAck := .ofTable [⟨aliceId, true⟩, ⟨bobId, true⟩, ⟨aliceId, false⟩, ⟨bobId, false⟩]

theorem sampleDeps_lawful : sampleDeps.Lawful where
  semver := sampleSemver_lawful
  verMsg := Bincode.ofTable_roundTrips _ fun _ => ⟨rfl, rfl, fun _ => rfl⟩
  verAck := Bincode.ofTable_roundTrips _ fun _ => rfl

/-- A node that requires the chat protocol and knows the identity of the remote. -/
def alice : HandshakeParams sampleDeps where
  ownId := aliceId
  configVersion := ⟨⟨1, 2, 0⟩, false⟩
  protocols :=
    [⟨"chat", ⟨⟨⟨1, 0, 0⟩, false⟩, .REQUIRED⟩⟩, ⟨"ping", ⟨⟨⟨2, 0, 0⟩, true⟩, ⟨0⟩⟩⟩].toAList
  verifiedPeerId := some bobId

/-- A node with another protocol besides the chat protocol. -/
def bob : HandshakeParams sampleDeps where
  ownId := bobId
  configVersion := ⟨⟨1, 3, 0⟩, true⟩
  protocols :=
    [⟨"swarm", ⟨⟨⟨1, 0, 0⟩, true⟩, ⟨0⟩⟩⟩, ⟨"chat", ⟨⟨⟨1, 1, 0⟩, true⟩, .REQUIRED⟩⟩].toAList
  verifiedPeerId := none

example : alice.vermsg = aliceVermsg ∧ bob.vermsg = bobVermsg := by decide

/-- A run of the first node against the messages of the second one. -/
theorem handshake_sound_chat :
    ∃ trace, Prog.Steps (handshake alice).run trace (.done (.ok (bobId, ["chat"]))) ∧
      (∃ vermsg : VerMsg, bobId = vermsg.peerId ∧
        Accept alice.configVersion vermsg.version) ∧
      (∀ vpid, alice.verifiedPeerId = some vpid → bobId = vpid) ∧
      ∀ id ourMeta, alice.protocols.lookup id = some ourMeta →
        ourMeta.flags.contains .REQUIRED = true → id ∈ ["chat"] := by
  have run : Prog.Steps (handshake alice).run
      [.sent ⟨⟨.version⟩, []⟩ (.ok ()), .received (.ok ⟨⟨.version⟩, [0]⟩),
        .sent ⟨⟨.verack⟩, []⟩ (.ok ()), .received (.ok ⟨⟨.verack⟩, [0]⟩)]
      (.done (.ok (bobId, ["chat"]))) :=
    .send (.ok ()) (.recv (.ok _) (.send (.ok ()) (.recv (.ok _) (.refl _))))
  obtain ⟨_, _, _, _, _, vermsg, _, _, _, _, _, _, _, identity, verified, version, _, _, _,
    required⟩ := (handshake_sound sampleDeps_lawful.verAck alice _).1 _ _ run
  exact ⟨_, run, ⟨vermsg, identity, version⟩, verified, required⟩

end Karyon.P2p
