/-
This file models how connections to other peers come about: the dialling of `p2p/src/connector.rs`,
the accepting of `listener.rs`, the certificate checks of `tls_config.rs`, and what one turn of the
peer pool's loop in `peer_pool.rs` does with a connection.

What `verify_cert` makes of a certificate is a parameter. A TLS or QUIC handshake checks the first
certificate of the chain that the remote presents and reports that chain afterwards.

A dial has an identity in mind. On TLS and QUIC the certificate has to carry it, and the handshake
of the peers holds the remote to it. On TCP nothing does: the peer is admitted under whatever id it
claims (`dial_admits_expected_iff`).
-/

import Karyon.P2p.Handshake
import Karyon.P2p.Wire
import Karyon.Net.Address

namespace Karyon.P2p

open Interaction Karyon.Net

/-! ### Certificates -/

/-- The reasons for which a certificate is refused. -/
inductive CertificateError where
  | badEncoding
  | badSignature
  | notValidYet
  | applicationVerificationFailure

/-- Certificates, what `verify_cert` makes of them, and the error of a secure handshake in which
the remote presented no certificate or one that was refused. -/
structure CertDeps where
  Cert : Type
  verifyCert : Cert → Except CertificateError PeerID
  refused : Option CertificateError → Error

variable (tls : CertDeps)

def peerIdFromCerts (certs : List tls.Cert) : Option PeerID :=
  match certs with
  | [] => none
  | endEntity :: _ => (tls.verifyCert endEntity).toOption

/-- The dialling side checks the certificate, and the peer id in it if it expects one. -/
def verifyServerCert (peerId : Option PeerID) (endEntity : tls.Cert) :
    Except CertificateError Unit := do
  let certified ← tls.verifyCert endEntity
  if let some pid := peerId then
    if pid ≠ certified then
      throw .applicationVerificationFailure

def verifyClientCert (endEntity : tls.Cert) : Except CertificateError Unit := do
  let _ ← tls.verifyCert endEntity

/-! ### Connections -/

/-- What the remote end does while a connection is set up: whether the transport connects (for an
accepted connection, whether its endpoint is let in as well), the certificates it presents,
whether the rest of the secure handshake succeeds, and whether the first QUIC stream opens. -/
structure Remote where
  connects : Except Error Unit
  certs : List tls.Cert
  secures : Except Error Unit
  opens : Except Error Unit

variable {tls} in
/-- A secure handshake in which the remote has to present a certificate. It reports the chain
whose first certificate was verified. -/
def secureHandshake (verify : tls.Cert → Except CertificateError Unit) (remote : Remote tls) :
    Except Error (List tls.Cert) :=
  match remote.certs with
  | [] => .error (tls.refused none)
  | endEntity :: _ =>
    match verify endEntity with
    | .error reason => .error (tls.refused (some reason))
    | .ok () => remote.secures.map fun _ => remote.certs

inductive ConnectError where
  | unsupportedEndpoint (endpoint : Endpoint)
  | transport (error : Error)

/-- A connection that waits for its handshake, with the peer id that the transport verified. -/
structure PendingConn where
  direction : ConnDirection
  verifiedPeerId : Option PeerID

/-- The transport of an endpoint authenticates the remote. -/
def secured : Endpoint → Bool
  | .tls _ _ => true
  | .quic _ _ => true
  | _ => false

/-- Dial an endpoint, with a transport that depends on its kind. The result is the peer id that
the transport verified. -/
def dial (endpoint : Endpoint) (peerId : Option PeerID) (remote : Remote tls) :
    Except ConnectError (Option PeerID) :=
  match endpoint with
  | .tcp _ _ => (remote.connects.map fun _ => none).mapError .transport
  | .tls _ _ => Except.mapError .transport do
    remote.connects
    let certs ← secureHandshake (verifyServerCert tls peerId) remote
    return peerIdFromCerts tls certs
  | .quic _ _ => Except.mapError .transport do
    remote.connects
    let certs ← secureHandshake (verifyServerCert tls peerId) remote
    remote.opens
    return peerIdFromCerts tls certs
  | _ => .error (.unsupportedEndpoint endpoint)

/-- Dial with retries; `remotes` is what the remote end does at each of them. -/
def connectInternal (endpoint : Endpoint) (peerId : Option PeerID) (remotes : Nat → Remote tls) :
    (left retry : Nat) → Except ConnectError (Option PeerID)
  | 0, _ => .error (.transport .timeout)
  | left + 1, retry =>
    match dial tls endpoint peerId (remotes retry) with
    | .ok result => .ok result
    | .error _ => connectInternal endpoint peerId remotes left (retry + 1)

/-- Dial a peer and queue the connection for its handshake. -/
def connectAndQueue (maxRetries : Nat) (endpoint : Endpoint) (peerId : Option PeerID)
    (remotes : Nat → Remote tls) : Except ConnectError PendingConn :=
  (connectInternal tls endpoint peerId remotes maxRetries 0).map fun verifiedPeerId =>
    { direction := .outbound, verifiedPeerId }

/-- Accept a connection on a listening endpoint and queue it for its handshake. -/
def acceptAndQueue (endpoint : Endpoint) (remote : Remote tls) :
    Except ConnectError PendingConn :=
  match endpoint with
  | .tcp _ _ =>
    (remote.connects.map fun _ =>
      { direction := .inbound, verifiedPeerId := none }).mapError .transport
  | .tls _ _ => Except.mapError .transport do
    remote.connects
    let certs ← secureHandshake (verifyClientCert tls) remote
    return { direction := .inbound, verifiedPeerId := peerIdFromCerts tls certs }
  | .quic _ _ => Except.mapError .transport do
    remote.connects
    let certs ← secureHandshake (verifyClientCert tls) remote
    remote.opens
    return { direction := .inbound, verifiedPeerId := peerIdFromCerts tls certs }
  | _ => .error (.unsupportedEndpoint endpoint)

/-! ### Admission -/

variable {deps : HandshakeDeps}

/-- What the pool decides about a connection after its handshake: the policy of the node, whether
the peer is already connected, and whether its wire can be set up. -/
structure Admission where
  allow : PeerID → List ProtocolID → Bool
  containsPeer : PeerID → Bool
  setup : PeerID → List ProtocolID → Except Error Unit

/-- The checks between the handshake and the insertion of the peer, and the id under which it is
inserted. -/
def Admission.newPeer (admission : Admission) (pid : PeerID) (negotiated : List ProtocolID) :
    Except Error PeerID :=
  if !admission.allow pid negotiated then
    .error .accessDenied
  else if admission.containsPeer pid then
    .error .peerAlreadyConnected
  else
    (admission.setup pid negotiated).map fun _ => pid

/-- One turn of the pool's loop: the handshake, the policy, and the insertion of a new peer. -/
def admitPeer (p : HandshakeParams deps) (admission : Admission) (queued : PendingConn) :
    HandshakeM PeerID := do
  let (pid, negotiated) ← handshake { p with verifiedPeerId := queued.verifiedPeerId }
  liftExcept (admission.newPeer pid negotiated)

/-- The first message that was received. -/
def firstReceived : List (Event PeerNetMsg Error) → Option PeerNetMsg
  | [] => none
  | .received (.ok msg) :: _ => some msg
  | _ :: rest => firstReceived rest

/-- The peer id that the remote's version message claims. -/
def claimedId (deps : HandshakeDeps) (trace : List (Event PeerNetMsg Error)) : Option PeerID :=
  (firstReceived trace).bind fun msg =>
    match deps.verMsg.decode msg.payload with
    | .ok (vermsg, _) => some vermsg.peerId
    | .error _ => none

/-! ### What a certificate proves -/

variable {tls} {endEntity : tls.Cert}

theorem verifyServerCert_eq_ok {peerId : Option PeerID}
    (verified : verifyServerCert tls peerId endEntity = .ok ()) :
    ∃ certified, tls.verifyCert endEntity = .ok certified ∧
      ∀ expected, peerId = some expected → expected = certified := by
  obtain ⟨certified, outcome, compared⟩ := Fallible.bind_eq_ok.mp verified
  refine ⟨certified, outcome, fun expected wanted => ?_⟩
  by_contra different
  rw [wanted] at compared
  simp only [if_pos different] at compared
  cases compared

/-- The remote presented a certificate from which `verify_cert` derives the id. -/
def Remote.Certifies (remote : Remote tls) (pid : PeerID) : Prop :=
  ∃ endEntity rest, remote.certs = endEntity :: rest ∧ tls.verifyCert endEntity = .ok pid

/-- A secure handshake that succeeds has verified the certificate whose id is read from the chain
that it reports. -/
theorem secureHandshake_eq_ok {verify : tls.Cert → Except CertificateError Unit}
    {property : PeerID → Prop}
    (sound : ∀ endEntity, verify endEntity = .ok () →
      ∃ certified, tls.verifyCert endEntity = .ok certified ∧ property certified)
    {remote : Remote tls} {certs : List tls.Cert}
    (secure : secureHandshake verify remote = .ok certs) :
    ∃ pid, peerIdFromCerts tls certs = some pid ∧ remote.Certifies pid ∧ property pid := by
  unfold secureHandshake at secure
  split at secure
  · cases secure
  · rename_i endEntity rest presented
    split at secure
    · cases secure
    · rename_i verified
      obtain ⟨_, _, rfl⟩ := Fallible.map_eq_ok.mp secure
      obtain ⟨certified, outcome, holds⟩ := sound endEntity verified
      refine ⟨certified, ?_, ⟨endEntity, rest, presented, outcome⟩, holds⟩
      rw [presented, peerIdFromCerts, outcome]
      rfl

variable {endpoint : Endpoint}

/-- What a successful dial knows: on TCP nothing, on TLS and QUIC the id in the remote's
certificate, which is the one that was expected. -/
theorem dial_eq_ok {peerId verified : Option PeerID} {remote : Remote tls}
    (dialled : dial tls endpoint peerId remote = .ok verified) :
    (secured endpoint = false ∧ verified = none) ∨
      (secured endpoint = true ∧ ∃ pid, verified = some pid ∧ remote.Certifies pid ∧
        ∀ expected, peerId = some expected → expected = pid) := by
  unfold dial at dialled
  split at dialled
  · obtain ⟨_, _, rfl⟩ := Fallible.map_eq_ok.mp (Fallible.mapError_eq_ok.mp dialled)
    exact Or.inl ⟨rfl, rfl⟩
  · obtain ⟨_, _, rest⟩ := Fallible.bind_eq_ok.mp (Fallible.mapError_eq_ok.mp dialled)
    obtain ⟨certs, reported, ⟨⟩⟩ := Fallible.bind_eq_ok.mp rest
    exact Or.inr ⟨rfl, secureHandshake_eq_ok (fun _ => verifyServerCert_eq_ok) reported⟩
  · obtain ⟨_, _, rest⟩ := Fallible.bind_eq_ok.mp (Fallible.mapError_eq_ok.mp dialled)
    obtain ⟨certs, reported, rest⟩ := Fallible.bind_eq_ok.mp rest
    obtain ⟨_, _, ⟨⟩⟩ := Fallible.bind_eq_ok.mp rest
    exact Or.inr ⟨rfl, secureHandshake_eq_ok (fun _ => verifyServerCert_eq_ok) reported⟩
  · cases dialled

/-- The connection that the retries end with is the first dial that succeeded. -/
theorem connectInternal_eq_ok {peerId verified : Option PeerID} {remotes : Nat → Remote tls}
    {left retry : Nat}
    (connected : connectInternal tls endpoint peerId remotes left retry = .ok verified) :
    ∃ turn, retry ≤ turn ∧ turn < retry + left ∧
      dial tls endpoint peerId (remotes turn) = .ok verified ∧
      ∀ earlier, retry ≤ earlier → earlier < turn →
        ∃ error, dial tls endpoint peerId (remotes earlier) = .error error := by
  induction left generalizing retry with
  | zero => cases connected
  | succ left inductionHypothesis =>
    unfold connectInternal at connected
    split at connected
    · rename_i result dialled
      cases connected
      exact ⟨retry, Nat.le_refl _, by omega, dialled, fun earlier lower upper => by omega⟩
    · rename_i error failed
      obtain ⟨turn, later, bound, dialled, before⟩ := inductionHypothesis connected
      refine ⟨turn, by omega, by omega, dialled, fun earlier lower upper => ?_⟩
      by_cases now : earlier = retry
      · exact ⟨error, now ▸ failed⟩
      · exact before earlier (by omega) upper

variable {queued : PendingConn}

/-- What an accepted connection knows: on TCP nothing, on TLS and QUIC the id in the remote's
certificate. -/
theorem acceptAndQueue_eq_ok {remote : Remote tls}
    (accepted : acceptAndQueue tls endpoint remote = .ok queued) :
    (secured endpoint = false ∧ queued.verifiedPeerId = none) ∨
      (secured endpoint = true ∧ ∃ pid, queued.verifiedPeerId = some pid ∧
        remote.Certifies pid) := by
  have certified {certs : List tls.Cert}
      (reported : secureHandshake (verifyClientCert tls) remote = .ok certs) :
      ∃ pid, peerIdFromCerts tls certs = some pid ∧ remote.Certifies pid := by
    have sound (endEntity : tls.Cert) (verified : verifyClientCert tls endEntity = .ok ()) :
        ∃ certified, tls.verifyCert endEntity = .ok certified ∧ True := by
      obtain ⟨certified, outcome, _⟩ := Fallible.bind_eq_ok.mp verified
      exact ⟨certified, outcome, trivial⟩
    obtain ⟨pid, read, certifies, _⟩ := secureHandshake_eq_ok sound reported
    exact ⟨pid, read, certifies⟩
  unfold acceptAndQueue at accepted
  split at accepted
  · obtain ⟨_, _, rfl⟩ := Fallible.map_eq_ok.mp (Fallible.mapError_eq_ok.mp accepted)
    exact Or.inl ⟨rfl, rfl⟩
  · obtain ⟨_, _, rest⟩ := Fallible.bind_eq_ok.mp (Fallible.mapError_eq_ok.mp accepted)
    obtain ⟨certs, reported, ⟨⟩⟩ := Fallible.bind_eq_ok.mp rest
    exact Or.inr ⟨rfl, certified reported⟩
  · obtain ⟨_, _, rest⟩ := Fallible.bind_eq_ok.mp (Fallible.mapError_eq_ok.mp accepted)
    obtain ⟨certs, reported, rest⟩ := Fallible.bind_eq_ok.mp rest
    obtain ⟨_, _, ⟨⟩⟩ := Fallible.bind_eq_ok.mp rest
    exact Or.inr ⟨rfl, certified reported⟩
  · cases accepted

/-! ### Who is admitted -/

variable {p : HandshakeParams deps} {trace : List (Event PeerNetMsg Error)} {pid : PeerID}

/-- A handshake that succeeds gives the id that the remote claimed, which is the one that the
transport verified. -/
theorem handshake_claimed {shared : List ProtocolID}
    (steps : Prog.Steps (handshake p).run trace (.done (.ok (pid, shared)))) :
    claimedId deps trace = some pid ∧ ∀ vpid, p.verifiedPeerId = some vpid → pid = vpid := by
  rcases handshake_steps steps with ⟨own, first, rest, rfl, _, answering⟩ | ⟨failed, _⟩
  · rcases answer_steps answering with ⟨_, _, accepted, success⟩ | ⟨failed, _⟩
    · obtain ⟨same, _⟩ := success _ rfl
      cases same
      obtain ⟨_, vermsg, length, decoded, acceptable, identity, _⟩ :=
        (checkVersion_eq_ok_iff _ _ _ _).mp accepted
      refine ⟨?_, fun vpid verified => identity.trans (acceptable.verified vpid verified)⟩
      simp only [claimedId, firstReceived, Option.bind_some, decoded, identity]
    · exact absurd rfl (failed _)
  · exact absurd rfl (failed _)

variable {admission : Admission}

theorem Admission.newPeer_eq_ok {claimed : PeerID} {negotiated : List ProtocolID}
    (inserted : admission.newPeer claimed negotiated = .ok pid) : pid = claimed := by
  unfold Admission.newPeer at inserted
  split at inserted
  · cases inserted
  · split at inserted
    · cases inserted
    · obtain ⟨_, _, same⟩ := Fallible.map_eq_ok.mp inserted
      exact same.symm

/-- A connection is admitted under the id that the remote claimed, which is the one that the
transport verified. -/
theorem admitPeer_claimed
    (steps : Prog.Steps (admitPeer p admission queued).run trace (.done (.ok pid))) :
    claimedId deps trace = some pid ∧ ∀ vpid, queued.verifiedPeerId = some vpid → pid = vpid := by
  obtain ⟨outcome, early, late, rfl, first, second⟩ := Prog.Steps.of_bind steps
  cases outcome with
  | error reason =>
    obtain ⟨_, impossible⟩ := second.of_done
    cases impossible
  | ok accepted =>
    obtain ⟨claimed, negotiated⟩ := accepted
    change Prog.Steps (liftExcept (admission.newPeer claimed negotiated) : HandshakeM PeerID).run
      _ _ at second
    cases inserted : admission.newPeer claimed negotiated with
    | error reason =>
      rw [inserted] at second
      obtain ⟨_, impossible⟩ := second.of_done
      cases impossible
    | ok admitted =>
      rw [inserted] at second
      obtain ⟨rfl, ⟨⟩⟩ := second.of_done
      obtain rfl := Admission.newPeer_eq_ok inserted
      rw [List.append_nil]
      exact handshake_claimed first

/-- A dial with an expected id admits that id exactly if the endpoint is a TLS or QUIC one or the
remote claims that id. On TLS and QUIC, in either direction, the admitted id is the one in the
certificate of the remote end. -/
theorem dial_admits_expected_iff (tls : CertDeps) {deps : HandshakeDeps}
    (p : HandshakeParams deps) (admission : Admission) (endpoint : Endpoint) :
    (∀ maxRetries peerId remotes queued trace pid,
      connectAndQueue tls maxRetries endpoint peerId remotes = .ok queued →
      Prog.Steps (admitPeer p admission queued).run trace (.done (.ok pid)) →
      (∀ expected, peerId = some expected →
        (pid = expected ↔ secured endpoint = true ∨ claimedId deps trace = some expected)) ∧
      (secured endpoint = true → ∃ turn < maxRetries, (remotes turn).Certifies pid ∧
        ∀ earlier < turn, ∃ error,
          dial tls endpoint peerId (remotes earlier) = .error error)) ∧
      ∀ remote queued trace pid,
        acceptAndQueue tls endpoint remote = .ok queued →
        Prog.Steps (admitPeer p admission queued).run trace (.done (.ok pid)) →
        secured endpoint = true → remote.Certifies pid := by
  constructor
  · intro maxRetries peerId remotes queued trace pid connected steps
    obtain ⟨claimed, verified⟩ := admitPeer_claimed steps
    obtain ⟨vpid, succeeded, rfl⟩ := Fallible.map_eq_ok.mp connected
    obtain ⟨turn, _, bound, dialled, before⟩ := connectInternal_eq_ok succeeded
    rcases dial_eq_ok dialled with ⟨plain, _⟩ | ⟨secure, certified, rfl, certifies, expects⟩
    · refine ⟨fun expected _ => ?_, fun secure => ?_⟩
      · rw [plain, claimed, Option.some.injEq]
        simp only [Bool.false_eq_true, false_or]
      · rw [plain] at secure
        cases secure
    · obtain rfl := verified certified rfl
      refine ⟨fun expected wanted => ?_, fun _ => ?_⟩
      · exact ⟨fun _ => Or.inl secure, fun _ => (expects expected wanted).symm⟩
      · exact ⟨turn, by omega, certifies, fun earlier => before earlier (Nat.zero_le _)⟩
  · intro remote queued trace pid accepted steps secure
    rcases acceptAndQueue_eq_ok accepted with ⟨plain, _⟩ | ⟨_, certified, known, certifies⟩
    · rw [plain] at secure
      cases secure
    · obtain rfl := (admitPeer_claimed steps).2 certified known
      exact certifies

/-! ### A sample -/

/-- Certificates that are the peer ids they prove. -/
def sampleTls : CertDeps where
  Cert := PeerID
  verifyCert := .ok
  refused := fun _ => .timeout

/-- The remote end of the second node of the handshake sample. -/
def bobRemote : Remote sampleTls where
  connects := .ok ()
  certs := [bobId]
  secures := .ok ()
  opens := .ok ()

def bobAddr : Addr := .domain "bob"

/-- A node that admits everyone. -/
def openAdmission : Admission where
  allow := fun _ _ => true
  containsPeer := fun _ => false
  setup := fun _ _ => .ok ()

/-- The messages with which the second node passes the handshake of the first. -/
def bobTrace : List (Event PeerNetMsg Error) :=
  [.sent ⟨⟨.version⟩, []⟩ (.ok ()), .received (.ok ⟨⟨.version⟩, [0]⟩),
    .sent ⟨⟨.verack⟩, []⟩ (.ok ()), .received (.ok ⟨⟨.verack⟩, [0]⟩)]

/-- A TLS dial for the second node admits it, under the id in its certificate. -/
theorem dial_admits_expected_tls :
    connectAndQueue sampleTls 3 (.tls bobAddr 1) (some bobId) (fun _ => bobRemote) =
        .ok { direction := .outbound, verifiedPeerId := some bobId } ∧
      Prog.Steps (admitPeer alice openAdmission
        { direction := .outbound, verifiedPeerId := some bobId }).run bobTrace
        (.done (.ok bobId)) ∧
      bobRemote.Certifies bobId := by
  have connected : connectAndQueue sampleTls 3 (.tls bobAddr 1) (some bobId) (fun _ => bobRemote) =
      .ok { direction := .outbound, verifiedPeerId := some bobId } := rfl
  have steps : Prog.Steps (admitPeer alice openAdmission
      { direction := .outbound, verifiedPeerId := some bobId }).run bobTrace
      (.done (.ok bobId)) :=
    .send (.ok ()) (.recv (.ok _) (.send (.ok ()) (.recv (.ok _) (.refl _))))
  obtain ⟨turn, _, certifies, _⟩ :=
    ((dial_admits_expected_iff sampleTls alice openAdmission (.tls bobAddr 1)).1
      3 (some bobId) (fun _ => bobRemote) _ bobTrace bobId connected steps).2 rfl
  exact ⟨connected, steps, certifies⟩

/-- A TCP dial for some other node admits the second one if that answers. -/
theorem dial_admits_other :
    ∃ expected queued,
      connectAndQueue sampleTls 3 (.tcp bobAddr 1) (some expected) (fun _ => bobRemote) =
        .ok queued ∧
      Prog.Steps (admitPeer alice openAdmission queued).run bobTrace (.done (.ok bobId)) ∧
      bobId ≠ expected :=
  ⟨⟨.replicate 32 3⟩, { direction := .outbound, verifiedPeerId := none }, rfl,
    .send (.ok ()) (.recv (.ok _) (.send (.ok ()) (.recv (.ok _) (.refl _)))), by decide⟩

end Karyon.P2p
