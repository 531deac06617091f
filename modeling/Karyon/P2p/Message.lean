/-
This file models the data that peers exchange: peer and protocol identifiers,
versions (`p2p/src/version.rs`), protocol flags (`p2p/src/protocol/mod.rs`), the
wire envelope (`p2p/src/message.rs`) and the errors of the peer-to-peer crate.

Two libraries stand behind this data. `semver` parses and prints version
requirements and decides which versions they match; `bincode` turns values into
bytes and back. Both are parameters, and what is relied on of them is stated
here: `Semver.Lawful` and `Bincode.RoundTrips`.
-/

import Karyon.Lib.Fallible
import Karyon.Lib.HashMap

namespace Karyon.P2p

abbrev Bytes := List UInt8

/-! ### Identifiers, versions and flags -/

structure PeerID where
  bytes : Vector UInt8 32
  deriving DecidableEq

abbrev ProtocolID := String

structure VersionInt where
  major : UInt64
  minor : UInt64
  patch : UInt64
  deriving DecidableEq

/-- Version requirements of the `semver` crate. -/
structure Semver where
  VersionReq : Type
  parse : String → Option VersionReq
  toString : VersionReq → String
  «matches» : VersionReq → VersionInt → Bool

/-- Printing a requirement and parsing it again gives one that matches the same versions. -/
def Semver.Lawful (semver : Semver) : Prop :=
  ∀ req, ∃ parsed, semver.parse (semver.toString req) = some parsed ∧
    ∀ version, semver.matches parsed version = semver.matches req version

/-- A version together with the versions it accepts. -/
structure Version (semver : Semver) where
  v : VersionInt
  req : semver.VersionReq

/-- Bit flags describing how a protocol takes part in handshake and discovery. -/
structure ProtocolFlags where
  bits : UInt32
  deriving DecidableEq

def ProtocolFlags.empty : ProtocolFlags := ⟨0⟩
def ProtocolFlags.REQUIRED : ProtocolFlags := ⟨(1 : UInt32) <<< 0⟩
def ProtocolFlags.PREFERRED : ProtocolFlags := ⟨(1 : UInt32) <<< 1⟩

/-- Every bit of `other` is set in `self`. -/
def ProtocolFlags.contains (self other : ProtocolFlags) : Bool :=
  self.bits &&& other.bits == other.bits

/-- Per-protocol metadata of the local node. -/
structure ProtocolMeta (semver : Semver) where
  version : Version semver
  flags : ProtocolFlags

/-! ### Errors -/

/-- The errors the modelled functions return. The errors of other crates are wrapped as the
text they print. -/
inductive Error where
  | io (text : String)
  | unsupportedProtocol (id : ProtocolID)
  | invalidMsg (text : String)
  | incompatiblePeer
  | incompatibleVersion (text : String)
  | timeout
  | peerShutdown
  | peerAlreadyConnected
  | accessDenied
  | invalidPongMsg
  | lookup (text : String)
  | bincodeDecode (text : String)
  | bincodeEncode (text : String)
  | karyonCore (text : String)
  | karyonNet (text : String)

/-! ### Wire messages -/

/-- Commands of the peer data plane. -/
inductive PeerNetCmd where
  | version
  | verack
  | protocol
  | shutdown
  deriving DecidableEq

/-- The derived debug format. -/
def PeerNetCmd.debug : PeerNetCmd → String
  | .version => "Version"
  | .verack => "Verack"
  | .protocol => "Protocol"
  | .shutdown => "Shutdown"

structure PeerNetMsgHeader where
  command : PeerNetCmd
  deriving DecidableEq

/-- The wire envelope of the peer data plane. -/
structure PeerNetMsg where
  header : PeerNetMsgHeader
  payload : Bytes
  deriving DecidableEq

/-- An application protocol's payload. -/
structure ProtocolMsg where
  protocolId : ProtocolID
  payload : Bytes
  deriving DecidableEq

/-- The `bincode` encoding of one type. Decoding also returns the number of bytes read. -/
structure Bincode (Value : Type) where
  encode : Value → Except Error Bytes
  decode : Bytes → Except Error (Value × Nat)

/-- What was encoded decodes to the same value, up to the given equality. -/
def Bincode.RoundTrips {Value : Type} (bincode : Bincode Value)
    (same : Value → Value → Prop) : Prop :=
  ∀ value bytes, bincode.encode value = .ok bytes →
    ∃ decoded length, bincode.decode bytes = .ok (decoded, length) ∧ same value decoded

/-- An encoding of the values of a table by their position in it. -/
def Bincode.ofTable {Value : Type} [DecidableEq Value] (values : List Value) : Bincode Value where
  encode value :=
    if value ∈ values then .ok (List.replicate (values.idxOf value) 0)
    else .error (.bincodeEncode "value not in the table")
  decode bytes :=
    match values[bytes.length]? with
    | some value => .ok (value, bytes.length)
    | none => .error (.bincodeDecode "position not in the table")

theorem Bincode.ofTable_roundTrips {Value : Type} [DecidableEq Value] (values : List Value)
    {same : Value → Value → Prop} (reflexive : ∀ value, same value value) :
    (Bincode.ofTable values).RoundTrips same := by
  intro value bytes encoded
  unfold Bincode.ofTable at encoded ⊢
  simp only at encoded ⊢
  split at encoded
  · rename_i member
    cases encoded
    refine ⟨value, values.idxOf value, ?_, reflexive value⟩
    rw [List.length_replicate, List.getElem?_idxOf member]
  · cases encoded

def PeerNetMsg.new {Value : Type} (bincode : Bincode Value) (command : PeerNetCmd)
    (value : Value) : Except Error PeerNetMsg := do
  let payload ← bincode.encode value
  return { header := { command }, payload }

theorem PeerNetMsg.new_eq_ok {Value : Type} {bincode : Bincode Value} {command : PeerNetCmd}
    {value : Value} {msg : PeerNetMsg} (built : PeerNetMsg.new bincode command value = .ok msg) :
    ∃ payload, bincode.encode value = .ok payload ∧ msg = ⟨⟨command⟩, payload⟩ := by
  obtain ⟨payload, encoded, ⟨⟩⟩ := Fallible.bind_eq_ok.mp built
  exact ⟨payload, encoded, rfl⟩

end Karyon.P2p
