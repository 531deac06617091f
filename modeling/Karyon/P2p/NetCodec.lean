/-
This file models the codec of the peer data plane, `p2p/src/codec.rs`: an envelope is
encoded with `bincode` and put into a length-prefixed frame.

An envelope is within the limit when its encoding is not longer than the largest frame.
Only such an envelope can be encoded, and over these the codec has self-delimiting
frames (`PeerNetMsgCodec.frames`).
-/

import Karyon.Net.LengthCodec
import Karyon.P2p.Message

namespace Karyon.P2p

open Karyon.Net Framing

def Error.display : Error → String
  | .io text | .bincodeDecode text | .bincodeEncode text => text
  | .karyonCore text | .karyonNet text => text
  | .unsupportedProtocol id => "Unsupported Protocol: " ++ id
  | .invalidMsg text => "Invalid Message: " ++ text
  | .incompatiblePeer => "Incompatible Peer"
  | .incompatibleVersion text => "Incompatible Version: " ++ text
  | .timeout => "Timeout"
  | .peerShutdown => "Peer Shutdown"
  | .peerAlreadyConnected => "Peer Already Connected"
  | .accessDenied => "Access Denied"
  | .invalidPongMsg => "Invalid Pong Msg"
  | .lookup text => "Lookup Error: " ++ text

/-- The length-prefixed codec for the peer data-plane wire. -/
structure PeerNetMsgCodec where
  bincode : Bincode PeerNetMsg
  innerCodec : LengthCodec

/-- An error that is handed to the framing as an input and output error. -/
def ioOther (error : Error) : Net.Error :=
  .io .other (some error.display)

namespace PeerNetMsgCodec

def new (bincode : Bincode PeerNetMsg) : PeerNetMsgCodec :=
  { bincode, innerCodec := .default }

variable (codec : PeerNetMsgCodec)

def encode (src : PeerNetMsg) (dst : ByteBuffer) : Except Net.Error (Nat × ByteBuffer) := do
  let src ← (codec.bincode.encode src).mapError ioOther
  codec.innerCodec.encode src dst

def decode (src : ByteBuffer) : Except Net.Error (Option (Nat × PeerNetMsg)) := do
  match ← codec.innerCodec.decode src with
  | some (n, s) =>
    let (m, _) ← (codec.bincode.decode s).mapError ioOther
    return some (n, m)
  | none => return none

def toCodec : Codec PeerNetMsg where
  encode := codec.encode
  decode := codec.decode

def fits (msg : PeerNetMsg) : Bool :=
  match codec.bincode.encode msg with
  | .ok bytes => decide (bytes.length ≤ codec.innerCodec.maxSize)
  | .error _ => false

def frame (msg : PeerNetMsg) : ByteBuffer :=
  match codec.bincode.encode msg with
  | .ok bytes => LengthCodec.frame bytes
  | .error _ => []

variable {codec : PeerNetMsgCodec} {msg : PeerNetMsg}

theorem fits_iff :
    codec.fits msg = true ↔ ∃ bytes, codec.bincode.encode msg = .ok bytes ∧
      bytes.length ≤ codec.innerCodec.maxSize := by
  unfold fits
  cases codec.bincode.encode msg with
  | ok bytes =>
    rw [decide_eq_true_iff]
    exact ⟨fun within => ⟨bytes, rfl, within⟩, fun ⟨_, same, within⟩ => Except.ok.inj same ▸ within⟩
  | error reason => exact ⟨nofun, nofun⟩

theorem encode_of_fits (within : codec.fits msg = true) (dst : ByteBuffer) :
    codec.encode msg dst = .ok ((dst ++ codec.frame msg).length, dst ++ codec.frame msg) := by
  obtain ⟨bytes, encoded, small⟩ := fits_iff.mp within
  have inner : codec.innerCodec.encode bytes dst =
      .ok ((dst ++ LengthCodec.frame bytes).length, dst ++ LengthCodec.frame bytes) := by
    rw [LengthCodec.encode, if_neg (Nat.not_lt.mpr small), LengthCodec.frame, ← List.append_assoc]
  simp only [encode, frame, encoded]
  exact inner

theorem encode_of_not_fits (tooLong : codec.fits msg = false) (dst : ByteBuffer) :
    ∃ error, codec.encode msg dst = .error error := by
  unfold fits at tooLong
  cases encoded : codec.bincode.encode msg with
  | error reason =>
    refine ⟨ioOther reason, ?_⟩
    simp only [encode, encoded]
    rfl
  | ok bytes =>
    rw [encoded] at tooLong
    have long := of_decide_eq_false tooLong
    refine ⟨.bufferFull
      s!"Buffer size {bytes.length} exceeds maximum {codec.innerCodec.maxSize}", ?_⟩
    simp only [encode, encoded]
    exact if_pos (Nat.not_le.mp long)

/-- The codec frames the envelopes within its limit, and admits every buffer. -/
def FramesFitting : Prop :=
  codec.toCodec.Frames codec.frame (fun msg => codec.fits msg = true) fun _ => True

theorem frames (representable : codec.innerCodec.maxSize < 2 ^ 32)
    (lawful : codec.bincode.RoundTrips Eq) : codec.FramesFitting where
  encode msg within dst := ⟨_, encode_of_fits within dst⟩
  complete msg rest within _ := by
    obtain ⟨bytes, encoded, small⟩ := fits_iff.mp within
    obtain ⟨decoded, length, decodes, rfl⟩ := lawful msg bytes encoded
    have inner := (codec.innerCodec.frames representable).complete bytes rest small trivial
    have framed : codec.frame msg = LengthCodec.frame bytes := by
      simp only [frame, encoded]
    have found : codec.innerCodec.decode (LengthCodec.frame bytes ++ rest) =
        .ok (some ((LengthCodec.frame bytes).length, bytes)) := inner
    rw [framed]
    show codec.decode _ = _
    simp only [decode, found]
    show ((codec.bincode.decode bytes).mapError ioOther).bind _ = _
    rw [decodes]
    rfl
  incomplete tail fragment _ := by
    have inner : Fragment LengthCodec.frame
        (fun payload => payload.length ≤ codec.innerCodec.maxSize) tail := by
      rcases fragment with empty | ⟨msg, within, part, proper⟩
      · exact .inl empty
      · obtain ⟨bytes, encoded, small⟩ := fits_iff.mp within
        have framed : codec.frame msg = LengthCodec.frame bytes := by
          simp only [frame, encoded]
        rw [framed] at part proper
        exact .inr ⟨bytes, small, part, proper⟩
    have waits : codec.innerCodec.decode tail = .ok none :=
      (codec.innerCodec.frames representable).incomplete tail inner trivial
    show codec.decode tail = _
    simp only [decode, waits]
    rfl
  refused buffer inadmissible := absurd trivial inadmissible
  smaller _ _ _ _ := trivial

end PeerNetMsgCodec

/-! ### An encoding of envelopes -/

def PeerNetCmd.byte : PeerNetCmd → UInt8
  | .version => 0
  | .verack => 1
  | .protocol => 2
  | .shutdown => 3

def PeerNetCmd.ofByte (byte : UInt8) : Option PeerNetCmd :=
  [PeerNetCmd.version, .verack, .protocol, .shutdown].find? fun command => command.byte == byte

/-- An encoding of envelopes: a byte for the command and then the payload. -/
def envelopeBincode : Bincode PeerNetMsg where
  encode msg := .ok (msg.header.command.byte :: msg.payload)
  decode
    | [] => .error (.bincodeDecode "no command")
    | byte :: payload =>
      match PeerNetCmd.ofByte byte with
      | some command => .ok (⟨⟨command⟩, payload⟩, payload.length + 1)
      | none => .error (.bincodeDecode "unknown command")

theorem envelopeBincode_roundTrips : envelopeBincode.RoundTrips Eq := by
  rintro ⟨⟨command⟩, payload⟩ bytes encoded
  cases encoded
  refine ⟨⟨⟨command⟩, payload⟩, payload.length + 1, ?_, rfl⟩
  cases command <;> rfl

end Karyon.P2p
