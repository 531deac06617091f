/-
This file is about the length fields that the encoders write: the frame of the
length-prefixed codec, the attributes and the messages of STUN, the header of a QUIC
stream and the domain of a SOCKS5 request.

Each encoder narrows a length to the width of its field. All but one refuse a length that
does not fit; the length-prefixed codec refuses only what exceeds its own limit, so its
field is exact if and only if the limit fits into four bytes (`lengthFields_exact_iff`).
-/

import Karyon.Net.LengthCodec
import Karyon.Net.Socks5
import Karyon.P2p.Wire
import Karyon.Stun.Message

namespace Karyon

open Framing

/-- The length in front is that of what follows. -/
def LengthPrefixed (width : Nat) (bytes : List UInt8) : Prop :=
  ofLittleEndian (bytes.take width) = (bytes.drop width).length

theorem lengthPrefixed_iff {width : Nat} {payload : List UInt8} :
    LengthPrefixed width (littleEndian width payload.length ++ payload) ↔
      payload.length < 256 ^ width := by
  rw [LengthPrefixed, List.take_left' (length_littleEndian _ _),
    List.drop_left' (length_littleEndian _ _), ofLittleEndian_littleEndian]
  exact Nat.mod_eq_iff_lt (Nat.pow_pos (by decide)).ne'

/-- What the codec writes starts with the length of the rest. -/
def Net.LengthCodec.WritesLength (codec : Net.LengthCodec) : Prop :=
  ∀ src dst written out, codec.encode src dst = .ok (written, out) →
    LengthPrefixed 4 (out.drop dst.length)

theorem exists_length (size : Nat) : ∃ src : Net.ByteBuffer, src.length = size :=
  ⟨List.replicate size 0, List.length_replicate⟩

/-- A length that does not fit into four bytes is truncated. -/
theorem Net.LengthCodec.writesLength_iff (codec : Net.LengthCodec) :
    codec.WritesLength ↔ codec.maxSize < 2 ^ 32 := by
  constructor
  · intro writes
    by_contra large
    obtain ⟨src, size⟩ := exists_length (2 ^ 32)
    have admissible : ¬ src.length > codec.maxSize := by omega
    have short := lengthPrefixed_iff.mp (writes src [] _ _ (if_neg admissible))
    omega
  · intro small src dst written out encoded
    rw [encode] at encoded
    split at encoded
    · cases encoded
    · rename_i admissible
      cases encoded
      rw [List.append_assoc, List.drop_left]
      exact lengthPrefixed_iff.mpr (by omega)

/-- The two bytes in front of the value of an attribute hold its length. -/
def Stun.Attribute.WritesLength (attr : Stun.Attribute) (txnId : Stun.TransactionId) : Prop :=
  ∀ dst out, attr.encode txnId dst = .ok out →
    ∃ field padding, out = dst ++ (u16ToBe (attr.typeAndValue txnId).1 ++ field ++
        (attr.typeAndValue txnId).2 ++ padding) ∧
      field.length = 2 ∧ (u16FromBe field).toNat = (attr.typeAndValue txnId).2.length

theorem Stun.Attribute.writesLength (attr : Stun.Attribute) (txnId : Stun.TransactionId) :
    attr.WritesLength txnId := by
  intro dst out encoded
  obtain ⟨small, rfl⟩ := encode_eq_ok.mp encoded
  refine ⟨_, _, rfl, length_u16ToBe _, ?_⟩
  rw [u16FromBe_u16ToBe]
  exact UInt16.toNat_ofNat_of_lt' (Nat.lt_succ_of_le small)

/-- The length of a message is that of what follows its header. -/
def Stun.StunMessage.WritesLength (message : Stun.StunMessage) : Prop :=
  ∀ out, message.encode = .ok out →
    (u16FromBe ((out.drop 2).take 2)).toNat = (out.drop Stun.HEADER_SIZE).length

theorem Stun.StunMessage.writesLength (message : Stun.StunMessage) : message.WritesLength := by
  intro out encoded
  obtain ⟨-, small, rfl⟩ := encode_eq_ok.mp encoded
  rw [(message.headerFields small _).length, List.drop_left' (message.length_header _)]

theorem P2p.lengthPrefixed_streamHeader (deps : P2p.WireDeps) (protoId : P2p.ProtocolID)
    (header : P2p.Bytes) (written : P2p.streamHeader deps protoId = .ok header) :
    LengthPrefixed 2 header := by
  obtain ⟨encoded, _, written⟩ := Fallible.bind_eq_ok.mp written
  split at written
  · rename_i short
    cases written
    exact lengthPrefixed_iff.mpr short
  · cases written

/-- The handshake writes nothing and fails, or the byte in front of a domain holds its length. -/
def Net.Socks5Layer.WritesLength (self : Net.Socks5Layer) : Prop :=
  (∀ stream, ∃ error, self.handshake stream = ([], .error error)) ∨
    ∀ len name, address self.targetHost = Net.ATYPE_DOMAIN :: len :: name →
      len.toNat = name.length

theorem Net.Socks5Layer.writesLength (self : Net.Socks5Layer) : self.WritesLength := by
  by_cases other : (Utf8.bytes self.targetHost).length = 0 ∨
      255 < (Utf8.bytes self.targetHost).length
  · exact .inl fun stream => ⟨_, if_pos other⟩
  · refine .inr fun len name => ?_
    fun_cases address <;> rintro ⟨⟩
    exact UInt8.toNat_ofNat_of_lt' (by rw [UInt8.size]; omega)

/-- The length fields are exact for every input if and only if the limit of the length-prefixed
codec fits into its four bytes; the others are exact with no condition. -/
theorem lengthFields_exact_iff (codec : Net.LengthCodec) :
    (codec.WritesLength ∧ (∀ attr txnId, Stun.Attribute.WritesLength attr txnId) ∧
      (∀ message, Stun.StunMessage.WritesLength message) ∧
      (∀ deps protoId header, P2p.streamHeader deps protoId = .ok header →
        LengthPrefixed 2 header) ∧
      ∀ layer, Net.Socks5Layer.WritesLength layer) ↔
    codec.maxSize < 2 ^ 32 := by
  rw [codec.writesLength_iff]
  exact and_iff_left ⟨Stun.Attribute.writesLength, Stun.StunMessage.writesLength,
    P2p.lengthPrefixed_streamHeader, Net.Socks5Layer.writesLength⟩

/-- With a limit of 2 ^ 32 bytes, a payload of so many bytes has the length field zero. -/
theorem lengthFields_counterexample :
    ∃ src : Net.ByteBuffer, src.length = 2 ^ 32 ∧
      ∃ written, Net.LengthCodec.encode ⟨2 ^ 32⟩ src [] = .ok (written, [0, 0, 0, 0] ++ src) := by
  obtain ⟨src, size⟩ := exists_length (2 ^ 32)
  have admissible : ¬ src.length > 2 ^ 32 := by omega
  refine ⟨src, size, ([0, 0, 0, 0] ++ src).length, ?_⟩
  rw [Net.LengthCodec.encode, if_neg admissible, size]
  rfl

end Karyon
