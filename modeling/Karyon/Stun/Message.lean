/-
This file models the STUN messages of `stun/src/msg.rs` with their attributes of
`stun/src/attrs.rs`, as they are written to bytes and read from them.

An attribute is written as its type, its length and its value, with zeros up to a multiple of four
bytes. The address of a response is combined with the magic cookie and the transaction id. A message
is its type, the length of its attributes, the cookie, the transaction id and the attributes.

What is read back of a written message is the message, except that an address has no flow
information and no scope, and that a code is taken modulo 800: the class of an error has three bits.
`stun_roundtrip` says so for the messages of which nothing is lost. Reading gives codes up to 955,
so a message that was read comes back from its own bytes if and only if its codes are below 800
(`stun_reencode_iff`, `stun_reencode_loses_code`).
-/

import Karyon.Lib.Fallible
import Karyon.Lib.Framing
import Karyon.Lib.Utf8

namespace Karyon.Stun

open Framing

/-- Fixed magic cookie. Also the key for the address of a response. -/
def MAGIC_COOKIE : UInt32 := 0x2112A442

def HEADER_SIZE : Nat := 20

def ATTR_MAPPED_ADDRESS : UInt16 := 0x0001

def ATTR_ERROR_CODE : UInt16 := 0x0009

def ATTR_XOR_MAPPED_ADDRESS : UInt16 := 0x0020

def ATTR_SOFTWARE : UInt16 := 0x8022

def FAMILY_IPV4 : UInt8 := 0x01

def FAMILY_IPV6 : UInt8 := 0x02

/-- The class bits of an error. -/
def CLASS_MASK : UInt8 := 0x07

def U16_MAX : Nat := 65535

/-- A 96-bit transaction id matching a response to its request. -/
abbrev TransactionId := Vector UInt8 12

inductive StunError where
  | invalidMsg (msg : String)
  deriving DecidableEq

/-! ### Addresses -/

inductive IpAddr where
  | v4 (octets : Vector UInt8 4)
  | v6 (octets : Vector UInt8 16)

/-- A socket address. With IPv6 it has flow information and a scope. -/
inductive SocketAddr where
  | v4 (ip : Vector UInt8 4) (port : UInt16)
  | v6 (ip : Vector UInt8 16) (port : UInt16) (flowinfo scopeId : UInt32)
  deriving DecidableEq

namespace SocketAddr

def new (ip : IpAddr) (port : UInt16) : SocketAddr :=
  match ip with
  | .v4 octets => .v4 octets port
  | .v6 octets => .v6 octets port 0 0

def ip : SocketAddr → IpAddr
  | .v4 octets _ => .v4 octets
  | .v6 octets _ _ _ => .v6 octets

def port : SocketAddr → UInt16
  | .v4 _ port => port
  | .v6 _ port _ _ => port

/-- There is no flow information and no scope. -/
def Plain : SocketAddr → Prop
  | .v4 _ _ => True
  | .v6 _ _ flowinfo scopeId => flowinfo = 0 ∧ scopeId = 0

instance : DecidablePred Plain
  | .v4 _ _ => inferInstanceAs (Decidable True)
  | .v6 _ _ flowinfo scopeId => inferInstanceAs (Decidable (flowinfo = 0 ∧ scopeId = 0))

section

variable (ip : IpAddr) (port : UInt16)

include ip port

@[simp] theorem ip_new : (new ip port).ip = ip := by
  cases ip <;> rfl

@[simp] theorem port_new : (new ip port).port = port := by
  cases ip <;> rfl

theorem plain_new : (new ip port).Plain := by
  cases ip with
  | v4 octets => exact trivial
  | v6 octets => exact ⟨rfl, rfl⟩

end

theorem new_ip_port {addr : SocketAddr} (plain : addr.Plain) : new addr.ip addr.port = addr := by
  cases addr with
  | v4 octets port => rfl
  | v6 octets port flowinfo scopeId =>
    obtain ⟨rfl, rfl⟩ := plain
    rfl

end SocketAddr

def cookieKey : Vector UInt8 4 :=
  fixed 4 (u32ToBe MAGIC_COOKIE)

def xorIp (txnId : TransactionId) : IpAddr → IpAddr
  | .v4 octets => .v4 (octets.zipWith (· ^^^ ·) cookieKey)
  | .v6 octets => .v6 (octets.zipWith (· ^^^ ·) (cookieKey ++ txnId))

/-- Combine an address with the magic cookie, and with the transaction id for IPv6. -/
def xorAddress (addr : SocketAddr) (txnId : TransactionId) : SocketAddr :=
  .new (xorIp txnId addr.ip) (addr.port ^^^ (MAGIC_COOKIE >>> 16).toUInt16)

/-- Address value: zero, family, port, octets. -/
def addressValue {width : Nat} (family : UInt8) (port : UInt16) (octets : Vector UInt8 width) :
    List UInt8 :=
  [0, family] ++ u16ToBe port ++ octets.toList

def encodeAddress (addr : SocketAddr) : List UInt8 :=
  match addr.ip with
  | .v4 octets => addressValue FAMILY_IPV4 addr.port octets
  | .v6 octets => addressValue FAMILY_IPV6 addr.port octets

def decodeAddress (value : List UInt8) : Except StunError SocketAddr :=
  if value.length < 4 then .error (.invalidMsg "address attribute too short")
  else
    let port := u16FromBe ((value.drop 2).take 2)
    if value.getD 1 0 = FAMILY_IPV4 ∧ value.length = 8 then
      .ok (.new (.v4 (fixed 4 (value.drop 4))) port)
    else if value.getD 1 0 = FAMILY_IPV6 ∧ value.length = 20 then
      .ok (.new (.v6 (fixed 16 (value.drop 4))) port)
    else .error (.invalidMsg "bad address family or length")

/-! ### Attributes -/

/-- An attribute. Unknown attributes are kept as raw bytes. -/
inductive Attribute where
  | mappedAddress (addr : SocketAddr)
  | xorMappedAddress (addr : SocketAddr)
  | errorCode (code : UInt16) (reason : String)
  | software (text : String)
  | unknown (attrType : UInt16) (value : List UInt8)
  deriving DecidableEq

/-- Error value: two zeros, class, number, and the reason. -/
def encodeError (code : UInt16) (reason : String) : List UInt8 :=
  [0, 0, (code / 100).toUInt8 &&& CLASS_MASK, (code % 100).toUInt8] ++ Utf8.bytes reason

/-- The class is the low three bits of its byte. -/
def decodeError (value : List UInt8) : Except StunError Attribute :=
  if value.length < 4 then .error (.invalidMsg "error attribute too short")
  else
    .ok (.errorCode ((value.getD 2 0 &&& CLASS_MASK).toUInt16 * 100 + (value.getD 3 0).toUInt16)
      (Utf8.ofBytesLossy (value.drop 4)))

namespace Attribute

/-- The type of an attribute and its value. -/
def typeAndValue (txnId : TransactionId) : Attribute → UInt16 × List UInt8
  | .mappedAddress addr => (ATTR_MAPPED_ADDRESS, encodeAddress addr)
  | .xorMappedAddress addr => (ATTR_XOR_MAPPED_ADDRESS, encodeAddress (xorAddress addr txnId))
  | .errorCode code reason => (ATTR_ERROR_CODE, encodeError code reason)
  | .software text => (ATTR_SOFTWARE, Utf8.bytes text)
  | .unknown attrType value => (attrType, value)

/-- Type, length, value, and zeros up to a multiple of four bytes. -/
def frame (attrType : UInt16) (value : List UInt8) : List UInt8 :=
  u16ToBe attrType ++ u16ToBe (.ofNat value.length) ++ value ++
    List.replicate ((4 - value.length % 4) % 4) 0

def encode (self : Attribute) (txnId : TransactionId) (dst : List UInt8) :
    Except StunError (List UInt8) :=
  let (attrType, value) := self.typeAndValue txnId
  if value.length > U16_MAX then .error (.invalidMsg "attribute value too large")
  else .ok (dst ++ frame attrType value)

/-- The attribute of this type and value. -/
def decodeValue (txnId : TransactionId) (attrType : UInt16) (value : List UInt8) :
    Except StunError Attribute :=
  if attrType = ATTR_MAPPED_ADDRESS then (decodeAddress value).map .mappedAddress
  else if attrType = ATTR_XOR_MAPPED_ADDRESS then
    (decodeAddress value).map fun addr => .xorMappedAddress (xorAddress addr txnId)
  else if attrType = ATTR_ERROR_CODE then decodeError value
  else if attrType = ATTR_SOFTWARE then .ok (.software (Utf8.ofBytesLossy value))
  else .ok (.unknown attrType value)

/-- Read one attribute, with the number of bytes that it takes. There is none if the bytes do not
hold it all. -/
def decode (txnId : TransactionId) (src : List UInt8) :
    Except StunError (Option (Nat × Attribute)) :=
  if src.length < 4 then .ok none
  else
    let attrType := u16FromBe (src.take 2)
    let len := (u16FromBe ((src.drop 2).take 2)).toNat
    let padded := (len + 3) / 4 * 4
    if src.length < 4 + padded then .ok none
    else
      (decodeValue txnId attrType ((src.drop 4).take len)).map fun attr => some (4 + padded, attr)

end Attribute

/-! ### Messages -/

inductive MessageType where
  | bindingRequest
  | bindingResponse
  | bindingError
  deriving DecidableEq

def MessageType.toU16 : MessageType → UInt16
  | .bindingRequest => 0x0001
  | .bindingResponse => 0x0101
  | .bindingError => 0x0111

/-- Four hexadecimal digits behind `0x`. -/
def hex (value : UInt16) : String :=
  let digits := Nat.toDigits 16 value.toNat
  "0x" ++ String.ofList (List.replicate (4 - digits.length) '0' ++ digits)

def MessageType.tryFrom (value : UInt16) : Except StunError MessageType :=
  if value = 0x0001 then .ok .bindingRequest
  else if value = 0x0101 then .ok .bindingResponse
  else if value = 0x0111 then .ok .bindingError
  else .error (.invalidMsg ("unsupported message type " ++ hex value))

structure StunMessage where
  msgType : MessageType
  txnId : TransactionId
  attrs : List Attribute
  deriving DecidableEq

/-- The attributes in bytes that hold nothing else. Each of them takes some bytes, so there are no
more of them than bytes. -/
def decodeAttrs (txnId : TransactionId) : Nat → List UInt8 → Except StunError (List Attribute)
  | _, [] => .ok []
  | 0, _ :: _ => .error (.invalidMsg "truncated attribute")
  | fuel + 1, src => do
    match ← Attribute.decode txnId src with
    | some (consumed, attr) =>
      let attrs ← decodeAttrs txnId fuel (src.drop consumed)
      return attr :: attrs
    | none => .error (.invalidMsg "truncated attribute")

namespace StunMessage

def header (self : StunMessage) (length : Nat) : List UInt8 :=
  u16ToBe self.msgType.toU16 ++ u16ToBe (.ofNat length) ++ u32ToBe MAGIC_COOKIE ++
    self.txnId.toList

def encode (self : StunMessage) : Except StunError (List UInt8) := do
  let body ← self.attrs.foldlM (fun body attr => attr.encode self.txnId body) []
  if body.length > U16_MAX then .error (.invalidMsg "message too large")
  else return self.header body.length ++ body

/-- Decode from wire bytes, with the number of bytes that the message takes. There is no message
yet if the bytes do not hold it all. -/
def decode (src : List UInt8) : Except StunError (Option (Nat × StunMessage)) :=
  if src.length < HEADER_SIZE then .ok none
  else
    let rawType := u16FromBe (src.take 2)
    if rawType &&& 0xC000 ≠ 0 then .error (.invalidMsg "top two bits not zero")
    else
      let length := (u16FromBe ((src.drop 2).take 2)).toNat
      if length % 4 ≠ 0 then .error (.invalidMsg "length not 4-byte aligned")
      else if u32FromBe ((src.drop 4).take 4) ≠ MAGIC_COOKIE then
        .error (.invalidMsg "bad magic cookie")
      else if src.length < HEADER_SIZE + length then .ok none
      else do
        let msgType ← MessageType.tryFrom rawType
        let txnId := fixed 12 (src.drop 8)
        let attrs ← decodeAttrs txnId length ((src.drop HEADER_SIZE).take length)
        return some (HEADER_SIZE + length, { msgType, txnId, attrs })

end StunMessage

/-! ### Values read back -/

theorem zipWith_xor_xor {width : Nat} (octets key : Vector UInt8 width) :
    (octets.zipWith (· ^^^ ·) key).zipWith (· ^^^ ·) key = octets := by
  ext index bound
  simp only [Vector.getElem_zipWith, UInt8.xor_assoc, UInt8.xor_self, UInt8.xor_zero]

/-- Combining an address twice gives the address, without flow information and scope. -/
theorem xorAddress_xorAddress (addr : SocketAddr) (txnId : TransactionId) :
    xorAddress (xorAddress addr txnId) txnId = .new addr.ip addr.port := by
  have ip : xorIp txnId (xorIp txnId addr.ip) = addr.ip := by
    cases addr.ip with
    | v4 octets => exact congrArg IpAddr.v4 (zipWith_xor_xor octets _)
    | v6 octets => exact congrArg IpAddr.v6 (zipWith_xor_xor octets _)
  rw [xorAddress, xorAddress, SocketAddr.ip_new, SocketAddr.port_new, ip, UInt16.xor_assoc,
    UInt16.xor_self, UInt16.xor_zero]

/-- The fields of an address value. -/
structure AddressFields {width : Nat} (value : List UInt8) (family : UInt8) (port : UInt16)
    (octets : Vector UInt8 width) : Prop where
  length : value.length = 4 + width
  family : value.getD 1 0 = family
  port : u16FromBe ((value.drop 2).take 2) = port
  octets : fixed width (value.drop 4) = octets

theorem addressFields {width : Nat} (family : UInt8) (port : UInt16) (octets : Vector UInt8 width) :
    AddressFields (addressValue family port octets) family port octets where
  length := by
    rw [addressValue, List.length_append, List.length_append, length_u16ToBe, Vector.length_toList]
    rfl
  family := rfl
  port := by
    have behind : (addressValue family port octets).drop 2 = u16ToBe port ++ octets.toList := by
      rw [addressValue, List.append_assoc]
      rfl
    rw [behind, List.take_left' (length_u16ToBe port), u16FromBe_u16ToBe]
  octets := by
    have behind : (addressValue family port octets).drop 4 = octets.toList :=
      List.drop_left' (by rw [List.length_append, length_u16ToBe]; rfl)
    rw [behind, ← List.append_nil octets.toList, fixed_toList_append]

theorem decodeAddress_encodeAddress (addr : SocketAddr) :
    decodeAddress (encodeAddress addr) = .ok (.new addr.ip addr.port) := by
  unfold encodeAddress
  cases addr.ip with
  | v4 octets =>
    have fields := addressFields FAMILY_IPV4 addr.port octets
    simp only [decodeAddress, fields.length, fields.family, fields.port, fields.octets]
    rfl
  | v6 octets =>
    have fields := addressFields FAMILY_IPV6 addr.port octets
    simp only [decodeAddress, fields.length, fields.family, fields.port, fields.octets]
    rfl

theorem class_number (code : UInt16) :
    ((code / 100).toUInt8 &&& CLASS_MASK &&& CLASS_MASK).toUInt16 * 100 +
      (code % 100).toUInt8.toUInt16 = code % 800 := by
  have mask (byte : Nat) : byte &&& 7 = byte % 8 := Nat.and_two_pow_sub_one_eq_mod byte 3
  have code_class : code.toNat / 100 % 2 ^ 8 % 8 % 8 = code.toNat / 100 % 8 := by
    rw [Nat.mod_mod, Nat.mod_mod_of_dvd _ (by decide)]
  have number : code.toNat % 100 % 2 ^ 8 = code.toNat % 100 :=
    Nat.mod_eq_of_lt (Nat.lt_trans (Nat.mod_lt _ (by decide)) (by decide))
  have parts : code.toNat % 800 = code.toNat % 100 + 100 * (code.toNat / 100 % 8) :=
    @Nat.mod_mul 100 8 code.toNat
  apply UInt16.toNat_inj.mp
  simp only [UInt16.toNat_add, UInt16.toNat_mul, UInt8.toNat_toUInt16, UInt8.toNat_and,
    UInt16.toNat_toUInt8, UInt16.toNat_div, UInt16.toNat_mod, CLASS_MASK, UInt8.reduceToNat,
    UInt16.reduceToNat, mask, code_class, number, parts]
  omega

/-- A code is read modulo 800, because its class has three bits. -/
theorem decodeError_encodeError (code : UInt16) (reason : String) :
    decodeError (encodeError code reason) = .ok (.errorCode (code % 800) reason) := by
  have long : ¬(encodeError code reason).length < 4 := by
    rw [encodeError, List.length_append]
    exact Nat.not_lt.mpr (Nat.le_add_right 4 _)
  have text : Utf8.ofBytesLossy ((encodeError code reason).drop 4) = reason :=
    Utf8.ofBytesLossy_bytes reason
  rw [decodeError, if_neg long, text, ← class_number]
  rfl

/-- What is read back of an attribute. -/
def Attribute.readBack : Attribute → Attribute
  | .mappedAddress addr => .mappedAddress (.new addr.ip addr.port)
  | .xorMappedAddress addr => .xorMappedAddress (.new addr.ip addr.port)
  | .errorCode code reason => .errorCode (code % 800) reason
  | .software text => .software text
  | .unknown attrType value => .unknown attrType value

/-- An unknown attribute does not use a type that is known. -/
def Attribute.Unambiguous : Attribute → Prop
  | .unknown attrType _ =>
    attrType ≠ ATTR_MAPPED_ADDRESS ∧ attrType ≠ ATTR_ERROR_CODE ∧
      attrType ≠ ATTR_XOR_MAPPED_ADDRESS ∧ attrType ≠ ATTR_SOFTWARE
  | _ => True

instance : DecidablePred Attribute.Unambiguous
  | .unknown attrType _ =>
    inferInstanceAs (Decidable (attrType ≠ ATTR_MAPPED_ADDRESS ∧ attrType ≠ ATTR_ERROR_CODE ∧
      attrType ≠ ATTR_XOR_MAPPED_ADDRESS ∧ attrType ≠ ATTR_SOFTWARE))
  | .mappedAddress _ | .xorMappedAddress _ | .errorCode _ _ | .software _ =>
    inferInstanceAs (Decidable True)

variable {attr : Attribute} {value src : List UInt8} {txnId : TransactionId}
  {attrs : List Attribute} {consumed fuel : Nat} {message : StunMessage}

theorem Attribute.decodeValue_typeAndValue (unambiguous : attr.Unambiguous)
    (txnId : TransactionId) :
    decodeValue txnId (attr.typeAndValue txnId).1 (attr.typeAndValue txnId).2 =
      .ok attr.readBack := by
  cases attr with
  | mappedAddress addr =>
    show (decodeAddress (encodeAddress addr)).map _ = _
    rw [decodeAddress_encodeAddress]
    rfl
  | xorMappedAddress addr =>
    show (decodeAddress (encodeAddress (xorAddress addr txnId))).map _ = _
    have ip : SocketAddr.new (xorAddress addr txnId).ip (xorAddress addr txnId).port =
        xorAddress addr txnId := SocketAddr.new_ip_port (SocketAddr.plain_new _ _)
    rw [decodeAddress_encodeAddress, ip]
    exact congrArg (fun read => Except.ok (Attribute.xorMappedAddress read))
      (xorAddress_xorAddress addr txnId)
  | errorCode code reason => exact decodeError_encodeError code reason
  | software text =>
    exact congrArg (fun read => Except.ok (Attribute.software read)) (Utf8.ofBytesLossy_bytes text)
  | unknown attrType value =>
    obtain ⟨mapped, error, xor, software⟩ := unambiguous
    show decodeValue txnId attrType value = _
    rw [decodeValue, if_neg mapped, if_neg xor, if_neg error, if_neg software]
    rfl

/-! ### Attributes read back -/

namespace Attribute

theorem length_frame (attrType : UInt16) (value : List UInt8) :
    (frame attrType value).length = 4 + (value.length + 3) / 4 * 4 := by
  rw [frame, List.length_append, List.length_append, List.length_append, length_u16ToBe,
    length_u16ToBe, List.length_replicate]
  omega

/-- An attribute is read from the beginning of the bytes, and what is behind it is left. -/
theorem decode_frame {attrType : UInt16} (txnId : TransactionId) (fits : value.length ≤ U16_MAX)
    (rest : List UInt8) :
    decode txnId (frame attrType value ++ rest) =
      (decodeValue txnId attrType value).map fun attr =>
        some ((frame attrType value).length, attr) := by
  have type : (frame attrType value ++ rest).take 2 = u16ToBe attrType := by
    simp only [frame, List.append_assoc]
    exact List.take_left' (length_u16ToBe attrType)
  have length : ((frame attrType value ++ rest).drop 2).take 2 =
      u16ToBe (.ofNat value.length) := by
    simp only [frame, List.append_assoc]
    exact take_drop_field (length_u16ToBe attrType) (length_u16ToBe _)
  have own : ((frame attrType value ++ rest).drop 4).take value.length = value := by
    have front : (u16ToBe attrType ++ u16ToBe (.ofNat value.length)).length = 4 := by
      rw [List.length_append, length_u16ToBe, length_u16ToBe]
    rw [frame, List.append_assoc, List.append_assoc]
    exact take_drop_field front rfl
  have small : (UInt16.ofNat value.length).toNat = value.length :=
    UInt16.toNat_ofNat_of_lt' (Nat.lt_succ_of_le fits)
  have whole : 4 + (value.length + 3) / 4 * 4 ≤ (frame attrType value ++ rest).length := by
    rw [List.length_append, length_frame]
    exact Nat.le_add_right _ _
  have some_bytes : ¬(frame attrType value ++ rest).length < 4 := by omega
  rw [length_frame]
  simp only [decode, type, length, u16FromBe_u16ToBe, small, own, if_neg some_bytes,
    if_neg (Nat.not_lt.mpr whole)]

def bytes (txnId : TransactionId) (attr : Attribute) : List UInt8 :=
  frame (attr.typeAndValue txnId).1 (attr.typeAndValue txnId).2

theorem encode_eq_ok {dst body : List UInt8} :
    attr.encode txnId dst = .ok body ↔
      (attr.typeAndValue txnId).2.length ≤ U16_MAX ∧ dst ++ attr.bytes txnId = body := by
  have checked : attr.encode txnId dst =
      if (attr.typeAndValue txnId).2.length > U16_MAX then
        .error (.invalidMsg "attribute value too large")
      else .ok (dst ++ attr.bytes txnId) := rfl
  rw [checked]
  split
  · rename_i large
    exact ⟨nofun, fun fits => absurd fits.1 (Nat.not_le.mpr large)⟩
  · rename_i fits
    exact ⟨fun encoded => ⟨Nat.not_lt.mp fits, Except.ok.inj encoded⟩,
      fun encoded => congrArg Except.ok encoded.2⟩

end Attribute

theorem foldlM_encode_eq_ok {dst body : List UInt8} :
    attrs.foldlM (fun body attr => attr.encode txnId body) dst = .ok body ↔
      (∀ attr ∈ attrs, (attr.typeAndValue txnId).2.length ≤ U16_MAX) ∧
        dst ++ stream (Attribute.bytes txnId) attrs = body := by
  induction attrs generalizing dst with
  | nil =>
    rw [stream_nil, List.append_nil]
    exact ⟨fun encoded => ⟨nofun, Except.ok.inj encoded⟩, fun encoded => congrArg _ encoded.2⟩
  | cons attr rest inductionHypothesis =>
    rw [List.foldlM_cons, Fallible.bind_eq_ok]
    simp only [Attribute.encode_eq_ok, inductionHypothesis, List.forall_mem_cons, stream_cons]
    constructor
    · rintro ⟨_, ⟨fits, rfl⟩, others, rfl⟩
      exact ⟨⟨fits, others⟩, (List.append_assoc _ _ _).symm⟩
    · rintro ⟨⟨fits, others⟩, rfl⟩
      exact ⟨_, ⟨fits, rfl⟩, others, List.append_assoc _ _ _⟩

theorem length_stream_bytes (txnId : TransactionId) (attrs : List Attribute) :
    4 ∣ (stream (Attribute.bytes txnId) attrs).length := by
  induction attrs with
  | nil => exact Nat.dvd_zero 4
  | cons attr rest inductionHypothesis =>
    rw [stream_cons, List.length_append, Attribute.bytes, Attribute.length_frame]
    omega

/-- One turn of the loop. -/
theorem decodeAttrs_succ (nonempty : src ≠ []) :
    decodeAttrs txnId (fuel + 1) src = (Attribute.decode txnId src).bind fun
      | some (consumed, attr) => (decodeAttrs txnId fuel (src.drop consumed)).map (attr :: ·)
      | none => .error (.invalidMsg "truncated attribute") := by
  rw [decodeAttrs]
  · rfl
  · exact nonempty

theorem decodeAttrs_stream (unambiguous : ∀ attr ∈ attrs, attr.Unambiguous)
    (fit : ∀ attr ∈ attrs, (attr.typeAndValue txnId).2.length ≤ U16_MAX)
    (enough : (stream (Attribute.bytes txnId) attrs).length ≤ fuel) :
    decodeAttrs txnId fuel (stream (Attribute.bytes txnId) attrs) =
      .ok (attrs.map Attribute.readBack) := by
  induction attrs generalizing fuel with
  | nil => cases fuel <;> rfl
  | cons attr rest inductionHypothesis =>
    obtain ⟨own, others⟩ := List.forall_mem_cons.mp unambiguous
    obtain ⟨ownFits, othersFit⟩ := List.forall_mem_cons.mp fit
    have decoded : Attribute.decode txnId (stream (Attribute.bytes txnId) (attr :: rest)) =
        .ok (some ((attr.bytes txnId).length, attr.readBack)) := by
      rw [stream_cons, Attribute.bytes, Attribute.decode_frame txnId ownFits,
        Attribute.decodeValue_typeAndValue own]
      rfl
    have long : 4 ≤ (attr.bytes txnId).length := by
      rw [Attribute.bytes, Attribute.length_frame]
      exact Nat.le_add_right 4 _
    rw [stream_cons, List.length_append] at enough
    obtain ⟨fuel, rfl⟩ := Nat.exists_eq_add_one_of_ne_zero (n := fuel) (by omega)
    have nonempty : stream (Attribute.bytes txnId) (attr :: rest) ≠ [] := by
      rw [← List.length_pos_iff, stream_cons, List.length_append]
      omega
    rw [decodeAttrs_succ nonempty, decoded, stream_cons]
    simp only [Except.bind, List.drop_left]
    rw [inductionHypothesis others othersFit (by omega)]
    rfl

/-! ### Messages read back -/

theorem MessageType.tryFrom_toU16 (msgType : MessageType) :
    tryFrom msgType.toU16 = .ok msgType := by
  cases msgType <;> rfl

theorem MessageType.toU16_top (msgType : MessageType) : msgType.toU16 &&& 0xC000 = 0 := by
  cases msgType <;> rfl

namespace StunMessage

def readBack (self : StunMessage) : StunMessage :=
  { self with attrs := self.attrs.map Attribute.readBack }

theorem length_header (self : StunMessage) (length : Nat) :
    (self.header length).length = HEADER_SIZE := by
  simp only [header, List.length_append, length_u16ToBe, length_u32ToBe, Vector.length_toList]
  rfl

theorem encode_eq_ok {bytes : List UInt8} :
    message.encode = .ok bytes ↔
      (∀ attr ∈ message.attrs, (attr.typeAndValue message.txnId).2.length ≤ U16_MAX) ∧
        (stream (Attribute.bytes message.txnId) message.attrs).length ≤ U16_MAX ∧
        message.header (stream (Attribute.bytes message.txnId) message.attrs).length ++
          stream (Attribute.bytes message.txnId) message.attrs = bytes := by
  rw [encode, Fallible.bind_eq_ok]
  simp only [foldlM_encode_eq_ok, List.nil_append]
  constructor
  · rintro ⟨_, ⟨fit, rfl⟩, encoded⟩
    split at encoded
    · cases encoded
    · rename_i fits
      exact ⟨fit, Nat.not_lt.mp fits, Except.ok.inj encoded⟩
  · rintro ⟨fit, fits, rfl⟩
    refine ⟨_, ⟨fit, rfl⟩, ?_⟩
    rw [if_neg (Nat.not_lt.mpr fits)]
    rfl

/-- The fields of the header, in front of anything. -/
structure HeaderFields (message : StunMessage) (length : Nat) (src : List UInt8) : Prop where
  type : u16FromBe (src.take 2) = message.msgType.toU16
  length : (u16FromBe ((src.drop 2).take 2)).toNat = length
  cookie : u32FromBe ((src.drop 4).take 4) = MAGIC_COOKIE
  txnId : fixed 12 (src.drop 8) = message.txnId

theorem headerFields (message : StunMessage) {length : Nat} (fits : length ≤ U16_MAX)
    (rest : List UInt8) : HeaderFields message length (message.header length ++ rest) := by
  have type : u16FromBe ((message.header length ++ rest).take 2) = message.msgType.toU16 := by
    simp only [header, List.append_assoc]
    rw [List.take_left' (length_u16ToBe _), u16FromBe_u16ToBe]
  have lengthField : ((message.header length ++ rest).drop 2).take 2 = u16ToBe (.ofNat length) := by
    simp only [header, List.append_assoc]
    exact take_drop_field (length_u16ToBe _) (length_u16ToBe _)
  have front : (u16ToBe message.msgType.toU16 ++ u16ToBe (.ofNat length)).length = 4 := by
    rw [List.length_append, length_u16ToBe, length_u16ToBe]
  have cookie : ((message.header length ++ rest).drop 4).take 4 = u32ToBe MAGIC_COOKIE := by
    rw [header, List.append_assoc, List.append_assoc]
    exact take_drop_field front (length_u32ToBe _)
  have txnId : (message.header length ++ rest).drop 8 = message.txnId.toList ++ rest := by
    rw [header, List.append_assoc]
    refine List.drop_left' ?_
    rw [List.length_append, front, length_u32ToBe]
  refine ⟨type, ?_, ?_, ?_⟩
  · rw [lengthField, u16FromBe_u16ToBe]
    exact UInt16.toNat_ofNat_of_lt' (Nat.lt_succ_of_le fits)
  · rw [cookie, u32FromBe_u32ToBe]
  · rw [txnId, fixed_toList_append]

/-- A written message is read back from the beginning of the bytes. -/
theorem decode_encode {bytes : List UInt8} (unambiguous : ∀ attr ∈ message.attrs, attr.Unambiguous)
    (encoded : message.encode = .ok bytes) :
    (∃ words, bytes.length = 20 + 4 * words) ∧
      ∀ rest, decode (bytes ++ rest) = .ok (some (bytes.length, message.readBack)) := by
  obtain ⟨fit, fits, rfl⟩ := encode_eq_ok.mp encoded
  have aligned := length_stream_bytes message.txnId message.attrs
  have decodedAttrs := decodeAttrs_stream unambiguous fit (Nat.le_refl _)
  generalize stream (Attribute.bytes message.txnId) message.attrs = body at *
  have length : (message.header body.length ++ body).length = HEADER_SIZE + body.length := by
    rw [List.length_append, length_header]
  constructor
  · obtain ⟨words, multiple⟩ := aligned
    exact ⟨words, by rw [length, multiple, HEADER_SIZE]⟩
  intro rest
  rw [length, List.append_assoc]
  have fields := headerFields message fits (body ++ rest)
  have own : ((message.header body.length ++ (body ++ rest)).drop HEADER_SIZE).take body.length =
      body := take_drop_field (length_header _ _) rfl
  have whole : HEADER_SIZE + body.length ≤
      (message.header body.length ++ (body ++ rest)).length := by
    rw [List.length_append, length_header, List.length_append]
    omega
  have headed : ¬(message.header body.length ++ (body ++ rest)).length < HEADER_SIZE := by omega
  rw [decode, if_neg headed]
  simp only [fields.type, fields.length, fields.cookie, fields.txnId, own, MessageType.toU16_top,
    Nat.mod_eq_zero_of_dvd aligned, if_neg (Nat.not_lt.mpr whole), MessageType.tryFrom_toU16,
    ne_eq, not_true_eq_false, if_false, decodedAttrs]
  rfl

end StunMessage

/-! ### Messages of which nothing is lost -/

namespace Attribute

/-- The address of the attribute, if it has one, has no flow information and no scope. -/
def Plain : Attribute → Prop
  | .mappedAddress addr => addr.Plain
  | .xorMappedAddress addr => addr.Plain
  | _ => True

instance : DecidablePred Plain
  | .mappedAddress addr | .xorMappedAddress addr => inferInstanceAs (Decidable addr.Plain)
  | .errorCode _ _ | .software _ | .unknown _ _ => inferInstanceAs (Decidable True)

/-- The code of the attribute, if it has one, is below 800. -/
def CodeFits : Attribute → Prop
  | .errorCode code _ => code < 800
  | _ => True

instance : DecidablePred CodeFits
  | .errorCode code _ => inferInstanceAs (Decidable (code < 800))
  | .mappedAddress _ | .xorMappedAddress _ | .software _ | .unknown _ _ =>
    inferInstanceAs (Decidable True)

theorem readBack_eq_iff (plain : attr.Plain) :
    attr.readBack = attr ↔ attr.CodeFits := by
  cases attr with
  | mappedAddress addr =>
    exact ⟨fun _ => trivial, fun _ => congrArg mappedAddress (SocketAddr.new_ip_port plain)⟩
  | xorMappedAddress addr =>
    exact ⟨fun _ => trivial, fun _ => congrArg xorMappedAddress (SocketAddr.new_ip_port plain)⟩
  | errorCode code reason =>
    show errorCode (code % 800) reason = errorCode code reason ↔ code < 800
    rw [errorCode.injEq, and_iff_left rfl, UInt16.lt_iff_toNat_lt, ← UInt16.toNat_inj,
      UInt16.toNat_mod]
    show code.toNat % 800 = code.toNat ↔ code.toNat < 800
    omega
  | software text | unknown attrType value => exact ⟨fun _ => trivial, fun _ => rfl⟩

end Attribute

namespace StunMessage

/-- Unknown attributes do not use the known types, codes are below 800, and IPv6 addresses have no
flow information and no scope. -/
structure Canonical (message : StunMessage) : Prop where
  unambiguous : ∀ attr ∈ message.attrs, attr.Unambiguous
  codeFits : ∀ attr ∈ message.attrs, attr.CodeFits
  plain : ∀ attr ∈ message.attrs, attr.Plain

theorem readBack_eq_iff (plain : ∀ attr ∈ message.attrs, attr.Plain) :
    message.readBack = message ↔ ∀ attr ∈ message.attrs, attr.CodeFits := by
  have attrs : message.readBack = message ↔
      message.attrs.map Attribute.readBack = message.attrs.map id := by
    rw [List.map_id]
    exact ⟨congrArg StunMessage.attrs, fun same => congrArg (StunMessage.mk _ _) same⟩
  rw [attrs, List.map_inj_left]
  exact forall₂_congr fun attr member => Attribute.readBack_eq_iff (plain attr member)

end StunMessage

/-- A written message takes the header and a multiple of four bytes, and it is read back from the
beginning of whatever bytes start with it. -/
theorem stun_roundtrip {message : StunMessage} {bytes : List UInt8} (canonical : message.Canonical)
    (encoded : message.encode = .ok bytes) :
    (∃ words, bytes.length = 20 + 4 * words) ∧
      ∀ rest, StunMessage.decode (bytes ++ rest) = .ok (some (bytes.length, message)) := by
  obtain ⟨length, decoded⟩ := StunMessage.decode_encode canonical.unambiguous encoded
  rw [(StunMessage.readBack_eq_iff canonical.plain).mpr canonical.codeFits] at decoded
  exact ⟨length, decoded⟩

/-- A message with an attribute of each kind. -/
def sampleMessage : StunMessage where
  msgType := .bindingResponse
  txnId := .replicate 12 7
  attrs :=
    [.mappedAddress (.v4 #v[10, 0, 0, 7] 1234), .xorMappedAddress (.v6 (.replicate 16 1) 3478 0 0),
      .errorCode 437 "stale", .software "karyon", .unknown 0x8028 [1, 2, 3, 4, 5]]

theorem stun_roundtrip_sample : ∃ bytes, sampleMessage.encode = .ok bytes ∧
    ∀ rest, StunMessage.decode (bytes ++ rest) = .ok (some (bytes.length, sampleMessage)) := by
  have written : sampleMessage.encode.isOk = true := by decide +kernel
  have canonical : sampleMessage.Canonical := ⟨by decide, by decide, by decide⟩
  cases encoded : sampleMessage.encode with
  | error reason =>
    rw [encoded] at written
    cases written
  | ok bytes => exact ⟨bytes, rfl, (stun_roundtrip canonical encoded).2⟩

/-! ### Messages that were read -/

theorem plain_of_decodeAddress {addr : SocketAddr} (decoded : decodeAddress value = .ok addr) :
    addr.Plain := by
  revert decoded
  fun_cases decodeAddress
  all_goals rintro ⟨⟩
  next => exact SocketAddr.plain_new _ _
  next => exact SocketAddr.plain_new _ _

/-- An attribute that was read is of a known type, or of an unknown one that is not known; its
address has no flow information and no scope. -/
theorem Attribute.decodeValue_eq_ok {attrType : UInt16}
    (decoded : decodeValue txnId attrType value = .ok attr) :
    attr.Unambiguous ∧ attr.Plain := by
  unfold decodeValue at decoded
  by_cases mapped : attrType = ATTR_MAPPED_ADDRESS
  · rw [if_pos mapped] at decoded
    obtain ⟨addr, read, rfl⟩ := Fallible.map_eq_ok.mp decoded
    exact ⟨trivial, plain_of_decodeAddress read⟩
  rw [if_neg mapped] at decoded
  by_cases xor : attrType = ATTR_XOR_MAPPED_ADDRESS
  · rw [if_pos xor] at decoded
    obtain ⟨addr, read, rfl⟩ := Fallible.map_eq_ok.mp decoded
    exact ⟨trivial, SocketAddr.plain_new _ _⟩
  rw [if_neg xor] at decoded
  by_cases error : attrType = ATTR_ERROR_CODE
  · rw [if_pos error, decodeError] at decoded
    split at decoded
    · cases decoded
    · cases decoded
      exact ⟨trivial, trivial⟩
  rw [if_neg error] at decoded
  by_cases software : attrType = ATTR_SOFTWARE
  · rw [if_pos software] at decoded
    cases decoded
    exact ⟨trivial, trivial⟩
  rw [if_neg software] at decoded
  cases decoded
  exact ⟨⟨mapped, error, xor, software⟩, trivial⟩

theorem Attribute.decode_eq_some (decoded : decode txnId src = .ok (some (consumed, attr))) :
    (4 ≤ consumed ∧ consumed ≤ src.length) ∧ attr.Unambiguous ∧ attr.Plain := by
  unfold decode at decoded
  simp only at decoded
  split at decoded
  · cases decoded
  · split at decoded
    · cases decoded
    · rename_i whole
      obtain ⟨found, read, ⟨⟩⟩ := Fallible.map_eq_ok.mp decoded
      exact ⟨⟨Nat.le_add_right 4 _, Nat.not_lt.mp whole⟩, decodeValue_eq_ok read⟩

/-- Every attribute takes bytes, so it is never the bound that ends the loop. -/
theorem decodeAttrs_congr {other : Nat} (enough : src.length ≤ fuel)
    (otherEnough : src.length ≤ other) :
    decodeAttrs txnId fuel src = decodeAttrs txnId other src := by
  induction fuel generalizing src other with
  | zero =>
    obtain rfl := List.eq_nil_of_length_eq_zero (Nat.le_zero.mp enough)
    cases other <;> rfl
  | succ fuel inductionHypothesis =>
    cases src with
    | nil => cases other <;> rfl
    | cons byte rest =>
      obtain ⟨other, rfl⟩ := Nat.exists_eq_add_one_of_ne_zero (n := other) (by grind)
      simp only [decodeAttrs_succ (List.cons_ne_nil byte rest)]
      cases read : Attribute.decode txnId (byte :: rest) with
      | error reason => rfl
      | ok found =>
        cases found with
        | none => rfl
        | some found =>
          have consumed := (Attribute.decode_eq_some read).1.1
          have shorter : ((byte :: rest).drop found.1).length + 1 ≤ (byte :: rest).length := by
            rw [List.length_drop, List.length_cons]
            omega
          exact congrArg (Except.map _) (inductionHypothesis (by omega) (by omega))

theorem decodeAttrs_eq_ok (decoded : decodeAttrs txnId fuel src = .ok attrs) :
    ∀ attr ∈ attrs, attr.Unambiguous ∧ attr.Plain := by
  fun_induction decodeAttrs txnId fuel src generalizing attrs with
  | case1 =>
    cases decoded
    exact nofun
  | case2 => cases decoded
  | case3 fuel src nonempty inductionHypothesis =>
    obtain ⟨found, read, decoded⟩ := Fallible.bind_eq_ok.mp decoded
    cases found with
    | none => cases decoded
    | some found =>
      obtain ⟨others, readOthers, ⟨⟩⟩ := Fallible.bind_eq_ok.mp decoded
      exact List.forall_mem_cons.mpr
        ⟨(Attribute.decode_eq_some read).2, inductionHypothesis found.1 readOthers⟩

/-- The bytes that a message takes are in front, and its attributes are those that are written. -/
theorem StunMessage.decode_eq_some (decoded : decode src = .ok (some (consumed, message))) :
    (consumed = HEADER_SIZE + (u16FromBe ((src.drop 2).take 2)).toNat ∧ consumed ≤ src.length) ∧
      ∀ attr ∈ message.attrs, attr.Unambiguous ∧ attr.Plain := by
  unfold decode at decoded
  simp only at decoded
  split at decoded
  · cases decoded
  split at decoded
  · cases decoded
  split at decoded
  · cases decoded
  split at decoded
  · cases decoded
  split at decoded
  · cases decoded
  rename_i whole
  obtain ⟨msgType, _, decoded⟩ := Fallible.bind_eq_ok.mp decoded
  obtain ⟨attrs, read, ⟨⟩⟩ := Fallible.bind_eq_ok.mp decoded
  exact ⟨⟨rfl, Nat.not_lt.mp whole⟩, decodeAttrs_eq_ok read⟩

/-- A message that was read and can be written comes back from its own bytes if and only if its
codes are below 800. -/
theorem stun_reencode_iff {received bytes : List UInt8} {consumed : Nat} {message : StunMessage}
    (decoded : StunMessage.decode received = .ok (some (consumed, message)))
    (encoded : message.encode = .ok bytes) :
    StunMessage.decode bytes = .ok (some (bytes.length, message)) ↔
      ∀ attr ∈ message.attrs, attr.CodeFits := by
  have read := (StunMessage.decode_eq_some decoded).2
  obtain ⟨_, again⟩ := StunMessage.decode_encode (fun attr member => (read attr member).1) encoded
  have reread := again []
  rw [List.append_nil] at reread
  rw [reread, Except.ok.injEq, Option.some.injEq, Prod.mk.injEq, and_iff_right rfl]
  exact StunMessage.readBack_eq_iff fun attr member => (read attr member).2

/-- An error message whose code has this class and this number. -/
def errorBytes (codeClass number : UInt8) : List UInt8 :=
  [0x01, 0x11, 0, 8, 0x21, 0x12, 0xA4, 0x42] ++ List.replicate 12 0 ++
    [0, 9, 0, 4, 0, 0, codeClass, number]

def errorMessage (code : UInt16) : StunMessage where
  msgType := .bindingError
  txnId := .replicate 12 0
  attrs := [.errorCode code ""]

theorem stun_reencode_iff_stale :
    (errorMessage 438).encode = .ok (errorBytes 4 38) ∧
      StunMessage.decode (errorBytes 4 38) =
        .ok (some ((errorBytes 4 38).length, errorMessage 438)) := by
  have decoded : StunMessage.decode (errorBytes 4 38) = .ok (some (28, errorMessage 438)) := by
    decide +kernel
  have encoded : (errorMessage 438).encode = .ok (errorBytes 4 38) := by
    decide +kernel
  exact ⟨encoded, (stun_reencode_iff decoded encoded).mpr (by decide)⟩

/-- The class seven and the number 200 are read as the code 900, which is written with the class
one and the number zero, and then read as the code 100. -/
theorem stun_reencode_loses_code :
    StunMessage.decode (errorBytes 7 200) = .ok (some (28, errorMessage 900)) ∧
      (errorMessage 900).encode = .ok (errorBytes 1 0) ∧
      StunMessage.decode (errorBytes 1 0) = .ok (some (28, errorMessage 100)) ∧
      errorMessage 100 ≠ errorMessage 900 := by
  refine ⟨?_, ?_, ?_, ?_⟩ <;> decide +kernel

end Karyon.Stun
