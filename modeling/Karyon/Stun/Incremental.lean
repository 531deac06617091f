/-
This file is about STUN messages that arrive bit by bit: the codec of `stun/src/codec.rs` on a
framed connection.

Reading is modelled a second time here with every access to the bytes as the source makes it, by an
index or a range that may lie outside (`slice`); none does, and the loop over the attributes ends
(`decodeChecked_eq`). What was read depends on no byte behind the message, so the answer stands when
more bytes arrive, and nothing is answered before a message is complete. The messages that a
connection yields are the same for every chunking (`stun_incremental`).
-/

import Karyon.Net.Framed
import Karyon.Stun.Message

namespace Karyon.Stun

open Framing Net

/-! ### The codec -/

def StunError.toNetError : StunError → Net.Error
  | .invalidMsg msg => .io .invalidData (some ("Invalid Message: " ++ msg))

def stunCodec : Codec StunMessage where
  encode src dst :=
    match src.encode with
    | .ok bytes => .ok (bytes.length, dst ++ bytes)
    | .error error => .error error.toNetError
  decode src := (StunMessage.decode src).mapError StunError.toNetError

/-! ### Accesses to the bytes -/

/-- The bytes of a range. There are none if it is not within them, where the source panics. -/
def slice (src : List UInt8) (start stop : Nat) : Option (List UInt8) :=
  if start ≤ stop ∧ stop ≤ src.length then some ((src.drop start).take (stop - start)) else none

def decodeAddressChecked (value : List UInt8) : Option (Except StunError SocketAddr) :=
  if value.length < 4 then some (.error (.invalidMsg "address attribute too short"))
  else do
    let port := u16FromBe (← slice value 2 4)
    let family ← value[1]?
    if family = FAMILY_IPV4 ∧ value.length = 8 then
      return .ok (.new (.v4 (fixed 4 (← slice value 4 8))) port)
    else if family = FAMILY_IPV6 ∧ value.length = 20 then
      return .ok (.new (.v6 (fixed 16 (← slice value 4 20))) port)
    else return .error (.invalidMsg "bad address family or length")

def decodeErrorChecked (value : List UInt8) : Option (Except StunError Attribute) :=
  if value.length < 4 then some (.error (.invalidMsg "error attribute too short"))
  else do
    let code := ((← value[2]?) &&& CLASS_MASK).toUInt16 * 100 + (← value[3]?).toUInt16
    return .ok (.errorCode code (Utf8.ofBytesLossy (← slice value 4 value.length)))

def decodeValueChecked (txnId : TransactionId) (attrType : UInt16) (value : List UInt8) :
    Option (Except StunError Attribute) :=
  if attrType = ATTR_MAPPED_ADDRESS then (decodeAddressChecked value).map (·.map .mappedAddress)
  else if attrType = ATTR_XOR_MAPPED_ADDRESS then
    (decodeAddressChecked value).map
      (·.map fun addr => .xorMappedAddress (xorAddress addr txnId))
  else if attrType = ATTR_ERROR_CODE then decodeErrorChecked value
  else if attrType = ATTR_SOFTWARE then some (.ok (.software (Utf8.ofBytesLossy value)))
  else some (.ok (.unknown attrType value))

def Attribute.decodeChecked (txnId : TransactionId) (src : List UInt8) :
    Option (Except StunError (Option (Nat × Attribute))) :=
  if src.length < 4 then some (.ok none)
  else do
    let attrType := u16FromBe (← slice src 0 2)
    let len := (u16FromBe (← slice src 2 4)).toNat
    let padded := (len + 3) / 4 * 4
    if src.length < 4 + padded then return .ok none
    else
      let attr ← decodeValueChecked txnId attrType (← slice src 4 (4 + len))
      return attr.map fun attr => some (4 + padded, attr)

/-- The loop over the attributes from an offset on, in so many turns. -/
def attrsChecked (txnId : TransactionId) (src : List UInt8) (stop : Nat) :
    Nat → Nat → Option (Except StunError (List Attribute))
  | turns, off =>
    if off < stop then
      match turns with
      | 0 => none
      | turns + 1 => do
        match ← Attribute.decodeChecked txnId (← slice src off stop) with
        | .error error => return .error error
        | .ok none => return .error (.invalidMsg "truncated attribute")
        | .ok (some (n, attr)) =>
          return (← attrsChecked txnId src stop turns (off + n)).map (attr :: ·)
    else some (.ok [])

/-- Decode with as many turns of the loop as the attributes have bytes. -/
def StunMessage.decodeChecked (src : List UInt8) :
    Option (Except StunError (Option (Nat × StunMessage))) :=
  if src.length < HEADER_SIZE then some (.ok none)
  else do
    let rawType := u16FromBe (← slice src 0 2)
    if rawType &&& 0xC000 ≠ 0 then return .error (.invalidMsg "top two bits not zero")
    else
      let length := (u16FromBe (← slice src 2 4)).toNat
      if length % 4 ≠ 0 then return .error (.invalidMsg "length not 4-byte aligned")
      else if u32FromBe (← slice src 4 8) ≠ MAGIC_COOKIE then
        return .error (.invalidMsg "bad magic cookie")
      else if src.length < HEADER_SIZE + length then return .ok none
      else
        match MessageType.tryFrom rawType with
        | .error error => return .error error
        | .ok msgType =>
          let txnId := fixed 12 (← slice src 8 HEADER_SIZE)
          let attrs ← attrsChecked txnId src (HEADER_SIZE + length) length HEADER_SIZE
          return attrs.map fun attrs => some (HEADER_SIZE + length, { msgType, txnId, attrs })

section Accesses

variable {src value : List UInt8} {txnId : TransactionId}

theorem slice_eq_some {start stop : Nat} (order : start ≤ stop) (within : stop ≤ src.length) :
    slice src start stop = some ((src.drop start).take (stop - start)) :=
  if_pos ⟨order, within⟩

theorem getElem?_eq_getD {index : Nat} (within : index < value.length) :
    value[index]? = some (value.getD index 0) := by
  rw [List.getD_eq_getElem?_getD, List.getElem?_eq_getElem within, Option.getD_some]

theorem decodeAddressChecked_eq : decodeAddressChecked value = some (decodeAddress value) := by
  unfold decodeAddressChecked decodeAddress
  split
  · rfl
  · rename_i long
    rw [slice_eq_some (by decide) (by omega), getElem?_eq_getD (by omega)]
    dsimp only [Option.bind_eq_bind, Option.bind_some]
    split
    · rename_i v4
      rw [slice_eq_some (by decide) v4.2.ge,
        List.take_of_length_le (by rw [List.length_drop, v4.2])]
      rfl
    · split
      · rename_i v6
        rw [slice_eq_some (by decide) v6.2.ge,
          List.take_of_length_le (by rw [List.length_drop, v6.2])]
        rfl
      · rfl

theorem decodeErrorChecked_eq : decodeErrorChecked value = some (decodeError value) := by
  unfold decodeErrorChecked decodeError
  split
  · rfl
  · rename_i long
    rw [getElem?_eq_getD (by omega), getElem?_eq_getD (by omega),
      slice_eq_some (by omega) (Nat.le_refl _),
      List.take_of_length_le (by rw [List.length_drop])]
    rfl

theorem decodeValueChecked_eq (attrType : UInt16) :
    decodeValueChecked txnId attrType value =
      some (Attribute.decodeValue txnId attrType value) := by
  unfold decodeValueChecked Attribute.decodeValue
  rw [decodeAddressChecked_eq, decodeErrorChecked_eq]
  split
  · rfl
  · split
    · rfl
    · split
      · rfl
      · split <;> rfl

theorem Attribute.decodeChecked_eq : decodeChecked txnId src = some (decode txnId src) := by
  unfold decodeChecked decode
  split
  · rfl
  · rename_i long
    rw [slice_eq_some (by decide) (by omega), slice_eq_some (by decide) (by omega)]
    dsimp only [Option.bind_eq_bind, Option.bind_some, List.drop_zero]
    split
    · rfl
    · rename_i whole
      rw [slice_eq_some (by omega) (by omega), Option.bind_some, Nat.add_sub_cancel_left,
        decodeValueChecked_eq]
      rfl

/-- The loop ends, since every attribute takes bytes, and stays before the end of the attributes. -/
theorem attrsChecked_eq {stop turns off : Nat} (within : stop ≤ src.length) (order : off ≤ stop)
    (enough : stop - off ≤ turns) :
    attrsChecked txnId src stop turns off =
      some (decodeAttrs txnId turns ((src.drop off).take (stop - off))) := by
  induction turns generalizing off with
  | zero =>
    obtain rfl : off = stop := by omega
    rw [attrsChecked, if_neg (Nat.lt_irrefl _), Nat.sub_self, List.take_zero]
    rfl
  | succ turns inductionHypothesis =>
    by_cases more : off < stop
    · have length : ((src.drop off).take (stop - off)).length = stop - off := by
        rw [List.length_take, List.length_drop]
        omega
      have nonempty : (src.drop off).take (stop - off) ≠ [] := by
        rw [← List.length_pos_iff, length]
        omega
      rw [attrsChecked, if_pos more, slice_eq_some order within]
      dsimp only [Option.bind_eq_bind, Option.bind_some]
      rw [Attribute.decodeChecked_eq, Option.bind_some, decodeAttrs_succ nonempty]
      cases read : Attribute.decode txnId ((src.drop off).take (stop - off)) with
      | error error => rfl
      | ok found =>
        cases found with
        | none => rfl
        | some found =>
          obtain ⟨some_, few⟩ := (Attribute.decode_eq_some read).1
          have rest : ((src.drop off).take (stop - off)).drop found.1 =
              (src.drop (off + found.1)).take (stop - (off + found.1)) := by
            rw [List.drop_take, List.drop_drop, Nat.sub_sub]
          dsimp only [Except.bind]
          rw [inductionHypothesis (by omega) (by omega), rest]
          rfl
    · obtain rfl : off = stop := by omega
      rw [attrsChecked, if_neg more, Nat.sub_self, List.take_zero]
      rfl

/-- No access of the source is outside of the bytes. -/
theorem StunMessage.decodeChecked_eq (src : List UInt8) :
    decodeChecked src = some (decode src) := by
  unfold decodeChecked decode
  split
  · rfl
  · rename_i long
    rw [HEADER_SIZE] at *
    rw [slice_eq_some (by decide) (by omega), slice_eq_some (by decide) (by omega),
      slice_eq_some (by decide) (by omega), slice_eq_some (by decide) (by omega)]
    simp only [Option.bind_eq_bind, Option.bind_some, List.drop_zero, Nat.reduceSub]
    by_cases top : u16FromBe (src.take 2) &&& 0xC000 ≠ 0
    · rw [if_pos top, if_pos top]
      rfl
    by_cases aligned : (u16FromBe ((src.drop 2).take 2)).toNat % 4 ≠ 0
    · rw [if_neg top, if_neg top, if_pos aligned, if_pos aligned]
      rfl
    by_cases cookie : u32FromBe ((src.drop 4).take 4) ≠ MAGIC_COOKIE
    · rw [if_neg top, if_neg top, if_neg aligned, if_neg aligned, if_pos cookie, if_pos cookie]
      rfl
    rw [if_neg top, if_neg top, if_neg aligned, if_neg aligned, if_neg cookie, if_neg cookie]
    split
    · rfl
    · rename_i whole
      cases MessageType.tryFrom (u16FromBe (src.take 2)) with
      | error error => rfl
      | ok msgType =>
        dsimp only
        rw [attrsChecked_eq (Nat.not_lt.mp whole) (Nat.le_add_right _ _)
          (Nat.le_of_eq (Nat.add_sub_cancel_left ..)), Nat.add_sub_cancel_left, fixed_take]
        cases decodeAttrs (fixed 12 (src.drop 8)) (u16FromBe ((src.drop 2).take 2)).toNat
          ((src.drop 20).take (u16FromBe ((src.drop 2).take 2)).toNat) <;> rfl

end Accesses

/-! ### Bytes behind a message -/

section Extension

variable {src more : List UInt8}

theorem take_drop_append {offset width : Nat} (within : offset + width ≤ src.length) :
    ((src ++ more).drop offset).take width = (src.drop offset).take width := by
  rw [List.drop_append_of_le_length (by omega),
    List.take_append_of_le_length (by rw [List.length_drop]; omega)]

theorem headerFields_append (long : HEADER_SIZE ≤ src.length) :
    (src ++ more).take 2 = src.take 2 ∧
      ((src ++ more).drop 2).take 2 = (src.drop 2).take 2 ∧
      ((src ++ more).drop 4).take 4 = (src.drop 4).take 4 ∧
      fixed 12 ((src ++ more).drop 8) = fixed 12 (src.drop 8) := by
  rw [HEADER_SIZE] at long
  refine ⟨List.take_append_of_le_length (by omega), take_drop_append (by omega),
    take_drop_append (by omega), ?_⟩
  rw [← fixed_take, take_drop_append (by omega), fixed_take]

/-- An answer stands whatever comes behind. -/
theorem StunMessage.decode_append (answered : decode src ≠ .ok none) (more : List UInt8) :
    decode (src ++ more) = decode src := by
  by_cases short : src.length < HEADER_SIZE
  · exact absurd (by rw [decode, if_pos short]) answered
  obtain ⟨type, length, cookie, txnId⟩ := @headerFields_append src more (Nat.not_lt.mp short)
  have long : ¬ (src ++ more).length < HEADER_SIZE := by
    rw [List.length_append]
    omega
  unfold decode at answered ⊢
  rw [if_neg short] at answered ⊢
  rw [if_neg long, type, length, cookie, txnId]
  dsimp only at answered ⊢
  by_cases top : u16FromBe (src.take 2) &&& 0xC000 ≠ 0
  · rw [if_pos top, if_pos top]
  rw [if_neg top] at answered ⊢
  rw [if_neg top]
  by_cases aligned : (u16FromBe ((src.drop 2).take 2)).toNat % 4 ≠ 0
  · rw [if_pos aligned, if_pos aligned]
  rw [if_neg aligned] at answered ⊢
  rw [if_neg aligned]
  by_cases other : u32FromBe ((src.drop 4).take 4) ≠ MAGIC_COOKIE
  · rw [if_pos other, if_pos other]
  rw [if_neg other] at answered ⊢
  rw [if_neg other]
  by_cases part : src.length < HEADER_SIZE + (u16FromBe ((src.drop 2).take 2)).toNat
  · rw [if_pos part] at answered
    exact absurd rfl answered
  rw [if_neg part, if_neg (by rw [List.length_append]; omega), take_drop_append (by omega)]

/-- A beginning of a written message is not enough. -/
theorem StunMessage.decode_part {message : StunMessage} {bytes : List UInt8}
    (encoded : message.encode = .ok bytes) (part : src <+: bytes) (proper : src ≠ bytes) :
    decode src = .ok none := by
  obtain ⟨fit, fits, whole⟩ := encode_eq_ok.mp encoded
  have aligned := length_stream_bytes message.txnId message.attrs
  generalize stream (Attribute.bytes message.txnId) message.attrs = body at *
  have fields := headerFields message fits body
  rw [whole] at fields
  have size : bytes.length = HEADER_SIZE + body.length := by
    rw [← whole, List.length_append, length_header]
  have shorter := length_lt_of_part part proper
  obtain ⟨rest, rfl⟩ := part
  by_cases short : src.length < HEADER_SIZE
  · rw [decode, if_pos short]
  obtain ⟨type, length, cookie, _⟩ := @headerFields_append src rest (Nat.not_lt.mp short)
  have ownType := fields.type
  have ownLength := fields.length
  have ownCookie := fields.cookie
  rw [type] at ownType
  rw [length] at ownLength
  rw [cookie] at ownCookie
  unfold decode
  rw [if_neg short]
  dsimp only
  rw [ownType, MessageType.toU16_top, ownLength, Nat.mod_eq_zero_of_dvd aligned, ownCookie,
    if_neg (fun other => other rfl), if_neg (fun other => other rfl),
    if_neg (fun other => other rfl), if_pos (by omega)]

end Extension

theorem stunCodec_stands : stunCodec.Stands where
  answer buffer more answered := by
    refine congrArg (Except.mapError _) (StunMessage.decode_append ?_ more)
    intro none
    exact answered (congrArg (Except.mapError StunError.toNetError) none)
  within buffer n message decoded :=
    (StunMessage.decode_eq_some (Fallible.mapError_eq_ok.mp decoded)).1.2

/-- Incremental decoding. No access is out of range and the loop ends; a message that is read takes
the bytes that its header says, and they are there; what was answered stands, a message as well as
an error; and a beginning of a written message is not answered. What a connection yields is
therefore the same for every chunking. -/
theorem stun_incremental :
    (∀ src, StunMessage.decodeChecked src = some (StunMessage.decode src)) ∧
    (∀ src consumed message, StunMessage.decode src = .ok (some (consumed, message)) →
      consumed = 20 + (u16FromBe ((src.drop 2).take 2)).toNat ∧ consumed ≤ src.length) ∧
    (∀ src more found, StunMessage.decode src = .ok (some found) →
      StunMessage.decode (src ++ more) = .ok (some found)) ∧
    (∀ src more error, StunMessage.decode src = .error error →
      StunMessage.decode (src ++ more) = .error error) ∧
    (∀ (message : StunMessage) bytes src, message.encode = .ok bytes → src <+: bytes →
      src ≠ bytes → StunMessage.decode src = .ok none) ∧
    ∀ (calls : Nat) (first second : List Chunk), bytesOf first = bytesOf second →
      FramedReader.results calls (.new stunCodec) (first.map .chunk) =
        FramedReader.results calls (.new stunCodec) (second.map .chunk) := by
  refine ⟨StunMessage.decodeChecked_eq,
    fun src consumed message decoded => (StunMessage.decode_eq_some decoded).1,
    fun src more found decoded => ?_, fun src more error decoded => ?_,
    fun message bytes src => StunMessage.decode_part, fun calls first second same => ?_⟩
  · rw [StunMessage.decode_append (by rw [decoded]; nofun), decoded]
  · rw [StunMessage.decode_append (by rw [decoded]; nofun), decoded]
  · rw [FramedReader.new, FramedReader.results_chunks stunCodec_stands,
      FramedReader.results_chunks stunCodec_stands, same]

end Karyon.Stun
