/-
This file is a small library about texts as UTF-8 bytes.

The bytes of a text determine it (`bytes_injective`). Bytes that may come from anywhere
are read with the replacement character in place of every part that is not a character:
such a part is as long as it could still be continued to a character, and a single byte
otherwise. The bytes of a text are read as the text (`ofBytesLossy_bytes`).
-/

import Mathlib.Data.List.Basic

namespace Utf8

/-! ### The bytes of a text -/

def bytes (text : String) : List UInt8 :=
  text.toUTF8.data.toList

theorem bytes_eq_flatMap (text : String) :
    bytes text = text.toList.flatMap String.utf8EncodeChar := by
  have spelled : text.toByteArray = (text.toList.flatMap String.utf8EncodeChar).toByteArray := by
    rw [← List.utf8Encode, ← String.toByteArray_ofList, String.ofList_toList]
  rw [bytes, String.toUTF8_eq_toByteArray, spelled, List.data_toByteArray]

theorem bytes_injective {first second : String} (same : bytes first = bytes second) :
    first = second :=
  String.toByteArray_inj.mp (ByteArray.ext (Array.toList_inj.mp same))

@[simp] theorem bytes_append (first second : String) :
    bytes (first ++ second) = bytes first ++ bytes second := by
  rw [bytes, String.toUTF8_eq_toByteArray, String.toByteArray_append, ByteArray.data_append,
    Array.toList_append]
  rfl

/-! ### Reading with replacements -/

/-- The number of bytes of a character that starts with this byte, and zero if none does. -/
def charWidth (first : UInt8) : Nat :=
  if first < 0x80 then 1
  else if 0xC2 ≤ first ∧ first ≤ 0xDF then 2
  else if 0xE0 ≤ first ∧ first ≤ 0xEF then 3
  else if 0xF0 ≤ first ∧ first ≤ 0xF4 then 4
  else 0

/-- A byte that continues a character. -/
def isContinuation (byte : UInt8) : Bool :=
  byte &&& 0xC0 == 0x80

/-- The second byte of a character of three or four bytes: overlong forms, surrogates and numbers
that are too large are excluded here. -/
def secondFits (first second : UInt8) : Bool :=
  if first = 0xE0 then 0xA0 ≤ second && second ≤ 0xBF
  else if first = 0xED then 0x80 ≤ second && second ≤ 0x9F
  else if first = 0xF0 then 0x90 ≤ second && second ≤ 0xBF
  else if first = 0xF4 then 0x80 ≤ second && second ≤ 0x8F
  else isContinuation second

/-- The length of the part that is replaced: bytes that are the beginning of a character, or one
byte that is not. A byte behind the end counts as zero, which continues nothing. -/
def invalidLength (first : UInt8) (rest : List UInt8) : Nat :=
  if 3 ≤ charWidth first ∧ secondFits first (rest.getD 0 0) then
    if charWidth first = 4 ∧ isContinuation (rest.getD 1 0) then 3 else 2
  else 1

/-- The characters of the bytes, each read from at least one of them. -/
def lossyChars : Nat → List UInt8 → List Char
  | 0, _ => []
  | _ + 1, [] => []
  | fuel + 1, first :: rest =>
    match (first :: rest).toByteArray.utf8DecodeChar? 0 with
    | some char => char :: lossyChars fuel ((first :: rest).drop char.utf8Size)
    | none => Char.ofNat 0xFFFD :: lossyChars fuel ((first :: rest).drop (invalidLength first rest))

/-- The text of bytes that need not be UTF-8. -/
def ofBytesLossy (received : List UInt8) : String :=
  .ofList (lossyChars received.length received)

theorem lossyChars_utf8EncodeChar (char : Char) (fuel : Nat) (rest : List UInt8) :
    lossyChars (fuel + 1) (String.utf8EncodeChar char ++ rest) = char :: lossyChars fuel rest := by
  have read : (String.utf8EncodeChar char ++ rest).toByteArray.utf8DecodeChar? 0 = some char := by
    rw [List.toByteArray_append]
    exact ByteArray.utf8DecodeChar?_utf8EncodeChar_append
  have behind : (String.utf8EncodeChar char ++ rest).drop char.utf8Size = rest :=
    List.drop_left' (String.length_utf8EncodeChar char)
  cases spelled : String.utf8EncodeChar char ++ rest with
  | nil => exact absurd (List.append_eq_nil_iff.mp spelled).1 (String.utf8EncodeChar_ne_nil)
  | cons first others =>
    rw [spelled] at read behind
    rw [lossyChars, read]
    simp only [behind]

theorem lossyChars_flatMap (chars : List Char) {fuel : Nat} (enough : chars.length ≤ fuel) :
    lossyChars fuel (chars.flatMap String.utf8EncodeChar) = chars := by
  induction chars generalizing fuel with
  | nil => cases fuel <;> rfl
  | cons char rest inductionHypothesis =>
    cases fuel with
    | zero => exact absurd enough (Nat.not_succ_le_zero _)
    | succ fuel =>
      rw [List.flatMap_cons, lossyChars_utf8EncodeChar,
        inductionHypothesis (Nat.le_of_succ_le_succ enough)]

/-- No character is written without bytes. -/
theorem length_le_length_flatMap (chars : List Char) :
    chars.length ≤ (chars.flatMap String.utf8EncodeChar).length := by
  induction chars with
  | nil => exact Nat.le_refl 0
  | cons char rest inductionHypothesis =>
    rw [List.flatMap_cons, List.length_append, List.length_cons, String.length_utf8EncodeChar,
      Nat.add_comm]
    exact Nat.add_le_add char.utf8Size_pos inductionHypothesis

@[simp] theorem ofBytesLossy_bytes (text : String) : ofBytesLossy (bytes text) = text := by
  rw [ofBytesLossy, bytes_eq_flatMap, lossyChars_flatMap _ (length_le_length_flatMap _),
    String.ofList_toList]

end Utf8
