/-
This file is a small library of JSON values and of the records that are written as
JSON objects.

A number is a natural number, a negative integer or a float, as the parsers of JSON
keep them apart; machine integers are written to and read from them. A record is read
from an object by the names of its fields, or from an array by their positions. An
optional field has no value if it is missing and also if it is `null`, so an optional
value that is written comes back unless it is `null`.
-/

import Mathlib.Logic.Basic

namespace Json

/-! ### Values -/

inductive Number where
  | posInt (value : UInt64)
  | negInt (value : Int64)
  | float (bits : UInt64)

/-- A JSON value, with the fields of an object in the order in which they are met. -/
inductive Value where
  | null
  | bool (value : Bool)
  | number (value : Number)
  | string (value : String)
  | array (items : List Value)
  | object (fields : List (String × Value))

namespace Value

def isNull : Value → Bool
  | .null => true
  | _ => false

def asStr : Value → Option String
  | .string value => some value
  | _ => none

def asU64 : Value → Option UInt64
  | .number (.posInt value) => some value
  | _ => none

/-- The member of an object under a name. -/
def member (name : String) : Value → Option Value
  | .object fields => fields.lookup name
  | _ => none

/-! ### Machine integers -/

def ofUInt32 (value : UInt32) : Value :=
  .number (.posInt value.toUInt64)

def toUInt32 : Value → Option UInt32
  | .number (.posInt value) => if value ≤ 4294967295 then some value.toUInt32 else none
  | _ => none

def ofInt32 (value : Int32) : Value :=
  if 0 ≤ value then .number (.posInt value.toInt64.toUInt64) else .number (.negInt value.toInt64)

def toInt32 : Value → Option Int32
  | .number (.posInt value) =>
    if value ≤ 2147483647 then some value.toInt64.toInt32 else none
  | .number (.negInt value) => if -2147483648 ≤ value then some value.toInt32 else none
  | _ => none

@[simp] theorem toUInt32_ofUInt32 (value : UInt32) : (ofUInt32 value).toUInt32 = some value := by
  have small : value.toUInt64 ≤ 4294967295 := by
    rw [UInt64.le_iff_toNat_le, UInt32.toNat_toUInt64]
    exact Nat.le_of_lt_succ value.toNat_lt
  rw [ofUInt32, toUInt32, if_pos small, UInt32.toUInt32_toUInt64]

/-- What is read as a number of 32 bits is such a number. -/
theorem toUInt32_eq_some {value : Value} {number : UInt32} (read : value.toUInt32 = some number) :
    value = .ofUInt32 number := by
  unfold toUInt32 at read
  split at read
  · rename_i wide
    obtain ⟨small, ⟨⟩⟩ := Option.ite_none_right_eq_some.mp read
    have same : wide.toUInt32.toUInt64 = wide := by
      rw [← UInt64.toNat_inj, UInt32.toNat_toUInt64, UInt64.toNat_toUInt32]
      exact Nat.mod_eq_of_lt (Nat.lt_succ_of_le (UInt64.le_iff_toNat_le.mp small))
    rw [ofUInt32, same]
  · cases read

@[simp] theorem asU64_ofUInt32 (value : UInt32) : (ofUInt32 value).asU64 = some value.toUInt64 :=
  rfl

@[simp] theorem toInt32_ofInt32 (value : Int32) : (ofInt32 value).toInt32 = some value := by
  unfold ofInt32
  split
  · rename_i positive
    have positive64 : 0 ≤ value.toInt64 := by
      rw [Int64.le_iff_toInt_le, Int32.toInt_toInt64]
      exact Int32.le_iff_toInt_le.mp positive
    have small : value.toInt64.toUInt64 ≤ 2147483647 := by
      rw [UInt64.le_iff_toNat_le, Int64.toNat_toUInt64_of_le positive64, Int64.toNatClampNeg,
        Int32.toInt_toInt64]
      exact Int.toNat_le.mpr (Int.le_of_lt_add_one value.toInt_lt)
    rw [toInt32, if_pos small, Int64.toInt64_toUInt64, Int32.toInt32_toInt64]
  · have large : -2147483648 ≤ value.toInt64 := by
      rw [Int64.le_iff_toInt_le, Int32.toInt_toInt64]
      exact value.le_toInt
    rw [toInt32, if_pos large, Int32.toInt32_toInt64]

/-! ### Records -/

/-- The fields of a record with these names, from an object or from an array with as many
items. -/
def recordFields (names : List String) : Value → Option (List (String × Value))
  | .object fields => some fields
  | .array items => if items.length = names.length then some (names.zip items) else none
  | _ => none

end Value

/-- An optional field is left out if there is no value. -/
def skipNone (name : String) (value : Option Value) : List (String × Value) :=
  (value.map (name, ·)).toList

/-- An optional field that is missing or `null` has no value. -/
def nonNull : Option Value → Option Value
  | some .null => none
  | found => found

theorem nonNull_some {value : Value} (present : value ≠ .null) :
    nonNull (some value) = some value := by
  cases value with
  | null => exact absurd rfl present
  | _ => rfl

@[simp] theorem nonNull_nonNull (found : Option Value) :
    nonNull (nonNull found) = nonNull found := by
  match found with
  | none => rfl
  | some value => cases value <;> rfl

@[simp] theorem getD_nonNull (value : Value) : (nonNull (some value)).getD .null = value := by
  cases value <;> rfl

/-- An optional field whose value is itself a record. -/
def readOptional {Record : Type} (read : Value → Option Record) (found : Option Value) :
    Option (Option Record) :=
  match nonNull found with
  | none => some none
  | some value => (read value).map some

end Json
