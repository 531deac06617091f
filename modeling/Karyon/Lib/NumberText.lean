/-
This file is a small library about numbers as texts.

A number is read as the digits at the beginning of a text, with a bound on how many there may
be and on the number itself, as address readers do (`readNumber`). It is read back from its
digits in front of anything that is not a digit (`readNumber_toDigits`), and what is left is
the end of the text (`suffix_of_readNumber`).
-/

import Mathlib.Data.Bool.AllAny
import Mathlib.Data.List.Basic
import Mathlib.Tactic.IntervalCases

namespace NumberText

/-! ### Digits -/

/-- The value of a character as a digit, and sixteen if it is none. -/
def digitValue (c : Char) : Nat :=
  if '0' ≤ c ∧ c ≤ '9' then c.toNat - '0'.toNat
  else if 'a' ≤ c ∧ c ≤ 'f' then c.toNat - 'a'.toNat + 10
  else if 'A' ≤ c ∧ c ≤ 'F' then c.toNat - 'A'.toNat + 10
  else 16

def isDigit (radix : Nat) (c : Char) : Bool :=
  decide (digitValue c < radix)

/-- The number that digits stand for. -/
def value (radix : Nat) (digits : List Char) : Nat :=
  digits.foldl (fun sum c => sum * radix + digitValue c) 0

variable {n : Nat}

theorem digitValue_digitChar (small : n < 16) : digitValue n.digitChar = n := by
  interval_cases n <;> rfl

variable {c : Char}

theorem isDigit_of_isDigit {small large : Nat} (le : small ≤ large) (digit : isDigit small c = true)
    : isDigit large c = true :=
  decide_eq_true (Nat.lt_of_lt_of_le (of_decide_eq_true digit) le)

/-- Digits lie between the controls, the space and the common separators, and the braces. -/
theorem toNat_of_isDigit (digit : isDigit 16 c = true) : 48 ≤ c.toNat ∧ c.toNat ≤ 102 := by
  have small : digitValue c < 16 := of_decide_eq_true digit
  unfold digitValue at small
  split at small
  · rename_i range
    exact ⟨range.1, Nat.le_trans range.2 (by decide)⟩
  · split at small
    · rename_i range
      exact ⟨Nat.le_trans (by decide) range.1, range.2⟩
    · split at small
      · rename_i range
        exact ⟨Nat.le_trans (by decide) range.1, Nat.le_trans range.2 (by decide)⟩
      · exact absurd small (Nat.lt_irrefl 16)

section Radix

variable {radix : Nat}

theorem isDigit_of_mem_toDigits (lower : 1 < radix) (upper : radix ≤ 16)
    (member : c ∈ Nat.toDigits radix n) : isDigit radix c = true := by
  induction n using Nat.strongRecOn generalizing c with
  | ind n inductionHypothesis =>
    rw [Nat.toDigits_eq_if lower] at member
    split at member
    · rename_i small
      rw [List.mem_singleton.mp member, isDigit,
        digitValue_digitChar (Nat.lt_of_lt_of_le small upper)]
      exact decide_eq_true small
    · rename_i large
      rcases List.mem_append.mp member with front | last
      · refine inductionHypothesis (n / radix) (Nat.div_lt_self ?_ lower) front
        omega
      · have small := Nat.mod_lt n (Nat.lt_of_succ_lt lower)
        rw [List.mem_singleton.mp last, isDigit,
          digitValue_digitChar (Nat.lt_of_lt_of_le small upper)]
        exact decide_eq_true small

theorem value_toDigits (lower : 1 < radix) (upper : radix ≤ 16) (n : Nat) :
    value radix (Nat.toDigits radix n) = n := by
  induction n using Nat.strongRecOn with
  | ind n inductionHypothesis =>
    rw [Nat.toDigits_eq_if lower]
    split
    · rename_i small
      have own := digitValue_digitChar (Nat.lt_of_lt_of_le small upper)
      rw [value, List.foldl_cons, List.foldl_nil, own, Nat.zero_mul, Nat.zero_add]
    · rename_i large
      have small := Nat.mod_lt n (Nat.lt_of_succ_lt lower)
      rw [value, List.foldl_append, List.foldl_cons, List.foldl_nil, ← value,
        digitValue_digitChar (Nat.lt_of_lt_of_le small upper),
        inductionHypothesis (n / radix) (Nat.div_lt_self (by omega) lower)]
      exact Nat.div_add_mod' n radix

/-- A number that is not zero is written without a zero in front. -/
theorem head_toDigits_ne_zero (lower : 1 < radix) (positive : n ≠ 0) :
    (Nat.toDigits radix n).head? ≠ some '0' := by
  induction n using Nat.strongRecOn with
  | ind n inductionHypothesis =>
    rw [Nat.toDigits_eq_if lower]
    split
    · rw [List.head?_cons, ne_eq, Option.some_inj, Nat.digitChar_eq_zero]
      exact positive
    · rename_i large
      have quotient : n / radix ≠ 0 := by
        rw [ne_eq, Nat.div_eq_zero_iff]
        omega
      rw [List.head?_append_of_ne_nil _ Nat.toDigits_ne_nil]
      exact inductionHypothesis (n / radix) (Nat.div_lt_self (by omega) lower) quotient

end Radix

/-! ### Reading numbers -/

/-- Read a number below a limit. All digits that are there are taken; a number may have so many
of them, and a zero in front of others only where that is allowed. -/
def readNumber (radix maxDigits limit : Nat) (allowZeroPrefix : Bool) (chars : List Char) :
    Option (Nat × List Char) :=
  let digits := chars.takeWhile (isDigit radix)
  if digits.isEmpty || decide (maxDigits < digits.length) ||
      (!allowZeroPrefix && digits.head? == some '0' && decide (1 < digits.length)) ||
      decide (limit ≤ value radix digits) then none
  else some (value radix digits, chars.dropWhile (isDigit radix))

/-- Read a separator and what comes after it. -/
def readSeparator {Read : Type} (separator : Char)
    (read : List Char → Option (Read × List Char)) : List Char → Option (Read × List Char)
  | [] => none
  | c :: rest => if c = separator then read rest else none

def readGivenChar (given : Char) : List Char → Option (List Char)
  | [] => none
  | c :: rest => if c = given then some rest else none

/-- The texts that may follow a number. -/
def EndsNumber (radix : Nat) (rest : List Char) : Prop :=
  ∀ c, rest.head? = some c → isDigit radix c = false

theorem endsNumber_nil (radix : Nat) : EndsNumber radix [] := by
  intro c found
  cases found

theorem endsNumber_cons {radix : Nat} (other : isDigit radix c = false) (rest : List Char) :
    EndsNumber radix (c :: rest) := by
  intro first found
  cases found
  exact other

section Numbers

variable {radix maxDigits limit : Nat} {rest : List Char}

section

variable (lower : 1 < radix) (upper : radix ≤ 16)

include lower upper

theorem takeWhile_toDigits (n : Nat) (ends : EndsNumber radix rest) :
    (Nat.toDigits radix n ++ rest).takeWhile (isDigit radix) = Nat.toDigits radix n := by
  have none : rest.takeWhile (isDigit radix) = [] := by
    cases rest with
    | nil => rfl
    | cons c rest => rw [List.takeWhile_cons, ends c rfl]; rfl
  rw [List.takeWhile_append_of_pos fun _ => isDigit_of_mem_toDigits lower upper, none,
    List.append_nil]

theorem dropWhile_toDigits (n : Nat) (ends : EndsNumber radix rest) :
    (Nat.toDigits radix n ++ rest).dropWhile (isDigit radix) = rest := by
  rw [List.dropWhile_append_of_pos fun _ => isDigit_of_mem_toDigits lower upper]
  cases rest with
  | nil => rfl
  | cons c rest => rw [List.dropWhile_cons, ends c rfl]; rfl

theorem readNumber_toDigits (allowZeroPrefix : Bool) (fits : n < limit)
    (few : n < radix ^ maxDigits) (some_ : 0 < maxDigits) (ends : EndsNumber radix rest) :
    readNumber radix maxDigits limit allowZeroPrefix (Nat.toDigits radix n ++ rest) =
      some (n, rest) := by
  have short : (Nat.toDigits radix n).length ≤ maxDigits :=
    (Nat.length_toDigits_le_iff lower some_).mpr few
  have plain : (Nat.toDigits radix n).head? = some '0' → (Nat.toDigits radix n).length = 1 := by
    intro zero
    by_cases positive : n = 0
    · rw [positive, Nat.toDigits_zero]
      rfl
    · exact absurd zero (head_toDigits_ne_zero lower positive)
  rw [readNumber, takeWhile_toDigits lower upper n ends, dropWhile_toDigits lower upper n ends,
    value_toDigits lower upper]
  refine if_neg ?_
  simp only [Bool.or_eq_true, Bool.and_eq_true, decide_eq_true_eq, List.isEmpty_iff,
    beq_iff_eq, not_or]
  refine ⟨⟨⟨Nat.toDigits_ne_nil, Nat.not_lt.mpr short⟩, ?_⟩, Nat.not_le.mpr fits⟩
  rintro ⟨⟨_, zero⟩, long⟩
  rw [plain zero] at long
  exact Nat.lt_irrefl 1 long

end

variable {allowZeroPrefix : Bool}

/-- What is left behind a number that was read. -/
theorem suffix_of_readNumber {chars : List Char}
    (read : readNumber radix maxDigits limit allowZeroPrefix chars = some (n, rest)) :
    rest <:+ chars := by
  unfold readNumber at read
  obtain ⟨_, ⟨⟩⟩ := Option.ite_none_left_eq_some.mp read
  exact List.dropWhile_suffix _

theorem readNumber_cons_eq_none (other : isDigit radix c = false) :
    readNumber radix maxDigits limit allowZeroPrefix (c :: rest) = none := by
  rw [readNumber, List.takeWhile_cons, other]
  rfl

end Numbers

theorem readSeparator_eq_some {Read : Type} {separator : Char}
    {read : List Char → Option (Read × List Char)} {chars : List Char}
    {result : Read × List Char} (found : readSeparator separator read chars = some result) :
    ∃ rest, chars = separator :: rest ∧ read rest = some result := by
  cases chars with
  | nil => cases found
  | cons c rest =>
    obtain ⟨same, found⟩ := Option.ite_none_right_eq_some.mp found
    exact ⟨rest, by rw [same], found⟩

theorem readSeparator_cons {Read : Type} (separator : Char)
    (read : List Char → Option (Read × List Char)) (rest : List Char) :
    readSeparator separator read (separator :: rest) = read rest :=
  if_pos rfl

end NumberText
