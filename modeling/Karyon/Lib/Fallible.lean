/-
This file says what a computation that may fail has done when it succeeds: both
halves of a sequence have succeeded, and neither a function applied to the result
nor a renaming of the errors makes a success out of a failure. A function that is
applied to every element of a list has succeeded at each of them.
-/

import Mathlib.Data.List.Forall2

namespace Fallible

variable {Err Err' Value Result : Type} {first : Except Err Value} {result : Result}

/-- A sequence succeeds with what its second half makes of the value of the first. -/
theorem bind_eq_ok {second : Value → Except Err Result} :
    (first >>= second) = .ok result ↔ ∃ value, first = .ok value ∧ second value = .ok result := by
  cases first with
  | error reason =>
    constructor
    · intro impossible
      cases impossible
    · rintro ⟨value, impossible, _⟩
      cases impossible
  | ok value =>
    constructor
    · exact fun succeeded => ⟨value, rfl, succeeded⟩
    · rintro ⟨_, ⟨⟩, succeeded⟩
      exact succeeded

theorem map_eq_ok {function : Value → Result} :
    first.map function = .ok result ↔ ∃ value, first = .ok value ∧ function value = result := by
  cases first with
  | error reason =>
    constructor
    · intro impossible
      cases impossible
    · rintro ⟨value, impossible, _⟩
      cases impossible
  | ok value =>
    constructor
    · rintro ⟨⟩
      exact ⟨value, rfl, rfl⟩
    · rintro ⟨_, ⟨⟩, rfl⟩
      rfl

theorem mapError_eq_ok {function : Err → Err'} {value : Value} :
    first.mapError function = .ok value ↔ first = .ok value := by
  cases first with
  | error reason =>
    constructor
    · intro impossible
      cases impossible
    · intro impossible
      cases impossible
  | ok found =>
    show Except.ok found = .ok value ↔ _
    rw [Except.ok.injEq, Except.ok.injEq]

variable {function : Value → Except Err Result} {values : List Value} {results : List Result}

theorem mapM_eq_ok :
    values.mapM function = .ok results ↔
      List.Forall₂ (fun value result => function value = .ok result) values results := by
  induction values generalizing results with
  | nil =>
    rw [List.mapM_nil, List.forall₂_nil_left_iff]
    show Except.ok [] = Except.ok results ↔ _
    rw [Except.ok.injEq, eq_comm]
  | cons value rest inductionHypothesis =>
    rw [List.mapM_cons, bind_eq_ok]
    simp only [bind_eq_ok, inductionHypothesis, List.forall₂_cons_left_iff]
    constructor
    · rintro ⟨result, own, others, each, ⟨⟩⟩
      exact ⟨result, others, own, each, rfl⟩
    · rintro ⟨result, others, own, each, rfl⟩
      exact ⟨result, own, others, each, rfl⟩

/-- Every result of a list is the result of one of its elements. -/
theorem exists_of_mem_mapM (succeeded : values.mapM function = .ok results)
    (member : result ∈ results) : ∃ value ∈ values, function value = .ok result := by
  have each := mapM_eq_ok.mp succeeded
  clear succeeded
  induction each with
  | nil => cases member
  | cons own _ inductionHypothesis =>
    rcases List.mem_cons.mp member with rfl | later
    · exact ⟨_, List.mem_cons_self, own⟩
    · obtain ⟨value, present, found⟩ := inductionHypothesis later
      exact ⟨value, List.mem_cons_of_mem _ present, found⟩

end Fallible
