/-
This file models the waiter list of the condition variable of
`core/src/async_util/condvar.rs`.

A waiting task has a waiter id, and its waker stays in the list until a signal takes
it; from then on the waiter is signalled and its entry is empty until the task polls
or is dropped. A signal takes the first waker an iteration over the hash map meets.
The order of that iteration is arbitrary, so the model is given the waiter that is
met, and it may be any that still has its waker.
-/

import Karyon.Lib.HashMap

namespace Karyon.Core

/-- The waiting tasks with their wakers; a taken waker means signalled but not woken up yet. Ids
only grow, so the next one is not in use. -/
structure Wakers where
  wakers : HashMap Nat (Option Nat)
  nextId : Nat
  bounded : ∀ id, nextId ≤ id → wakers.lookup id = none

namespace Wakers

def new : Wakers where
  wakers := ∅
  nextId := 0
  bounded _ _ := AList.lookup_empty _

variable (self : Wakers)

/-- Add a waker and return its id. -/
def put (waker : Nat) : Nat × Wakers :=
  (self.nextId,
    { wakers := self.wakers.insert self.nextId (some waker)
      nextId := self.nextId + 1
      bounded := fun id beyond => by
        rw [AList.lookup_insert_ne (Nat.ne_of_gt beyond)]
        exact self.bounded id (Nat.le_of_succ_le beyond) })

def delete (id : Nat) : Wakers where
  wakers := self.wakers.erase id
  nextId := self.nextId
  bounded other beyond := by
    by_cases same : other = id
    · rw [same]
      exact AList.lookup_erase _ _
    · rw [AList.lookup_erase_ne same]
      exact self.bounded other beyond

def take (id : Nat) (present : (self.wakers.lookup id).isSome = true) : Wakers where
  wakers := self.wakers.insert id none
  nextId := self.nextId
  bounded other beyond := by
    have different : other ≠ id := by
      rintro rfl
      rw [self.bounded other beyond] at present
      cases present
    rw [AList.lookup_insert_ne different]
    exact self.bounded other beyond

/-- Wake one waiter, the one whose waker the iteration meets first; waiters already signalled are
skipped, and nothing happens when all are. -/
def wake (met : Nat) : Option Wakers :=
  match found : self.wakers.lookup met with
  | some (some _) => some (self.take met (by rw [found]; rfl))
  | _ => if self.wakers.entries.any fun binding => binding.2.isSome then none else some self

/-- Drop a waiter: if it was signalled but not woken up, the signal is passed on. -/
def dropWaiter (id : Nat) (met : Nat) : Option Wakers :=
  match self.wakers.lookup id with
  | some none => (self.delete id).wake met
  | _ => some (self.delete id)

/-! ### Counting the waiters -/

def waiting : Nat :=
  HashMap.countValues Option.isSome self.wakers

/-- The waiters that have been signalled and not woken up yet. -/
def signalled : Nat :=
  HashMap.countValues Option.isNone self.wakers

variable {id : Nat} {entry : Option Nat}

section

variable (found : self.wakers.lookup id = some entry)

include found

theorem delete_waiting :
    (self.delete id).waiting + (if entry.isSome then 1 else 0) = self.waiting :=
  HashMap.countValues_erase _ found

theorem delete_signalled :
    (self.delete id).signalled + (if entry.isNone then 1 else 0) = self.signalled :=
  HashMap.countValues_erase _ found

end

variable {self} {met : Nat}

/-- A signal moves one waiter from the waiting ones to the signalled ones, if there is any. -/
theorem wake_counts {woken : Wakers} (signal : self.wake met = some woken) :
    (self.waiting = 0 ∧ woken = self) ∨
      (woken.waiting + 1 = self.waiting ∧ woken.signalled = self.signalled + 1) := by
  revert signal
  fun_cases wake
  all_goals rintro ⟨⟩
  next found =>
    have before := HashMap.countValues_erase Option.isSome found
    have beforeSignalled := HashMap.countValues_erase Option.isNone found
    refine Or.inr ⟨?_, ?_⟩
    · rw [waiting, waiting, take, HashMap.countValues_insert, ← before]
      rfl
    · rw [signalled, signalled, take, HashMap.countValues_insert, ← beforeSignalled]
      rfl
  next nobody _ =>
    refine Or.inl ⟨?_, rfl⟩
    rw [waiting, HashMap.countValues, List.countP_eq_zero]
    intro binding member some
    exact nobody (List.any_eq_true.mpr ⟨binding, member, some⟩)

theorem wake_lookup {woken : Wakers} (signal : self.wake met = some woken) (id : Nat) :
    (woken.wakers.lookup id).isSome = (self.wakers.lookup id).isSome := by
  revert signal
  fun_cases wake
  all_goals rintro ⟨⟩
  next found =>
    by_cases same : id = met
    · subst same
      rw [take, AList.lookup_insert, found]
      rfl
    · rw [take, AList.lookup_insert_ne same]
  next => rfl

theorem put_lookup {waker : Nat} (present : ((self.put waker).2.wakers.lookup id).isSome = true) :
    id = self.nextId ∨ (self.wakers.lookup id).isSome = true := by
  by_cases same : id = self.nextId
  · exact Or.inl same
  · rw [put, AList.lookup_insert_ne same] at present
    exact Or.inr present

theorem delete_lookup {other : Nat} (present : ((self.delete id).wakers.lookup other).isSome = true)
    : other ≠ id ∧ (self.wakers.lookup other).isSome = true := by
  by_cases same : other = id
  · subst same
    rw [delete, AList.lookup_erase] at present
    cases present
  · rw [delete, AList.lookup_erase_ne same] at present
    exact ⟨same, present⟩

variable {left : Wakers} (passed : self.dropWaiter id met = some left)

include passed

theorem dropWaiter_lookup {other : Nat} (present : (left.wakers.lookup other).isSome = true) :
    other ≠ id ∧ (self.wakers.lookup other).isSome = true := by
  unfold dropWaiter at passed
  split at passed
  · rw [wake_lookup passed] at present
    exact delete_lookup present
  · cases passed
    exact delete_lookup present

/-- Dropping a waiter loses no signal as long as another one waits. -/
theorem dropWaiter_counts (waits : 0 < left.waiting) :
    0 < self.waiting ∧ self.signalled ≤ left.signalled := by
  unfold dropWaiter at passed
  split at passed
  · rename_i signalled
    have waiting := self.delete_waiting signalled
    have fewer := self.delete_signalled signalled
    simp only [Option.isSome_none, Option.isNone_none, if_true, Bool.false_eq_true,
      if_false] at waiting fewer
    rcases wake_counts passed with ⟨nobody, rfl⟩ | ⟨taken, more⟩
    · omega
    · omega
  · rename_i other
    cases passed
    cases found : self.wakers.lookup id with
    | none =>
      have waiting : (self.delete id).waiting = self.waiting :=
        HashMap.countValues_erase_absent _ found
      have same : (self.delete id).signalled = self.signalled :=
        HashMap.countValues_erase_absent _ found
      omega
    | some entry =>
      cases entry with
      | none => exact absurd found other
      | some waker =>
        have waiting := self.delete_waiting found
        have same := self.delete_signalled found
        simp only [Option.isSome_some, Option.isNone_some, if_true, Bool.false_eq_true,
          if_false] at waiting same
        omega

end Wakers

end Karyon.Core
