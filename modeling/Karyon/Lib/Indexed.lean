/-
This file says what is found in a list by its index when one entry was added at the
end or one entry was replaced, and counts entries by their indices. Lists of tasks,
calls and the like grow at their end, so an index names one entry for good.

A table may hold the indices of entries under their keys. The entries that are live
are then all in the table, as long as an entry that leaves it is ended and a key that
is given to another entry was free (`Named`).
-/

import Karyon.Lib.HashMap
import Mathlib.Data.List.Induction
import Mathlib.Logic.Basic

namespace Indexed

variable {Item : Type} {items : List Item} {item : Item} {index : Nat}

/-! ### One entry added or replaced -/

/-- Behind an added entry, an index finds what it found before, or the entry. -/
theorem concat_eq_some {last : Item} :
    (items ++ [last])[index]? = some item ↔
      items[index]? = some item ∨ index = items.length ∧ item = last := by
  rcases Nat.lt_trichotomy index items.length with less | same | more
  · rw [List.getElem?_append_left less]
    exact ⟨Or.inl, fun found => found.resolve_right fun last => Nat.ne_of_lt less last.1⟩
  · rw [same, List.getElem?_concat_length, List.getElem?_eq_none (Nat.le_refl _),
      Option.some.injEq]
    exact ⟨fun last => Or.inr ⟨rfl, last.symm⟩,
      fun found => found.elim nofun fun last => last.2.symm⟩
  · rw [List.getElem?_eq_none (by rw [List.length_append]; exact more),
      List.getElem?_eq_none (Nat.le_of_lt more)]
    exact ⟨nofun, fun found => found.resolve_right fun last => Nat.ne_of_gt more last.1⟩

variable {position : Nat} {before after : Item} {property : Item → Prop}

/-- Where an entry was replaced, its index finds the new one, and the others what they found. -/
theorem set_eq_some (found : items[position]? = some before) :
    (items.set position after)[index]? = some item ↔
      index = position ∧ after = item ∨ index ≠ position ∧ items[index]? = some item := by
  by_cases same : index = position
  · rw [same, List.getElem?_set_self (List.getElem?_eq_some_iff.mp found).1, Option.some.injEq]
    exact ⟨fun equal => Or.inl ⟨rfl, equal⟩,
      fun either => either.elim And.right fun other => absurd rfl other.1⟩
  · rw [List.getElem?_set_ne (Ne.symm same)]
    exact ⟨fun other => Or.inr ⟨same, other⟩,
      fun either => either.elim (fun own => absurd own.1 same) And.right⟩

theorem modify_eq_set {change : Item → Item} (found : items[index]? = some item) :
    items.modify index change = items.set index (change item) := by
  rw [List.modify_eq_set_getElem?, found]
  rfl

theorem set_modify {change : Item → Item} (after : Item) :
    (items.modify position change).set position after = items.set position after := by
  ext1 index
  rw [List.getElem?_set, List.getElem?_set, List.length_modify, List.getElem?_modify]
  split
  · rfl
  · simp only [id_map']

/-! ### One entry and those beside it -/

/-- Some entry beside the one at the index has the property. -/
def Beside (items : List Item) (index : Nat) (property : Item → Prop) : Prop :=
  ∃ (place : Nat) (item : Item), place ≠ index ∧ items[place]? = some item ∧ property item

theorem Beside.imp {weaker : Item → Prop} (implies : ∀ item, property item → weaker item)
    (beside : Beside items index property) : Beside items index weaker := by
  obtain ⟨place, other, different, found, holds⟩ := beside
  exact ⟨place, other, different, found, implies other holds⟩

/-- An entry with the property is the one that replaced another, or is beside it. -/
theorem exists_mem_set_iff (found : items[index]? = some before) :
    (∃ entry ∈ items.set index after, property entry) ↔
      property after ∨ Beside items index property := by
  constructor
  · rintro ⟨entry, member, holds⟩
    obtain ⟨place, there⟩ := List.getElem?_of_mem member
    rcases (set_eq_some found).mp there with ⟨_, rfl⟩ | ⟨different, its⟩
    · exact Or.inl holds
    · exact Or.inr ⟨place, entry, different, its, holds⟩
  · rintro (holds | ⟨place, entry, different, its, holds⟩)
    · exact ⟨after, List.mem_of_getElem? ((set_eq_some found).mpr (Or.inl ⟨rfl, rfl⟩)), holds⟩
    · exact ⟨entry, List.mem_of_getElem? ((set_eq_some found).mpr (Or.inr ⟨different, its⟩)),
        holds⟩

theorem exists_mem_iff (found : items[index]? = some item) :
    (∃ entry ∈ items, property entry) ↔ property item ∨ Beside items index property := by
  have same : items.set index item = items := by
    obtain ⟨bound, rfl⟩ := List.getElem?_eq_some_iff.mp found
    exact List.set_getElem_self bound
  rw [← exists_mem_set_iff found, same]

/-! ### Counting entries by their indices -/

/-- There are at least as many entries with a property as different indices at which one is. -/
theorem length_le_countP {indices : List Nat} {property : Item → Bool} (distinct : indices.Nodup)
    (found : ∀ index ∈ indices, ∃ item, items[index]? = some item ∧ property item = true) :
    indices.length ≤ items.countP property := by
  induction items using List.reverseRecOn generalizing indices with
  | nil =>
    rcases indices with _ | ⟨first, rest⟩
    · exact Nat.le_refl 0
    · obtain ⟨item, isItem, _⟩ := found first List.mem_cons_self
      cases isItem
  | append_singleton items last inductionHypothesis =>
    have others : ∀ index ∈ indices.erase items.length,
        ∃ item, items[index]? = some item ∧ property item = true := by
      intro index member
      obtain ⟨different, inside⟩ := distinct.mem_erase_iff.mp member
      obtain ⟨item, isItem, holds⟩ := found index inside
      rcases concat_eq_some.mp isItem with old | ⟨same, _⟩
      · exact ⟨item, old, holds⟩
      · exact absurd same different
    have fewer := inductionHypothesis (distinct.erase items.length) others
    rw [List.countP_append, List.countP_singleton]
    by_cases member : items.length ∈ indices
    · obtain ⟨item, isItem, holds⟩ := found items.length member
      rw [List.getElem?_concat_length] at isItem
      cases isItem
      rw [List.length_erase_of_mem member] at fewer
      rw [if_pos holds]
      omega
    · rw [List.erase_of_not_mem member] at fewer
      exact Nat.le_trans fewer (Nat.le_add_right _ _)

/-- The count of entries with a property when one of them is replaced. -/
theorem countP_set_eq (property : Item → Bool) (found : items[position]? = some before) :
    (items.set position after).countP property + (if property before then 1 else 0) =
      items.countP property + if property after then 1 else 0 := by
  obtain ⟨inside, same⟩ := List.getElem?_eq_some_iff.mp found
  have counted : (if property before then 1 else 0) ≤ items.countP property := by
    split
    · rename_i holds
      exact List.countP_pos_iff.mpr ⟨before, List.mem_of_getElem? found, holds⟩
    · exact Nat.zero_le _
  rw [List.countP_set inside, same]
  omega

section

variable {counts : Item → Bool}

theorem countP_set_le : (items.set position after).countP counts ≤
    items.countP counts + if counts after then 1 else 0 := by
  cases found : items[position]? with
  | none =>
    rw [List.set_eq_of_length_le (List.getElem?_eq_none_iff.mp found)]
    exact Nat.le_add_right _ _
  | some before => exact (countP_set_eq counts found).symm ▸ Nat.le_add_right _ _

theorem countP_modify {change : Item → Item} (same : ∀ item, counts (change item) = counts item) :
    (items.modify index change).countP counts = items.countP counts := by
  cases found : items[index]? with
  | none =>
    rw [List.modify_eq_set_getElem?, found]
    rfl
  | some item =>
    have counted : (items.set index (change item)).countP counts + _ = _ :=
      countP_set_eq counts found
    rw [same] at counted
    rw [modify_eq_set found]
    exact Nat.add_right_cancel counted

theorem countP_mapIdx {change : Nat → Item → Item}
    (same : ∀ index item, counts (change index item) = counts item) :
    (items.mapIdx change).countP counts = items.countP counts := by
  induction items using List.reverseRecOn with
  | nil => rfl
  | append_singleton before last inductionHypothesis =>
    simp only [List.mapIdx_concat, List.countP_append, List.countP_singleton, same,
      inductionHypothesis]

end

variable {Key : Type} [DecidableEq Key]

/-- There are at least as many entries with a property as values in a table that point to one,
when no two keys point to the same. -/
theorem countValues_le_countP {Value : Type} {table : HashMap Key Value} {counted : Value → Bool}
    {property : Item → Bool} (position : Value → Nat)
    (found : ∀ key value, table.lookup key = some value → counted value = true →
      ∃ item, items[position value]? = some item ∧ property item = true)
    (distinct : ∀ first second one other, table.lookup first = some one →
      table.lookup second = some other → counted one = true → counted other = true →
        position one = position other → first = second) :
    HashMap.countValues counted table ≤ items.countP property := by
  have bound : ∀ binding ∈ table.entries.filter (fun binding => counted binding.2),
      table.lookup binding.1 = some binding.2 ∧ counted binding.2 = true := by
    intro binding member
    obtain ⟨inside, holds⟩ := List.mem_filter.mp member
    exact ⟨AList.mem_lookup_iff.mpr inside, holds⟩
  rw [HashMap.countValues, List.countP_eq_length_filter,
    ← List.length_map fun binding => position binding.2]
  refine length_le_countP (List.Nodup.map_on ?_ (table.nodupKeys.nodup.filter _)) ?_
  · rintro ⟨first, one⟩ itsFirst ⟨second, other⟩ itsSecond same
    obtain ⟨oneFound, oneCounted⟩ := bound _ itsFirst
    obtain ⟨otherFound, otherCounted⟩ := bound _ itsSecond
    obtain rfl := distinct first second one other oneFound otherFound oneCounted otherCounted same
    cases oneFound.symm.trans otherFound
    rfl
  · intro index member
    obtain ⟨⟨key, value⟩, inside, rfl⟩ := List.mem_map.mp member
    obtain ⟨itsFound, holds⟩ := bound _ inside
    exact found key value itsFound holds

/-! ### A table of the live entries -/

/-- Every live entry is in the table, under its key. -/
def Named (key : Item → Key) (live : Item → Prop) (names : HashMap Key Nat) (items : List Item) :
    Prop :=
  ∀ (index : Nat) (item : Item), items[index]? = some item → live item →
    names.lookup (key item) = some index

namespace Named

variable {key : Item → Key} {live : Item → Prop} {names : HashMap Key Nat} {name : Key}
  {change : Item → Item}

theorem nil : Named key live names [] := by
  intro index item found
  rw [List.getElem?_nil] at found
  cases found

section

variable (named : Named key live names items)

include named

/-- An entry is replaced by one that is in its place in the table if it is live. -/
theorem set (own : live after → names.lookup (key after) = some index) :
    Named key live names (items.set index after) := by
  intro other item found alive
  rw [List.getElem?_set] at found
  split at found
  · rename_i same
    split at found
    · cases found
      exact same ▸ own alive
    · cases found
  · exact named other item found alive

/-- An entry is replaced by one with its key that is live only if it was. -/
theorem replace (found : items[index]? = some before) (same : key after = key before)
    (kept : live after → live before) :
    Named key live names (items.set index after) := by
  refine named.set fun alive => ?_
  rw [same]
  exact named index before found (kept alive)

/-- An entry is added that is in its place in the table if it is live. -/
theorem concat {last : Item} (own : live last → names.lookup (key last) = some items.length) :
    Named key live names (items ++ [last]) := by
  intro other item found alive
  rcases concat_eq_some.mp found with before | ⟨rfl, rfl⟩
  · exact named other item before alive
  · exact own alive

theorem forget (absent : names.lookup name = none) :
    Named key live (names.erase name) items := by
  intro other item found alive
  have own := named other item found alive
  refine (AList.lookup_erase_ne fun same => ?_).trans own
  rw [same, absent] at own
  cases own

/-- A key may be taken out when the entry that it names is ended. -/
theorem modify (found : names.lookup name = some index) (ended : ∀ item, ¬ live (change item)) :
    Named key live (names.erase name) (items.modify index change) := by
  intro other item itsFound alive
  rw [List.getElem?_modify] at itsFound
  obtain ⟨before, there, rfl⟩ := Option.map_eq_some_iff.mp itsFound
  split at alive
  · exact absurd alive (ended before)
  · rename_i different
    have own := named other before there alive
    rw [if_neg different]
    refine (AList.lookup_erase_ne fun same => different ?_).trans own
    rw [same] at own
    exact Option.some.inj (found.symm.trans own)

end

theorem insert (named : Named key live (names.erase name) items) (index : Nat) :
    Named key live (names.insert name index) items := by
  intro other item found alive
  have own := named other item found alive
  have different : key item ≠ name := by
    rintro same
    rw [same, AList.lookup_erase] at own
    cases own
  rw [AList.lookup_insert_ne different]
  exact (AList.lookup_erase_ne different).symm.trans own

/-- When every entry in the table is ended, none is live. -/
theorem clear (named : Named key live names items) (ended : ∀ item, ¬ live (change item))
    (later : HashMap Key Nat) :
    Named key live later (items.mapIdx fun index item =>
      if index ∈ names.entries.map Sigma.snd then change item else item) := by
  intro other item found alive
  rw [List.getElem?_mapIdx] at found
  obtain ⟨before, there, rfl⟩ := Option.map_eq_some_iff.mp found
  split at alive
  · exact absurd alive (ended before)
  · rename_i absent
    have own := named other before there alive
    exact absurd (List.mem_map.mpr ⟨_, AList.mem_lookup_iff.mp own, rfl⟩) absent

/-- Nothing is live beside an empty table. -/
theorem not_live (named : Named key live ∅ items) (member : item ∈ items) : ¬ live item := by
  intro alive
  obtain ⟨index, found⟩ := List.getElem?_of_mem member
  cases named index item found alive

end Named

end Indexed
