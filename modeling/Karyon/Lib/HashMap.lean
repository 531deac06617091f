/-
This file is a small library of hash maps.

A hash map is Mathlib's association list with distinct keys; the order of the list
stands for the order in which an iteration meets the bindings. Besides the lookup,
insertion and erasure of Mathlib there are maps with the same bindings, the map of
the values, the change of one value, the erasure of several keys, the keys whose values
have a property, and the number of such values.
-/

import Mathlib.Data.List.AList

/-- A hash map, with its bindings in iteration order. -/
abbrev HashMap (Key Value : Type) := AList fun _ : Key => Value

/-- A hash set, with its elements in iteration order. -/
abbrev HashSet (Key : Type) := HashMap Key Unit

namespace HashMap

variable {Key Value : Type}

/-- Two hash maps with the same bindings. -/
def Same [DecidableEq Key] (first second : HashMap Key Value) : Prop :=
  ∀ key, first.lookup key = second.lookup key

/-! ### Mapping the values -/

def mapValues {Image : Type} (transform : Value → Image) (map : HashMap Key Value) :
    HashMap Key Image where
  entries := map.entries.map fun binding => ⟨binding.1, transform binding.2⟩
  nodupKeys := by
    have keys : (map.entries.map fun binding =>
        (⟨binding.1, transform binding.2⟩ : Sigma fun _ : Key => Image)).keys =
        map.entries.keys := by
      simp [List.keys, Function.comp_def]
    rw [List.NodupKeys, keys]
    exact map.nodupKeys

theorem keys_mapValues {Image : Type} (transform : Value → Image) (map : HashMap Key Value) :
    (mapValues transform map).keys = map.keys := by
  simp [AList.keys, mapValues, List.keys, Function.comp_def]

variable [DecidableEq Key]

theorem lookup_insert_eq_some {map : HashMap Key Value} {key other : Key} {value found : Value} :
    (map.insert key value).lookup other = some found ↔
      other = key ∧ value = found ∨ other ≠ key ∧ map.lookup other = some found := by
  by_cases same : other = key
  · subst same
    simp [AList.lookup_insert]
  · simp [same, AList.lookup_insert_ne same]

theorem lookup_erase_eq_some {map : HashMap Key Value} {key other : Key} {found : Value} :
    (map.erase key).lookup other = some found ↔
      other ≠ key ∧ map.lookup other = some found := by
  by_cases same : other = key
  · subst same
    simp [AList.lookup_erase]
  · simp [same, AList.lookup_erase_ne same]

theorem lookup_mapValues {Image : Type} (transform : Value → Image) (map : HashMap Key Value)
    (key : Key) : (mapValues transform map).lookup key = (map.lookup key).map transform := by
  refine Option.ext fun value => ?_
  rw [← Option.mem_def, AList.mem_lookup_iff, mapValues, List.mem_map, Option.map_eq_some_iff]
  constructor
  · rintro ⟨⟨name, source⟩, member, same⟩
    cases same
    exact ⟨source, AList.mem_lookup_iff.mpr member, rfl⟩
  · rintro ⟨source, found, rfl⟩
    exact ⟨⟨key, source⟩, AList.mem_lookup_iff.mp found, rfl⟩

/-! ### Changing one value -/

/-- The map with the value of the key changed, if there is one. -/
def modify (map : HashMap Key Value) (key : Key) (change : Value → Value) : HashMap Key Value :=
  match map.lookup key with
  | some value => map.insert key (change value)
  | none => map

theorem lookup_modify (map : HashMap Key Value) (key other : Key) (change : Value → Value) :
    (modify map key change).lookup other =
      if other = key then (map.lookup other).map change else map.lookup other := by
  unfold modify
  by_cases same : other = key
  · subst same
    rw [if_pos rfl]
    cases found : map.lookup other with
    | some value => exact AList.lookup_insert map
    | none => exact found
  · rw [if_neg same]
    split
    · exact AList.lookup_insert_ne same
    · rfl

/-! ### Erasing several keys -/

def eraseAll (map : HashMap Key Value) (keys : List Key) : HashMap Key Value :=
  keys.foldl (fun map key => map.erase key) map

theorem lookup_eraseAll (map : HashMap Key Value) (keys : List Key) (key : Key) :
    (eraseAll map keys).lookup key = if key ∈ keys then none else map.lookup key := by
  unfold eraseAll
  induction keys generalizing map with
  | nil => rw [if_neg List.not_mem_nil, List.foldl_nil]
  | cons first rest inductionHypothesis =>
    rw [List.foldl_cons, inductionHypothesis]
    by_cases later : key ∈ rest
    · rw [if_pos later, if_pos (List.mem_cons_of_mem _ later)]
    · by_cases same : key = first
      · rw [if_neg later, same, if_pos List.mem_cons_self, AList.lookup_erase]
      · rw [if_neg later, if_neg (List.mem_cons.not.mpr (not_or.mpr ⟨same, later⟩)),
          AList.lookup_erase_ne same]

/-! ### The keys whose values have a property -/

variable (property : Value → Bool)

def keysWhere (map : HashMap Key Value) : HashSet Key where
  entries := (map.entries.filter fun binding => property binding.2).map fun binding =>
    ⟨binding.1, ()⟩
  nodupKeys := by
    have keys : ((map.entries.filter fun binding => property binding.2).map fun binding =>
        (⟨binding.1, ()⟩ : Sigma fun _ : Key => Unit)).keys =
        (map.entries.filter fun binding => property binding.2).keys := by
      simp [List.keys, Function.comp_def]
    rw [List.NodupKeys, keys]
    exact List.NodupKeys.sublist List.filter_sublist map.nodupKeys

theorem mem_keysWhere {property : Value → Bool} {map : HashMap Key Value} {key : Key} :
    key ∈ keysWhere property map ↔
      ∃ value, map.lookup key = some value ∧ property value = true := by
  simp only [AList.mem_keys, AList.keys, List.keys, keysWhere, List.map_map, List.mem_map,
    List.mem_filter, Function.comp_apply]
  constructor
  · rintro ⟨⟨name, value⟩, ⟨member, holds⟩, rfl⟩
    exact ⟨value, AList.mem_lookup_iff.mpr member, holds⟩
  · rintro ⟨value, found, holds⟩
    exact ⟨⟨key, value⟩, ⟨AList.mem_lookup_iff.mp found, holds⟩, rfl⟩

/-! ### Counting the values with a property -/

def countValues (map : HashMap Key Value) : Nat :=
  map.entries.countP fun binding => property binding.2

variable (property : Value → Bool) {map : HashMap Key Value} {key : Key} {value : Value}

theorem countValues_erase (found : map.lookup key = some value) :
    countValues property (map.erase key) + (if property value then 1 else 0) =
      countValues property map := by
  have member : key ∈ map.entries.keys := AList.mem_keys.mp (AList.lookup_isSome.mp (by
    rw [found]
    rfl))
  obtain ⟨other, before, after, _, whole, erased⟩ := List.exists_of_kerase member
  have same : other = value := by
    have bound : map.lookup key = some other := AList.mem_lookup_iff.mpr (by
      rw [whole]
      exact List.mem_append_right _ List.mem_cons_self)
    rw [found] at bound
    cases bound
    rfl
  subst same
  have entries : (map.erase key).entries = before ++ after := erased
  rw [countValues, countValues, entries, whole, List.countP_append, List.countP_append,
    List.countP_cons, Nat.add_assoc]

theorem countValues_erase_absent (absent : map.lookup key = none) :
    countValues property (map.erase key) = countValues property map := by
  have entries : (map.erase key).entries = map.entries :=
    List.kerase_of_notMem_keys (AList.lookup_eq_none.mp absent)
  rw [countValues, countValues, entries]

theorem countValues_insert :
    countValues property (map.insert key value) =
      countValues property (map.erase key) + (if property value then 1 else 0) := by
  have entries : (map.insert key value).entries = ⟨key, value⟩ :: (map.erase key).entries := rfl
  rw [countValues, entries, List.countP_cons, countValues]

theorem countValues_pos :
    0 < countValues property map ↔
      ∃ key value, map.lookup key = some value ∧ property value = true := by
  rw [countValues, List.countP_pos_iff]
  constructor
  · rintro ⟨⟨key, value⟩, member, holds⟩
    exact ⟨key, value, AList.mem_lookup_iff.mpr member, holds⟩
  · rintro ⟨key, value, found, holds⟩
    exact ⟨⟨key, value⟩, AList.mem_lookup_iff.mp found, holds⟩

end HashMap
