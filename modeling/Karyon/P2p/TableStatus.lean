/-
This file says what the operations of the routing table do to the status of one
key.

An update of another key and the removal of another key leave the status of a key
as it was. An addition never changes which keys are connected: it appends a
pending entry, in the place of an incompatible one if the bucket is full. A random
search finds an entry whose status, looked up by its key, has the wanted flag.
-/

import Karyon.P2p.TableInvariant

namespace Karyon.P2p

/-! ### Searching a bucket -/

def Bucket.find (bucket : Bucket) (key : Key) : Option BucketEntry :=
  bucket.entries.find? fun e => e.entry.key == key

variable {bucket : Bucket} {test : BucketEntry → Bool}

theorem Bucket.find_eq_none {key : Key} :
    bucket.find key = none ↔ bucket.containsKey key = false := by
  rw [Bucket.find, List.find?_eq_none, Bucket.containsKey, List.any_eq_false]

theorem Bucket.find_of_mem {e : BucketEntry}
    (distinct : (bucket.entries.map fun e => e.entry.key).Nodup) (member : e ∈ bucket.entries) :
    bucket.find e.entry.key = some e := by
  obtain ⟨entries⟩ := bucket
  show (entries.find? fun other => other.entry.key == e.entry.key) = some e
  induction entries with
  | nil => cases member
  | cons head rest inductionHypothesis =>
    rw [List.map_cons, List.nodup_cons] at distinct
    rcases List.mem_cons.mp member with rfl | inRest
    · exact List.find?_cons_of_pos (by simp)
    · have different : head.entry.key ≠ e.entry.key := fun same =>
        distinct.1 (same ▸ List.mem_map_of_mem inRest)
      rw [List.find?_cons_of_neg (by simpa using different)]
      exact inductionHypothesis distinct.2 inRest

variable {change : BucketEntry → BucketEntry}

/-- Changing the first entry that passes a test changes what a search for it finds. -/
theorem updateFirst_find_self (kept : ∀ e, test (change e) = test e) (entries : List BucketEntry) :
    (updateFirst test change entries).find? test = (entries.find? test).map change := by
  induction entries with
  | nil => rfl
  | cons e rest inductionHypothesis =>
    rw [updateFirst]
    by_cases passes : test e = true
    · rw [if_pos passes, List.find?_cons_of_pos (by rw [kept, passes]),
        List.find?_cons_of_pos passes, Option.map_some]
    · rw [if_neg passes, List.find?_cons_of_neg passes, List.find?_cons_of_neg passes,
        inductionHypothesis]

/-- It changes nothing for a search that the changed entry fails before and after. -/
theorem updateFirst_find_other {other : BucketEntry → Bool}
    (before : ∀ e, test e = true → other e = false)
    (after : ∀ e, test e = true → other (change e) = false) (entries : List BucketEntry) :
    (updateFirst test change entries).find? other = entries.find? other := by
  induction entries with
  | nil => rfl
  | cons e rest inductionHypothesis =>
    rw [updateFirst]
    by_cases passes : test e = true
    · rw [if_pos passes, List.find?_cons_of_neg (by rw [after e passes]; exact Bool.false_ne_true),
        List.find?_cons_of_neg (by rw [before e passes]; exact Bool.false_ne_true)]
    · rw [if_neg passes, List.find?_cons, List.find?_cons, inductionHypothesis]

theorem eraseP_find_other {other : BucketEntry → Bool}
    (apart : ∀ e, test e = true → other e = false) (entries : List BucketEntry) :
    (entries.eraseP test).find? other = entries.find? other := by
  induction entries with
  | nil => rfl
  | cons e rest inductionHypothesis =>
    by_cases passes : test e = true
    · rw [List.eraseP_cons_of_pos passes,
        List.find?_cons_of_neg (by rw [apart e passes]; exact Bool.false_ne_true)]
    · rw [List.eraseP_cons_of_neg passes, List.find?_cons, List.find?_cons, inductionHypothesis]

theorem key_apart {key other : Key} (different : other ≠ key) (e : BucketEntry)
    (same : (e.entry.key == key) = true) : (e.entry.key == other) = false := by
  rw [beq_iff_eq] at same
  rw [same, beq_eq_false_iff_ne]
  exact different.symm

theorem Bucket.find_updateEntry_self (bucket : Bucket) (key : Key) (entryFlag : EntryStatusFlag)
    (now : Int) :
    (bucket.updateEntry key entryFlag now).find key =
      (bucket.find key).map fun e => e.setStatus entryFlag now :=
  updateFirst_find_self (fun e => by rw [e.setStatus_entry]) _

theorem Bucket.find_updateEntry_other (bucket : Bucket) {key other : Key}
    (entryFlag : EntryStatusFlag) (now : Int) (different : other ≠ key) :
    (bucket.updateEntry key entryFlag now).find other = bucket.find other :=
  updateFirst_find_other (key_apart different)
    (fun e same => by rw [e.setStatus_entry]; exact key_apart different e same) _

theorem Bucket.find_remove_other (bucket : Bucket) {key other : Key} (different : other ≠ key) :
    (bucket.remove key).find other = bucket.find other :=
  eraseP_find_other (key_apart different) _

/-- A bucket with distinct keys no longer has the key it removed. -/
theorem Bucket.find_remove_self {key : Key}
    (distinct : (bucket.entries.map fun e => e.entry.key).Nodup) :
    (bucket.remove key).find key = none := by
  obtain ⟨entries⟩ := bucket
  show ((entries.eraseP fun e => e.entry.key == key).find? fun e => e.entry.key == key) = none
  induction entries with
  | nil => rfl
  | cons e rest inductionHypothesis =>
    rw [List.map_cons, List.nodup_cons] at distinct
    by_cases same : e.entry.key = key
    · rw [List.eraseP_cons_of_pos (by simpa using same), List.find?_eq_none]
      intro other member equal
      rw [beq_iff_eq] at equal
      exact distinct.1 (same.trans equal.symm ▸ List.mem_map_of_mem member)
    · rw [List.eraseP_cons_of_neg (by simpa using same),
        List.find?_cons_of_neg (by simpa using same), inductionHypothesis distinct.2]

/-- An added entry is found if the bucket does not already have its key. -/
theorem Bucket.find_add (bucket : Bucket) (entry : Entry) (now : Int) (key : Key) :
    (bucket.add entry now).find key = (bucket.find key).or
      (if entry.key = key then
        some { status := PENDING_ENTRY, entry := entry, failures := 0, lastSeen := now }
      else none) := by
  unfold Bucket.find Bucket.add
  simp only
  rw [List.find?_append, List.find?_singleton]
  simp only [beq_iff_eq]

/-! ### The status of a key -/

namespace RoutingTable

def find (table : RoutingTable) (key : Key) : Option BucketEntry :=
  (table.bucketIndex key).bind fun idx => (table.buckets.get idx).find key

def status (table : RoutingTable) (key : Key) : Option EntryStatusFlag :=
  (table.find key).map BucketEntry.status

def Connected (table : RoutingTable) (key : Key) : Prop :=
  table.status key = some CONNECTED_ENTRY

instance (table : RoutingTable) (key : Key) : Decidable (table.Connected key) :=
  inferInstanceAs (Decidable (table.status key = some CONNECTED_ENTRY))

theorem find_new (localKey key : Key) : (RoutingTable.new localKey).find key = none := by
  refine Option.bind_eq_none_iff.mpr fun idx _ => ?_
  show ((Vector.replicate TABLE_SIZE Bucket.new)[idx.val]).find key = none
  rw [Vector.getElem_replicate]
  rfl

theorem status_new (localKey key : Key) : (RoutingTable.new localKey).status key = none := by
  rw [RoutingTable.status, find_new, Option.map_none]

theorem find_setBucket (table : RoutingTable) (idx : Fin TABLE_SIZE) (bucket : Bucket)
    (key : Key) :
    (table.setBucket idx bucket).find key =
      if table.bucketIndex key = some idx then bucket.find key else table.find key := by
  have index : (table.setBucket idx bucket).bucketIndex key = table.bucketIndex key := rfl
  unfold RoutingTable.find
  rw [index]
  cases home : table.bucketIndex key with
  | none => rw [if_neg nofun, Option.bind_none, Option.bind_none]
  | some other =>
    by_cases same : other = idx
    · rw [same, if_pos rfl, Option.bind_some, RoutingTable.setBucket_self]
    · rw [if_neg (fun equal => same (Option.some_inj.mp equal)), Option.bind_some,
        RoutingTable.setBucket_other _ _ same]
      rfl

variable {key other : Key} {idx : Fin TABLE_SIZE}

theorem find_of_index {table : RoutingTable} (home : table.bucketIndex key = some idx) :
    table.find key = (table.buckets.get idx).find key := by
  rw [RoutingTable.find, home, Option.bind_some]

/-- A bucket in which a key is as before can take the place of another. -/
theorem find_setBucket_same {table : RoutingTable}
    (same : bucket.find key = (table.buckets.get idx).find key) :
    (table.setBucket idx bucket).find key = table.find key := by
  rw [find_setBucket]
  split
  · rename_i home
    rw [same, find_of_index home]
  · rfl

theorem setStatus_status (e : BucketEntry) (entryFlag : EntryStatusFlag) (now : Int) :
    (e.setStatus entryFlag now).status = entryFlag := by
  unfold BucketEntry.setStatus
  simp only
  split <;> split <;> rfl

section

variable (table : RoutingTable)

include table

variable (entryFlag : EntryStatusFlag) (now : Int)

theorem find_updateEntry_self (key : Key) :
    (table.updateEntry key entryFlag now).find key =
      (table.find key).map fun e => e.setStatus entryFlag now := by
  unfold RoutingTable.updateEntry
  split
  · rename_i home
    rw [RoutingTable.find, home]
    rfl
  · rename_i idx home
    rw [find_setBucket, if_pos home, Bucket.find_updateEntry_self, find_of_index home]

theorem status_updateEntry_self (key : Key) :
    (table.updateEntry key entryFlag now).status key =
      (table.status key).map fun _ => entryFlag := by
  rw [RoutingTable.status, RoutingTable.status, find_updateEntry_self, Option.map_map,
    Option.map_map]
  exact Option.map_congr fun e _ => setStatus_status e entryFlag now

variable (different : other ≠ key)

include different

theorem find_updateEntry_other :
    (table.updateEntry key entryFlag now).find other = table.find other := by
  unfold RoutingTable.updateEntry
  split
  · rfl
  · exact find_setBucket_same (Bucket.find_updateEntry_other _ _ _ different)

theorem status_updateEntry_other :
    (table.updateEntry key entryFlag now).status other = table.status other := by
  rw [RoutingTable.status, find_updateEntry_other _ _ _ different, RoutingTable.status]

theorem find_removeEntry_other : (table.removeEntry key).find other = table.find other := by
  unfold RoutingTable.removeEntry
  split
  · rfl
  · exact find_setBucket_same (Bucket.find_remove_other _ different)

theorem status_removeEntry_other : (table.removeEntry key).status other = table.status other := by
  rw [RoutingTable.status, find_removeEntry_other _ different, RoutingTable.status]

end

/-- What an addition does that succeeds: the key was missing and is pending now, and at most an
incompatible entry has made room for it. -/
structure Appends (table : RoutingTable) (entry : Entry) (now : Int) (after : RoutingTable) :
    Prop where
  missing : table.find entry.key = none
  self : after.find entry.key =
    some { status := PENDING_ENTRY, entry, failures := 0, lastSeen := now }
  other : ∀ key, key ≠ entry.key → after.find key = table.find key ∨
    (after.find key = none ∧ table.status key = some INCOMPATIBLE_ENTRY)

section WellFormed

variable {localKey : Key} {table : RoutingTable} (wellFormed : table.WellFormed localKey)

include wellFormed

theorem find_removeEntry_self (key : Key) : (table.removeEntry key).find key = none := by
  unfold RoutingTable.removeEntry
  split
  · rename_i home
    rw [RoutingTable.find, home]
    rfl
  · rename_i idx home
    rw [find_setBucket, if_pos home, Bucket.find_remove_self (wellFormed.distinct idx)]

theorem status_removeEntry_self (key : Key) : (table.removeEntry key).status key = none := by
  rw [RoutingTable.status, find_removeEntry_self wellFormed, Option.map_none]

theorem find_of_mem {e : BucketEntry} (member : e ∈ (table.buckets.get idx).entries) :
    table.find e.entry.key = some e := by
  rw [find_of_index (wellFormed.placed idx e member)]
  exact Bucket.find_of_mem (wellFormed.distinct idx) member

omit wellFormed in
/-- An entry that goes to its bucket, where at most an incompatible entry has made room. -/
theorem appends_setBucket {entry : Entry} (now : Int)
    (home : table.bucketIndex entry.key = some idx) (missing : table.find entry.key = none)
    (absent : bucket.find entry.key = none)
    (room : ∀ key, bucket.find key = (table.buckets.get idx).find key ∨
      (bucket.find key = none ∧ table.status key = some INCOMPATIBLE_ENTRY)) :
    table.Appends entry now (table.setBucket idx (bucket.add entry now)) where
  missing := missing
  self := by
    rw [find_setBucket, if_pos home, Bucket.find_add, absent, if_pos rfl, Option.none_or]
  other key different := by
    rw [find_setBucket]
    split
    · rename_i keyHome
      rw [Bucket.find_add, if_neg different.symm, Option.or_none, find_of_index keyHome]
      exact room key
    · exact .inl rfl

/-- An addition changes nothing unless it succeeds. -/
theorem addEntry_cases (entry : Entry) (now : Int) :
    ((table.addEntry entry now).2 ≠ .added ∧ (table.addEntry entry now).1 = table) ∨
      ((table.addEntry entry now).2 = .added ∧
        table.Appends entry now (table.addEntry entry now).1) := by
  unfold RoutingTable.addEntry
  split
  · exact .inl ⟨by rintro ⟨⟩, rfl⟩
  rename_i idx home
  dsimp only
  split
  · exact .inl ⟨by rintro ⟨⟩, rfl⟩
  rename_i contained
  have absent : (table.buckets.get idx).find entry.key = none :=
    Bucket.find_eq_none.mpr (Bool.eq_false_of_not_eq_true contained)
  have missing : table.find entry.key = none := (find_of_index home).trans absent
  split
  · exact .inl ⟨by rintro ⟨⟩, rfl⟩
  split
  · exact .inr ⟨rfl, appends_setBucket now home missing absent fun _ => .inl rfl⟩
  split
  · rename_i e incompatible
    refine .inr ⟨rfl, appends_setBucket now home missing ?_ fun key => ?_⟩
    · by_cases same : entry.key = e.entry.key
      · rw [same]
        exact Bucket.find_remove_self (wellFormed.distinct idx)
      · rw [Bucket.find_remove_other _ same]
        exact absent
    · by_cases same : key = e.entry.key
      · have flag : e.status = INCOMPATIBLE_ENTRY := by
          have passes := List.find?_some incompatible
          simpa [BucketEntry.isIncompatible, UInt16.xor_eq_zero_iff] using passes
        refine .inr ⟨same ▸ Bucket.find_remove_self (wellFormed.distinct idx), ?_⟩
        rw [same, RoutingTable.status,
          find_of_mem wellFormed (List.mem_of_find?_eq_some incompatible), Option.map_some, flag]
      · exact .inl (Bucket.find_remove_other _ same)
  · exact .inl ⟨by rintro ⟨⟩, rfl⟩

theorem connected_addEntry (entry : Entry) (now : Int) (key : Key) :
    (table.addEntry entry now).1.Connected key ↔ table.Connected key := by
  rcases addEntry_cases wellFormed entry now with ⟨_, same⟩ | ⟨_, appends⟩
  · rw [same]
  unfold RoutingTable.Connected
  by_cases same : key = entry.key
  · rw [same, RoutingTable.status, RoutingTable.status, appends.self, appends.missing]
    exact iff_of_false (by rintro ⟨⟩) (by rintro ⟨⟩)
  · rcases appends.other key same with kept | ⟨gone, incompatible⟩
    · rw [RoutingTable.status, kept, RoutingTable.status]
    · rw [incompatible, RoutingTable.status, gone]
      exact iff_of_false (by decide) (by decide)

theorem randomEntryFiltered_status {entryFlag : EntryStatusFlag} {localBloom : LocalBloom}
    {draw : Draw} {entry : Entry}
    (found : table.randomEntryFiltered entryFlag localBloom draw = some entry) :
    ∃ flag, table.status entry.key = some flag ∧ flag &&& entryFlag ≠ 0 := by
  obtain ⟨idx, _, drawn⟩ := List.exists_of_findSome?_eq_some found
  obtain ⟨e, hit, rfl⟩ := Option.map_eq_some_iff.mp drawn
  have member : e ∈ (table.buckets.get idx).entries :=
    ((draw.entries idx).sample_perm _).mem_iff.mp (List.mem_of_find?_eq_some hit)
  have passes := List.find?_some hit
  rw [Bool.and_eq_true, bne_iff_ne] at passes
  refine ⟨e.status, ?_, passes.1⟩
  rw [RoutingTable.status, find_of_mem wellFormed member, Option.map_some]

end WellFormed

end RoutingTable

end Karyon.P2p
