/-
This file proves the invariant of the routing table. Whatever sequence of additions, status updates
and removals a table has gone through, its entries sit in the buckets of their keys, no bucket is
overfull, no key is stored twice, no two entries of a bucket share a subnet, and no prefix has more
than `MAX_MATCHED_SUBNET_IN_TABLE` non-loopback entries in the whole table.

Every operation replaces at most one bucket, so the proof has one lemma about replacing a bucket
(`WellFormed.setBucket`) and, for each operation, the facts about the new bucket that lemma asks
for. The addition needs what the counting loop established: `subnetRestricted_eq_false_iff` reads
the two nested loops as one statement about all stored entries.
-/

import Karyon.P2p.RoutingTable
import Mathlib.Algebra.BigOperators.Group.List.Basic
import Mathlib.Data.List.Nodup

namespace Karyon.P2p

open Karyon.Net

/-! ### The counting loops -/

/-- With no match counted so far, the inner loop returns early exactly when it runs over the
entry's own bucket and finds a match there; otherwise it adds the matches of the bucket to
the table count. -/
theorem countBucket_eq (entry : Entry) (inBucket : Bool) (entries : List BucketEntry)
    (tableCount : Nat) :
    countBucket entry inBucket entries 0 tableCount =
      if inBucket && entries.any (fun e => entryMatch e.entry entry) then none
      else some (0, tableCount + entries.countP fun e => entryMatch e.entry entry) := by
  induction entries generalizing tableCount with
  | nil => simp [countBucket]
  | cons e rest inductionHypothesis =>
    rw [countBucket]
    cases matched : entryMatch e.entry entry with
    | false =>
      simp only [matched, Bool.false_and, Bool.false_eq_true, if_false,
        MAX_MATCHED_SUBNET_IN_BUCKET, List.any_cons, Bool.false_or, List.countP_cons, add_zero]
      exact inductionHypothesis tableCount
    | true =>
      cases inBucket with
      | true => simp [matched, MAX_MATCHED_SUBNET_IN_BUCKET]
      | false =>
        simp only [matched, Bool.and_false, Bool.false_eq_true, if_false, if_true,
          MAX_MATCHED_SUBNET_IN_BUCKET, Bool.false_and, List.countP_cons]
        rw [inductionHypothesis]
        simp only [Bool.false_and, Bool.false_eq_true, if_false, ge_iff_le, Nat.not_lt_zero,
          Nat.succ_le_iff, Option.some.injEq, Prod.mk.injEq, true_and]
        omega

/-- The matches of an entry in a list of buckets. -/
def matchCount (entry : Entry) (buckets : List Bucket) : Nat :=
  (buckets.map fun bucket => bucket.entries.countP fun e => entryMatch e.entry entry).sum

/-- The outer loop lets an entry pass exactly when the matches of all buckets stay below the
table limit and the entry's own bucket has none. -/
theorem countTable_eq_false_iff (entry : Entry) (idx : Nat) (buckets : List Bucket)
    (i tableCount : Nat) (below : tableCount < MAX_MATCHED_SUBNET_IN_TABLE) :
    countTable entry idx buckets i 0 tableCount = false ↔
      tableCount + matchCount entry buckets < MAX_MATCHED_SUBNET_IN_TABLE ∧
        ∀ (j : Nat) (inside : j < buckets.length), i + j = idx →
          ∀ e ∈ buckets[j].entries, entryMatch e.entry entry = false := by
  induction buckets generalizing i tableCount with
  | nil => simp [countTable, matchCount, below]
  | cons bucket rest inductionHypothesis =>
    have split : (∀ (j : Nat) (inside : j < (bucket :: rest).length), i + j = idx →
          ∀ e ∈ (bucket :: rest)[j].entries, entryMatch e.entry entry = false) ↔
        (i = idx → ∀ e ∈ bucket.entries, entryMatch e.entry entry = false) ∧
          ∀ (j : Nat) (inside : j < rest.length), i + 1 + j = idx →
            ∀ e ∈ rest[j].entries, entryMatch e.entry entry = false := by
      constructor
      · intro all
        refine ⟨all 0 (by simp), fun j inside same => ?_⟩
        exact all (j + 1) (by simpa using inside) (by omega)
      · rintro ⟨head, tail⟩ (_ | j) inside same
        · exact head same
        · exact tail j (by simpa using inside) (by omega)
    rw [split, countTable, countBucket_eq]
    have total : matchCount entry (bucket :: rest) =
        (bucket.entries.countP fun e => entryMatch e.entry entry) + matchCount entry rest := by
      simp [matchCount]
    rw [total]
    by_cases early : (i == idx && bucket.entries.any fun e => entryMatch e.entry entry) = true
    · simp only [early, if_true, Bool.true_eq_false, false_iff, not_and]
      intro _ head
      simp only [Bool.and_eq_true, beq_iff_eq, List.any_eq_true] at early
      obtain ⟨same, e, member, matched⟩ := early
      rw [head same e member] at matched
      cases matched
    · simp only [early, Bool.false_eq_true, if_false]
      have head : i = idx → ∀ e ∈ bucket.entries, entryMatch e.entry entry = false := by
        intro same e member
        by_contra matched
        exact early (by simp [same]; exact ⟨e, member, by simpa using matched⟩)
      by_cases full : tableCount + (bucket.entries.countP fun e => entryMatch e.entry entry) ≥
          MAX_MATCHED_SUBNET_IN_TABLE
      · simp only [full, if_true, Bool.true_eq_false, false_iff, not_and]
        omega
      · simp only [full, if_false]
        rw [inductionHypothesis (i + 1) _ (by omega), Nat.add_assoc]
        exact ⟨fun ⟨small, tail⟩ => ⟨small, head, tail⟩, fun ⟨small, _, tail⟩ => ⟨small, tail⟩⟩

/-- An entry is let through exactly when its own bucket has no match and the whole table has
fewer matches than the limit. -/
theorem subnetRestricted_eq_false_iff (buckets : Vector Bucket TABLE_SIZE)
    (idx : Fin TABLE_SIZE) (entry : Entry) :
    subnetRestricted buckets idx entry = false ↔
      matchCount entry buckets.toList < MAX_MATCHED_SUBNET_IN_TABLE ∧
        ∀ e ∈ (buckets.get idx).entries, entryMatch e.entry entry = false := by
  rw [subnetRestricted, countTable_eq_false_iff entry idx buckets.toList 0 0 (by decide),
    Nat.zero_add]
  refine and_congr_right fun _ => ⟨fun all => ?_, fun own j inside same => ?_⟩
  · exact all idx (by simp) (by simp)
  · rw [Nat.zero_add] at same
    subst same
    exact own

/-! ### Replacing one bucket -/

/-- All stored entries, bucket by bucket. -/
def RoutingTable.stored (table : RoutingTable) : List BucketEntry :=
  table.buckets.toList.flatMap Bucket.entries

variable {e : BucketEntry} {idx : Fin TABLE_SIZE} {localKey : Key} {entry : Entry}

theorem RoutingTable.mem_stored {table : RoutingTable} :
    e ∈ table.stored ↔ ∃ idx : Fin TABLE_SIZE, e ∈ (table.buckets.get idx).entries := by
  simp only [RoutingTable.stored, List.mem_flatMap, Vector.mem_toList_iff, Vector.mem_iff_getElem]
  constructor
  · rintro ⟨_, ⟨i, inside, rfl⟩, member⟩
    exact ⟨⟨i, inside⟩, member⟩
  · rintro ⟨idx, member⟩
    exact ⟨_, ⟨idx, idx.isLt, rfl⟩, member⟩

section

variable (table : RoutingTable)

include table

theorem RoutingTable.matchCount_eq (entry : Entry) :
    matchCount entry table.buckets.toList =
      table.stored.countP fun e => entryMatch e.entry entry := by
  rw [matchCount, RoutingTable.stored, List.countP_flatMap]
  rfl

theorem RoutingTable.setBucket_self (idx : Fin TABLE_SIZE) (bucket : Bucket) :
    (table.setBucket idx bucket).buckets.get idx = bucket := by
  show (table.buckets.set idx bucket)[idx.val] = bucket
  exact Vector.getElem_set_self idx.isLt

theorem RoutingTable.setBucket_other {other : Fin TABLE_SIZE} (bucket : Bucket)
    (different : other ≠ idx) :
    (table.setBucket idx bucket).buckets.get other = table.buckets.get other := by
  have apart : idx.val ≠ other.val := fun same => different (Fin.ext same.symm)
  show (table.buckets.set idx bucket)[other.val] = table.buckets[other.val]
  exact Vector.getElem_set_ne idx.isLt other.isLt apart

/-- Replacing a bucket exchanges its own entries in the list of all stored entries. -/
theorem RoutingTable.setBucket_countP (idx : Fin TABLE_SIZE) (bucket : Bucket)
    (test : BucketEntry → Bool) :
    (table.setBucket idx bucket).stored.countP test + (table.buckets.get idx).entries.countP test =
      table.stored.countP test + bucket.entries.countP test := by
  have inside : idx.val < table.buckets.toList.length := by simp
  have before : table.buckets.toList = table.buckets.toList.take idx ++
      table.buckets.get idx :: table.buckets.toList.drop (idx + 1) := by
    conv_lhs => rw [← List.take_append_drop idx table.buckets.toList]
    rw [List.drop_eq_getElem_cons inside]
    rfl
  have after : (table.setBucket idx bucket).buckets.toList = table.buckets.toList.take idx ++
      bucket :: table.buckets.toList.drop (idx + 1) := by
    rw [RoutingTable.setBucket, Vector.toList_set, List.set_eq_take_append_cons_drop,
      if_pos inside]
  rw [RoutingTable.stored, RoutingTable.stored, after]
  conv_rhs => rw [before]
  simp only [List.flatMap_append, List.flatMap_cons, List.countP_append]
  omega

end

/-! ### The invariant -/

/-- The entry's primary address is a non-loopback IP in the given prefix. -/
def inSubnet (subnet : Subnet) (e : BucketEntry) : Bool :=
  match e.entry.primaryAddr with
  | some (.ip ip) => !ip.isLoopback && ip.subnet == subnet
  | _ => false

/-- What every reachable routing table of the node with key `localKey` satisfies. -/
structure RoutingTable.WellFormed (localKey : Key) (table : RoutingTable) : Prop where
  own : table.key = localKey
  placed : ∀ idx : Fin TABLE_SIZE, ∀ e ∈ (table.buckets.get idx).entries,
    table.bucketIndex e.entry.key = some idx
  bounded : ∀ idx : Fin TABLE_SIZE, (table.buckets.get idx).len ≤ BUCKET_SIZE
  distinct : ∀ idx : Fin TABLE_SIZE,
    ((table.buckets.get idx).entries.map fun e => e.entry.key).Nodup
  separated : ∀ idx : Fin TABLE_SIZE,
    (table.buckets.get idx).entries.Pairwise fun a b => entryMatch a.entry b.entry = false
  spread : ∀ subnet, table.stored.countP (inSubnet subnet) ≤ MAX_MATCHED_SUBNET_IN_TABLE

theorem RoutingTable.new_wellFormed (localKey : Key) :
    (RoutingTable.new localKey).WellFormed localKey := by
  have empty : ∀ idx : Fin TABLE_SIZE,
      ((RoutingTable.new localKey).buckets.get idx).entries = [] := by
    intro idx
    show (Vector.replicate TABLE_SIZE Bucket.new)[idx.val].entries = []
    rw [Vector.getElem_replicate]
    rfl
  refine ⟨rfl, fun idx => ?_, fun idx => ?_, fun idx => ?_, fun idx => ?_, fun subnet => ?_⟩
  · rw [empty idx]
    simp
  · rw [Bucket.len, empty idx]
    simp
  · rw [empty idx]
    exact List.nodup_nil
  · rw [empty idx]
    exact List.Pairwise.nil
  · have none : (RoutingTable.new localKey).stored = [] := by
      rw [List.eq_nil_iff_forall_not_mem]
      intro e member
      obtain ⟨idx, inBucket⟩ := RoutingTable.mem_stored.mp member
      rw [empty idx] at inBucket
      cases inBucket
    simp [none]

variable {table : RoutingTable}

section

variable (wellFormed : table.WellFormed localKey) (idx : Fin TABLE_SIZE) (bucket : Bucket)
  (placed : ∀ e ∈ bucket.entries, table.bucketIndex e.entry.key = some idx)
  (bounded : bucket.len ≤ BUCKET_SIZE)
  (distinct : (bucket.entries.map fun e => e.entry.key).Nodup)
  (separated : bucket.entries.Pairwise fun a b => entryMatch a.entry b.entry = false)

include wellFormed placed bounded distinct separated

/-- A bucket may be replaced by one whose entries belong there, that is not overfull, has no
duplicate key or subnet, and that keeps every prefix within the limit. -/
theorem RoutingTable.WellFormed.setBucket
    (spread : ∀ subnet, (table.setBucket idx bucket).stored.countP (inSubnet subnet) ≤
      MAX_MATCHED_SUBNET_IN_TABLE) :
    (table.setBucket idx bucket).WellFormed localKey := by
  have each (holds : Fin TABLE_SIZE → Bucket → Prop) (new : holds idx bucket)
      (old : ∀ other, holds other (table.buckets.get other)) (other : Fin TABLE_SIZE) :
      holds other ((table.setBucket idx bucket).buckets.get other) := by
    by_cases same : other = idx
    · rw [same, RoutingTable.setBucket_self]
      exact new
    · rw [RoutingTable.setBucket_other _ _ same]
      exact old other
  exact ⟨wellFormed.own,
    each (fun other b => ∀ e ∈ b.entries, table.bucketIndex e.entry.key = some other) placed
      wellFormed.placed,
    each (fun _ b => b.len ≤ BUCKET_SIZE) bounded wellFormed.bounded,
    each (fun _ b => (b.entries.map fun e => e.entry.key).Nodup) distinct wellFormed.distinct,
    each (fun _ b => b.entries.Pairwise fun a b => entryMatch a.entry b.entry = false) separated
      wellFormed.separated,
    spread⟩

/-- A bucket may be replaced by one with no more entries in any prefix. -/
theorem RoutingTable.WellFormed.shrink
    (fewer : ∀ subnet, bucket.entries.countP (inSubnet subnet) ≤
      (table.buckets.get idx).entries.countP (inSubnet subnet)) :
    (table.setBucket idx bucket).WellFormed localKey := by
  refine wellFormed.setBucket idx bucket placed bounded distinct separated fun subnet => ?_
  have exchange := table.setBucket_countP idx bucket (inSubnet subnet)
  have before := wellFormed.spread subnet
  have less := fewer subnet
  omega

end

/-! ### Removal and update -/

theorem RoutingTable.WellFormed.remove (wellFormed : table.WellFormed localKey)
    (idx : Fin TABLE_SIZE) (key : Key) :
    (table.setBucket idx ((table.buckets.get idx).remove key)).WellFormed localKey := by
  have sublist : List.Sublist ((table.buckets.get idx).remove key).entries
      (table.buckets.get idx).entries :=
    List.eraseP_sublist
  exact wellFormed.shrink idx _ (fun e member => wellFormed.placed idx e (sublist.subset member))
    (le_trans sublist.length_le (wellFormed.bounded idx))
    ((wellFormed.distinct idx).sublist (sublist.map _))
    ((wellFormed.separated idx).sublist sublist) fun subnet => sublist.countP_le

theorem RoutingTable.removeEntry_wellFormed (wellFormed : table.WellFormed localKey) (key : Key) :
    (table.removeEntry key).WellFormed localKey := by
  unfold RoutingTable.removeEntry
  split
  · exact wellFormed
  · exact wellFormed.remove _ key

theorem BucketEntry.setStatus_entry (e : BucketEntry) (entryFlag : EntryStatusFlag) (now : Int) :
    (e.setStatus entryFlag now).entry = e.entry := by
  unfold BucketEntry.setStatus
  simp only
  split <;> split <;> rfl

/-- An update leaves the stored entries themselves, and their order, as they were. -/
theorem updateFirst_map_entry (test : BucketEntry → Bool) (change : BucketEntry → BucketEntry)
    (same : ∀ e, (change e).entry = e.entry) (entries : List BucketEntry) :
    (updateFirst test change entries).map BucketEntry.entry = entries.map BucketEntry.entry := by
  induction entries with
  | nil => rfl
  | cons e rest inductionHypothesis =>
    rw [updateFirst]
    split
    · rw [List.map_cons, List.map_cons, same]
    · rw [List.map_cons, List.map_cons, inductionHypothesis]

theorem Bucket.updateEntry_map_entry (bucket : Bucket) (key : Key) (entryFlag : EntryStatusFlag)
    (now : Int) :
    (bucket.updateEntry key entryFlag now).entries.map BucketEntry.entry =
      bucket.entries.map BucketEntry.entry :=
  updateFirst_map_entry _ _ (fun e => e.setStatus_entry entryFlag now) _

theorem RoutingTable.updateEntry_wellFormed (wellFormed : table.WellFormed localKey) (key : Key)
    (entryFlag : EntryStatusFlag) (now : Int) :
    (table.updateEntry key entryFlag now).WellFormed localKey := by
  unfold RoutingTable.updateEntry
  split
  · exact wellFormed
  · rename_i idx _
    have same := (table.buckets.get idx).updateEntry_map_entry key entryFlag now
    refine wellFormed.shrink idx _ ?_ ?_ ?_ ?_ fun subnet => ?_
    · intro e member
      have stored : e.entry ∈ (table.buckets.get idx).entries.map BucketEntry.entry := by
        rw [← same]
        exact List.mem_map_of_mem member
      obtain ⟨old, oldMember, oldSame⟩ := List.mem_map.mp stored
      rw [← oldSame]
      exact wellFormed.placed idx old oldMember
    · have lengths := congrArg List.length same
      rw [List.length_map, List.length_map] at lengths
      rw [Bucket.len, lengths]
      exact wellFormed.bounded idx
    · have keys := congrArg (List.map Entry.key) same
      rw [List.map_map, List.map_map] at keys
      exact keys ▸ wellFormed.distinct idx
    · have pairs := wellFormed.separated idx
      rw [← List.pairwise_map (f := BucketEntry.entry) (R := fun a b => entryMatch a b = false)]
        at pairs ⊢
      rw [same]
      exact pairs
    · have counts := congrArg (List.countP fun entry : Entry =>
        inSubnet subnet ⟨0, entry, 0, 0⟩) same
      rw [List.countP_map, List.countP_map] at counts
      exact le_of_eq counts

/-! ### Addition -/

/-- Two entries in one prefix, neither of them a loopback address, match. -/
theorem entryMatch_of_inSubnet {subnet : Subnet} {stored new : BucketEntry}
    (storedIn : inSubnet subnet stored = true) (newIn : inSubnet subnet new = true) :
    entryMatch stored.entry new.entry = true := by
  unfold inSubnet at storedIn newIn
  unfold entryMatch
  split at storedIn
  · rename_i storedIp storedAddr
    split at newIn
    · rename_i newIp newAddr
      simp only [Bool.and_eq_true, Bool.not_eq_true', beq_iff_eq] at storedIn newIn
      rw [storedAddr, newAddr]
      simp only [subnetMatch, isLoopbackPair, storedIn.1, Bool.false_and, Bool.false_eq_true,
        if_false]
      have same : storedIp.subnet = newIp.subnet := storedIn.2.trans newIn.2.symm
      cases storedIp with
      | v4 octets =>
        cases newIp with
        | v4 newOctets => exact beq_iff_eq.mpr (Subnet.v4.inj same)
        | v6 segments => cases same
      | v6 segments =>
        cases newIp with
        | v4 octets => cases same
        | v6 newSegments => exact beq_iff_eq.mpr (Subnet.v6.inj same)
    · cases newIn
  · cases storedIn

theorem subnetMatch_comm (addr otherAddr : Addr) :
    subnetMatch addr otherAddr = subnetMatch otherAddr addr := by
  have pair : isLoopbackPair addr otherAddr = isLoopbackPair otherAddr addr := by
    cases addr <;> cases otherAddr <;> simp only [isLoopbackPair, Bool.and_comm]
  simp only [subnetMatch, pair]
  split
  · rfl
  · cases addr with
    | domain name => cases otherAddr <;> simp
    | ip ip =>
      cases otherAddr with
      | domain name => cases ip <;> simp
      | ip otherIp => cases ip <;> cases otherIp <;> simp only [Bool.beq_comm]

/-- Adding an entry that was not restricted keeps every prefix within the limit: an entry in
the prefix is one more than the stored ones it matches, any other changes nothing. -/
theorem spread_add (now : Int)
    (few : matchCount entry table.buckets.toList < MAX_MATCHED_SUBNET_IN_TABLE)
    (spread : ∀ subnet, table.stored.countP (inSubnet subnet) ≤ MAX_MATCHED_SUBNET_IN_TABLE)
    (idx : Fin TABLE_SIZE) (kept : Bucket)
    (fewer : ∀ subnet, kept.entries.countP (inSubnet subnet) ≤
      (table.buckets.get idx).entries.countP (inSubnet subnet)) (subnet : Subnet) :
    (table.setBucket idx (kept.add entry now)).stored.countP (inSubnet subnet) ≤
      MAX_MATCHED_SUBNET_IN_TABLE := by
  have exchange := table.setBucket_countP idx (kept.add entry now) (inSubnet subnet)
  have less := fewer subnet
  simp only [Bucket.add, List.countP_append, List.countP_singleton] at exchange
  rw [Bucket.add]
  split at exchange
  · rename_i newIn
    rw [table.matchCount_eq] at few
    have matches_le : table.stored.countP (inSubnet subnet) ≤
        table.stored.countP fun e => entryMatch e.entry entry :=
      List.countP_mono_left fun e _ storedIn => entryMatch_of_inSubnet storedIn newIn
    omega
  · have before := spread subnet
    omega

/-- Appending an entry to a part of its bucket. The bucket had no entry with that key and no
match, and the part leaves room. -/
theorem RoutingTable.WellFormed.add (wellFormed : table.WellFormed localKey)
    (now : Int) (home : table.bucketIndex entry.key = some idx)
    (absent : (table.buckets.get idx).containsKey entry.key = false)
    (allowed : subnetRestricted table.buckets idx entry = false) (kept : Bucket)
    (sublist : List.Sublist kept.entries (table.buckets.get idx).entries)
    (room : kept.len < BUCKET_SIZE) :
    (table.setBucket idx (kept.add entry now)).WellFormed localKey := by
  obtain ⟨few, unmatched⟩ := (subnetRestricted_eq_false_iff _ _ _).mp allowed
  refine wellFormed.setBucket idx _ ?_ ?_ ?_ ?_ ?_
  · intro e member
    rcases List.mem_append.mp member with old | new
    · exact wellFormed.placed idx e (sublist.subset old)
    · rw [List.mem_singleton.mp new]
      exact home
  · simp only [Bucket.len, Bucket.add, List.length_append, List.length_singleton] at room ⊢
    omega
  · simp only [Bucket.add, List.map_append, List.map_cons, List.map_nil]
    refine List.nodup_append.mpr
      ⟨(wellFormed.distinct idx).sublist (sublist.map _), List.nodup_singleton _, ?_⟩
    intro key old new newMember same
    rw [List.mem_singleton.mp newMember] at same
    obtain ⟨e, member, keySame⟩ := List.mem_map.mp old
    have present : (table.buckets.get idx).containsKey entry.key = true := by
      rw [Bucket.containsKey, List.any_eq_true]
      exact ⟨e, sublist.subset member, by simp [keySame, same]⟩
    rw [absent] at present
    cases present
  · refine List.pairwise_append.mpr
      ⟨(wellFormed.separated idx).sublist sublist, List.pairwise_singleton _ _, ?_⟩
    intro e member new newMember
    rw [List.mem_singleton.mp newMember]
    exact unmatched e (sublist.subset member)
  · exact spread_add now few wellFormed.spread idx kept fun subnet => sublist.countP_le

theorem Bucket.remove_len {bucket : Bucket} (member : e ∈ bucket.entries) :
    (bucket.remove e.entry.key).len + 1 = bucket.len := by
  have shorter := List.length_eraseP_add_one (p := fun other => other.entry.key == e.entry.key)
    member (by simp)
  exact shorter

theorem RoutingTable.addEntry_wellFormed (wellFormed : table.WellFormed localKey) (entry : Entry)
    (now : Int) :
    (table.addEntry entry now).1.WellFormed localKey := by
  fun_cases RoutingTable.addEntry
  case case4 idx home _ absent allowed room =>
    exact wellFormed.add now home (Bool.eq_false_of_not_eq_true absent)
      (Bool.eq_false_of_not_eq_true allowed) _ (List.Sublist.refl _) room
  case case5 idx home bucket absent allowed _ e found =>
    have shorter := Bucket.remove_len (List.mem_of_find?_eq_some found)
    have bounded : bucket.len ≤ BUCKET_SIZE := wellFormed.bounded idx
    exact wellFormed.add now home (Bool.eq_false_of_not_eq_true absent)
      (Bool.eq_false_of_not_eq_true allowed) _ List.eraseP_sublist (by omega)
  all_goals exact wellFormed

/-! ### Every reachable table -/

/-- The operations that change a routing table, with the timestamps they read. -/
inductive TableOp where
  | addEntry (entry : Entry) (now : Int)
  | updateEntry (key : Key) (entryFlag : EntryStatusFlag) (now : Int)
  | removeEntry (key : Key)

def RoutingTable.apply (table : RoutingTable) : TableOp → RoutingTable
  | .addEntry entry now => (table.addEntry entry now).1
  | .updateEntry key entryFlag now => table.updateEntry key entryFlag now
  | .removeEntry key => table.removeEntry key

/-- The table of a node after a sequence of operations. -/
def RoutingTable.run (localKey : Key) (ops : List TableOp) : RoutingTable :=
  ops.foldl RoutingTable.apply (RoutingTable.new localKey)

theorem RoutingTable.apply_wellFormed (wellFormed : table.WellFormed localKey) (op : TableOp) :
    (table.apply op).WellFormed localKey := by
  cases op with
  | addEntry entry now => exact RoutingTable.addEntry_wellFormed wellFormed entry now
  | updateEntry key entryFlag now =>
    exact RoutingTable.updateEntry_wellFormed wellFormed key entryFlag now
  | removeEntry key => exact RoutingTable.removeEntry_wellFormed wellFormed key

theorem RoutingTable.run_wellFormed (localKey : Key) (ops : List TableOp) :
    (RoutingTable.run localKey ops).WellFormed localKey := by
  suffices preserved : ∀ (ops : List TableOp) (table : RoutingTable),
      table.WellFormed localKey → (ops.foldl RoutingTable.apply table).WellFormed localKey from
    preserved ops _ (RoutingTable.new_wellFormed localKey)
  intro ops
  induction ops with
  | nil => exact fun _ wellFormed => wellFormed
  | cons op rest inductionHypothesis =>
    exact fun _ wellFormed =>
      inductionHypothesis _ (RoutingTable.apply_wellFormed wellFormed op)

/-! ### What all stored entries have in common -/

/-- Every stored entry has the property. -/
def RoutingTable.AllEntries (property : Entry → Prop) (table : RoutingTable) : Prop :=
  ∀ e ∈ table.stored, property e.entry

namespace RoutingTable.AllEntries

variable {property : Entry → Prop}

theorem new (localKey : Key) : AllEntries property (RoutingTable.new localKey) := by
  intro e member
  obtain ⟨idx, inBucket⟩ := RoutingTable.mem_stored.mp member
  have empty : (RoutingTable.new localKey).buckets.get idx = .new :=
    Vector.getElem_replicate idx.isLt
  rw [empty] at inBucket
  cases inBucket

section

variable (all : AllEntries property table)

include all

theorem get (idx : Fin TABLE_SIZE) (member : e ∈ (table.buckets.get idx).entries) :
    property e.entry :=
  all e (RoutingTable.mem_stored.mpr ⟨idx, member⟩)

theorem setBucket {bucket : Bucket} (own : ∀ e ∈ bucket.entries, property e.entry) :
    AllEntries property (table.setBucket idx bucket) := by
  intro e member
  obtain ⟨other, inBucket⟩ := RoutingTable.mem_stored.mp member
  by_cases same : other = idx
  · rw [same, RoutingTable.setBucket_self] at inBucket
    exact own e inBucket
  · rw [RoutingTable.setBucket_other _ _ same] at inBucket
    exact all.get other inBucket

/-- Whatever becomes of an added entry, the others were stored before. -/
theorem addEntry (new : property entry) (now : Int) :
    AllEntries property (table.addEntry entry now).1 := by
  have appended {bucket : Bucket} (own : ∀ e ∈ bucket.entries, property e.entry) :
      ∀ e ∈ (bucket.add entry now).entries, property e.entry := by
    intro e member
    rcases List.mem_append.mp member with before | added
    · exact own e before
    · rw [List.mem_singleton.mp added]
      exact new
  fun_cases RoutingTable.addEntry
  case case4 idx _ _ _ _ _ => exact all.setBucket (appended fun e => all.get idx)
  case case5 idx _ _ _ _ _ _ _ =>
    refine all.setBucket (appended fun e member => all.get idx ?_)
    exact List.mem_of_mem_eraseP member
  all_goals exact all

theorem updateEntry (key : Key) (entryFlag : EntryStatusFlag) (now : Int) :
    AllEntries property (table.updateEntry key entryFlag now) := by
  unfold RoutingTable.updateEntry
  split
  · exact all
  · rename_i idx _
    refine all.setBucket fun e member => ?_
    have kept : e.entry ∈ (table.buckets.get idx).entries.map BucketEntry.entry := by
      rw [← Bucket.updateEntry_map_entry _ key entryFlag now]
      exact List.mem_map_of_mem member
    obtain ⟨before, inBucket, same⟩ := List.mem_map.mp kept
    exact same ▸ all.get idx inBucket

theorem removeEntry (key : Key) :
    AllEntries property (table.removeEntry key) := by
  unfold RoutingTable.removeEntry
  split
  · exact all
  · rename_i idx _
    exact all.setBucket fun e member => all.get idx (List.mem_of_mem_eraseP member)

end

end RoutingTable.AllEntries

/-! ### What the invariant says about the whole table -/

theorem xorDistance_self (key : Key) : xorDistance key key = Vector.replicate KEY_SIZE 0 := by
  ext index bound
  simp [xorDistance]

theorem bucketIndexFrom_replicate (count i : Nat) :
    bucketIndexFrom (List.replicate count 0) i = none := by
  induction count generalizing i with
  | zero => rfl
  | succ count inductionHypothesis =>
    rw [List.replicate_succ, bucketIndexFrom, if_neg (by simp)]
    exact inductionHypothesis (i + 1)

theorem RoutingTable.bucketIndex_own (table : RoutingTable) :
    table.bucketIndex table.key = none := by
  rw [RoutingTable.bucketIndex, xorDistance_self, Vector.toList_replicate,
    bucketIndexFrom_replicate]

section

variable (wellFormed : table.WellFormed localKey)

include wellFormed

theorem RoutingTable.WellFormed.ne_own (member : e ∈ table.stored) : e.entry.key ≠ localKey := by
  intro same
  obtain ⟨idx, inBucket⟩ := RoutingTable.mem_stored.mp member
  have home := wellFormed.placed idx e inBucket
  rw [same, ← wellFormed.own, RoutingTable.bucketIndex_own] at home
  cases home

/-- No key is stored twice in the whole table: within a bucket by the check of `addEntry`,
across buckets because a key determines its bucket. -/
theorem RoutingTable.WellFormed.nodup_keys : (table.stored.map fun e => e.entry.key).Nodup := by
  rw [RoutingTable.stored, List.map_flatMap, List.nodup_flatMap]
  constructor
  · intro bucket member
    rw [Vector.mem_toList_iff, Vector.mem_iff_getElem] at member
    obtain ⟨i, inside, rfl⟩ := member
    exact wellFormed.distinct ⟨i, inside⟩
  · rw [List.pairwise_iff_getElem]
    intro i j insideI insideJ less
    simp only [Vector.length_toList] at insideI insideJ
    simp only [Function.onFun, Vector.getElem_toList]
    intro key first second
    obtain ⟨e, member, rfl⟩ := List.mem_map.mp first
    obtain ⟨other, otherMember, same⟩ := List.mem_map.mp second
    have home := wellFormed.placed ⟨i, insideI⟩ e member
    have otherHome := wellFormed.placed ⟨j, insideJ⟩ other otherMember
    rw [same, home] at otherHome
    simp only [Option.some.injEq, Fin.mk.injEq] at otherHome
    omega

theorem RoutingTable.WellFormed.containsKey_iff (key : Key) :
    table.containsKey key = true ↔
      ∃ idx : Fin TABLE_SIZE, ∃ e ∈ (table.buckets.get idx).entries, e.entry.key = key := by
  constructor
  · intro contained
    unfold RoutingTable.containsKey at contained
    split at contained
    · cases contained
    · rename_i idx _
      rw [Bucket.containsKey, List.any_eq_true] at contained
      obtain ⟨e, member, same⟩ := contained
      exact ⟨idx, e, member, by simpa using same⟩
  · rintro ⟨idx, e, member, rfl⟩
    have home := wellFormed.placed idx e member
    rw [RoutingTable.containsKey, home]
    simp only
    rw [Bucket.containsKey, List.any_eq_true]
    exact ⟨e, member, by simp⟩

end

/-- Every table a node can reach from `RoutingTable::new` satisfies the table invariant: each
entry sits in the bucket of its key and is not the local key, buckets hold at most
`BUCKET_SIZE` entries, keys are unique in the table, the entries of a bucket lie in pairwise
different subnets, and each /24 or /64 prefix has at most `MAX_MATCHED_SUBNET_IN_TABLE`
non-loopback entries. So `containsKey` looks in the right place. -/
theorem routingTable_invariant (localKey : Key) (ops : List TableOp) :
    (∀ idx : Fin TABLE_SIZE, ∀ e ∈ ((RoutingTable.run localKey ops).buckets.get idx).entries,
      (RoutingTable.run localKey ops).bucketIndex e.entry.key = some idx ∧
        e.entry.key ≠ localKey) ∧
    (∀ idx : Fin TABLE_SIZE, ((RoutingTable.run localKey ops).buckets.get idx).len ≤ 20) ∧
    ((RoutingTable.run localKey ops).stored.map fun e => e.entry.key).Nodup ∧
    (∀ idx : Fin TABLE_SIZE, ((RoutingTable.run localKey ops).buckets.get idx).entries.Pairwise
      fun a b => ∀ addr otherAddr, a.entry.primaryAddr = some addr →
        b.entry.primaryAddr = some otherAddr →
          subnetMatch addr otherAddr = false ∧ subnetMatch otherAddr addr = false) ∧
    (∀ subnet, (RoutingTable.run localKey ops).stored.countP (inSubnet subnet) ≤ 6) ∧
    ∀ key, (RoutingTable.run localKey ops).containsKey key = true ↔
      ∃ idx : Fin TABLE_SIZE, ∃ e ∈ ((RoutingTable.run localKey ops).buckets.get idx).entries,
        e.entry.key = key := by
  have wellFormed := RoutingTable.run_wellFormed localKey ops
  refine ⟨fun idx e member => ⟨wellFormed.placed idx e member,
      wellFormed.ne_own (RoutingTable.mem_stored.mpr ⟨idx, member⟩)⟩,
    wellFormed.bounded, wellFormed.nodup_keys, fun idx => ?_, wellFormed.spread,
    wellFormed.containsKey_iff⟩
  refine (wellFormed.separated idx).imp fun {a b} unmatched addr otherAddr first second => ?_
  simp only [entryMatch, first, second] at unmatched
  exact ⟨unmatched, (subnetMatch_comm otherAddr addr).trans unmatched⟩

end Karyon.P2p
