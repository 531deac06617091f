/-
This file says what the closest-entries search of the routing table returns.

The search walks the buckets outwards from the target's own bucket, keeps the usable entries it
meets, stops once it has `max_entries` of them and sorts what it kept by XOR distance. Its result is
therefore the sorted list of the first usable entries *of the walk* (`closestEntriesFiltered_perm`).
The bucket order is not the distance order: seen from a target in a high bucket, all lower buckets
have the same leading distance bytes, yet the walk prefers the nearest index. So it is not a
nearest-neighbour search (`closestEntries_not_closest`).
-/

import Karyon.P2p.TableInvariant

namespace Karyon.P2p

open Karyon.Net

/-! ### The collecting loops -/

def kept (keep : BucketEntry → Bool) (entries : List BucketEntry) : List Entry :=
  (entries.filter keep).map BucketEntry.entry

/-- With room left, the inner loop appends the usable entries of the bucket and leaves the
outer loop as soon as the room is used up. -/
theorem collectBucket_eq (keep : BucketEntry → Bool) (maxEntries : Nat)
    (bucketEntries : List BucketEntry) (entries : List Entry)
    (room : entries.length < maxEntries) :
    collectBucket keep maxEntries bucketEntries entries =
      (entries ++ (kept keep bucketEntries).take (maxEntries - entries.length),
        decide (maxEntries ≤ entries.length + (kept keep bucketEntries).length)) := by
  induction bucketEntries generalizing entries with
  | nil => simp [collectBucket, kept, room]
  | cons e rest inductionHypothesis =>
    rw [collectBucket]
    by_cases keeps : keep e = true
    · have front : kept keep (e :: rest) = e.entry :: kept keep rest := by
        simp [kept, keeps]
      rw [if_pos keeps, front]
      simp only [List.length_append, List.length_cons, List.length_nil, Nat.zero_add]
      by_cases last : entries.length + 1 = maxEntries
      · have one : maxEntries - entries.length = 1 := by omega
        rw [if_pos last, one, List.take_succ_cons, List.take_zero, Prod.mk.injEq]
        refine ⟨rfl, (decide_eq_true ?_).symm⟩
        omega
      · have more : maxEntries - entries.length = maxEntries - (entries.length + 1) + 1 := by
          omega
        have roomLeft : (entries ++ [e.entry]).length < maxEntries := by
          rw [List.length_append, List.length_singleton]
          omega
        rw [if_neg last, inductionHypothesis _ roomLeft, more, List.take_succ_cons]
        simp only [List.length_append, List.length_singleton, List.append_assoc,
          List.singleton_append, Prod.mk.injEq, true_and]
        congr 1
        rw [eq_iff_iff]
        omega
    · have same : kept keep (e :: rest) = kept keep rest := by
        simp [kept, keeps]
      rw [if_neg keeps, same]
      exact inductionHypothesis entries room

/-- The two loops together keep the first usable entries of the walked buckets. -/
theorem collectBuckets_eq (keep : BucketEntry → Bool) (maxEntries : Nat)
    (buckets : List Bucket) (entries : List Entry) (room : entries.length < maxEntries) :
    collectBuckets keep maxEntries buckets entries =
      entries ++ (buckets.flatMap fun bucket => kept keep bucket.entries).take
        (maxEntries - entries.length) := by
  induction buckets generalizing entries with
  | nil => simp [collectBuckets]
  | cons bucket rest inductionHypothesis =>
    rw [collectBuckets, collectBucket_eq keep maxEntries _ _ room, List.flatMap_cons]
    by_cases full : maxEntries ≤ entries.length + (kept keep bucket.entries).length
    · simp only [full, decide_true]
      rw [List.take_append_of_le_length (by omega)]
    · have short : (kept keep bucket.entries).length ≤ maxEntries - entries.length := by omega
      simp only [full, decide_false]
      rw [List.take_of_length_le short, inductionHypothesis _ (by
        rw [List.length_append]
        omega), List.take_append, List.take_of_length_le short, List.append_assoc,
        List.length_append, Nat.sub_sub]

/-! ### The walk -/

/-- How far apart two buckets are in the table. -/
def bucketGap (first second : Fin TABLE_SIZE) : Nat :=
  (first.val - second.val) + (second.val - first.val)

/-- The buckets the walk visits at distance `i`: the lower neighbour unless it is the first
bucket, the upper one unless it is the last. -/
theorem mem_walkRing {bucketIdx idx : Fin TABLE_SIZE} {i : Nat} :
    idx ∈ walkRing bucketIdx i ↔
      (idx.val + i = bucketIdx.val ∧ 1 ≤ idx.val) ∨
        (idx.val = bucketIdx.val + i ∧ idx.val < TABLE_SIZE - 1) := by
  rw [walkRing, List.mem_append]
  refine or_congr ?_ ?_
  · split
    · simp only [List.mem_singleton, Fin.ext_iff]
      omega
    · simp only [List.not_mem_nil, false_iff]
      omega
  · split
    · simp only [List.mem_singleton, Fin.ext_iff]
      omega
    · simp only [List.not_mem_nil, false_iff]
      omega

theorem bucketGap_of_mem_walkRing {bucketIdx idx : Fin TABLE_SIZE} {i : Nat}
    (member : idx ∈ walkRing bucketIdx i) : bucketGap bucketIdx idx = i := by
  rw [mem_walkRing] at member
  unfold bucketGap
  omega

/-- The walk visits no bucket twice and goes outwards. -/
theorem walkFrom_pairwise (bucketIdx : Fin TABLE_SIZE) :
    (walkFrom bucketIdx).Pairwise fun first second =>
      first ≠ second ∧ bucketGap bucketIdx first ≤ bucketGap bucketIdx second := by
  rw [walkFrom, List.pairwise_cons]
  constructor
  · intro idx member
    obtain ⟨i, inRange, inRing⟩ := List.mem_flatMap.mp member
    have positive : 1 ≤ i := (List.mem_range'_1.mp inRange).1
    have gap := bucketGap_of_mem_walkRing inRing
    refine ⟨fun same => ?_, by simp [bucketGap]⟩
    rw [← same, bucketGap] at gap
    omega
  · rw [List.pairwise_flatMap]
    constructor
    · intro i inRange
      have positive : 1 ≤ i := (List.mem_range'_1.mp inRange).1
      have apart : ∀ first second : Fin TABLE_SIZE, first.val + i = bucketIdx.val →
          second.val = bucketIdx.val + i →
          first ≠ second ∧ bucketGap bucketIdx first ≤ bucketGap bucketIdx second := by
        intro first second below above
        refine ⟨fun same => ?_, by unfold bucketGap; omega⟩
        rw [Fin.ext_iff] at same
        omega
      rw [walkRing, List.pairwise_append]
      refine ⟨by split <;> simp, by split <;> simp, fun first below second above => ?_⟩
      split at below
      · split at above
        · rw [List.mem_singleton] at below above
          refine apart first second ?_ ?_
          · rw [below]
            simp only
            omega
          · rw [above]
        · cases above
      · cases below
    · refine (List.pairwise_lt_range' 1 Nat.one_pos).imp
        fun {i j} less first inFirst second inSecond => ?_
      have gap := bucketGap_of_mem_walkRing inFirst
      have gap' := bucketGap_of_mem_walkRing inSecond
      refine ⟨fun same => ?_, by omega⟩
      rw [same] at gap
      omega

theorem walkFrom_nodup (bucketIdx : Fin TABLE_SIZE) : (walkFrom bucketIdx).Nodup :=
  (walkFrom_pairwise bucketIdx).imp And.left

/-- The walk reaches every bucket that is neither the first nor the last. -/
theorem mem_walkFrom {bucketIdx idx : Fin TABLE_SIZE} (inner : 1 ≤ idx.val)
    (below : idx.val < TABLE_SIZE - 1) : idx ∈ walkFrom bucketIdx := by
  have bound : bucketIdx.val < TABLE_SIZE := bucketIdx.isLt
  unfold TABLE_SIZE at bound below
  by_cases same : idx = bucketIdx
  · rw [same]
    exact List.mem_cons_self
  · have differ : idx.val ≠ bucketIdx.val := fun equal => same (Fin.ext equal)
    refine List.mem_cons_of_mem _ (List.mem_flatMap.mpr ⟨bucketGap bucketIdx idx, ?_, ?_⟩)
    · rw [List.mem_range'_1]
      unfold bucketGap DISTANCE_LIMIT
      omega
    · rw [mem_walkRing]
      unfold bucketGap TABLE_SIZE
      omega

variable (table : RoutingTable) (targetKey : Key)

/-- The usable entries of a table in the order of the walk for a target. -/
def RoutingTable.walked (localBloom : LocalBloom) : List Entry :=
  (table.bucketIndexes targetKey).flatMap fun idx =>
    kept (usable localBloom) (table.buckets.get idx).entries

/-- The search returns the first usable entries of the walk, in some order. -/
theorem RoutingTable.closestEntriesFiltered_perm (targetKey : Key) {maxEntries : Nat}
    (positive : 1 ≤ maxEntries) (localBloom : LocalBloom) :
    (table.closestEntriesFiltered targetKey maxEntries localBloom).Perm
      ((table.walked targetKey localBloom).take maxEntries) := by
  refine (List.perm_insertionSort _ _).trans (List.Perm.of_eq ?_)
  rw [collectBuckets_eq _ _ _ _ positive, List.flatMap_map]
  rfl

/-! ### Distances -/

/-- The distance of an entry to the target, as the bytes the comparison reads. -/
def distanceTo (entry : Entry) : List UInt8 :=
  (xorDistance targetKey entry.key).toList

instance (targetKey : Key) : Std.Total (closer targetKey) :=
  ⟨fun _ _ => List.le_total _ _⟩

instance (targetKey : Key) : IsTrans Entry (closer targetKey) :=
  ⟨fun _ _ _ => List.le_trans⟩

theorem distanceTo_injective {targetKey : Key} {first second : Entry}
    (same : distanceTo targetKey first = distanceTo targetKey second) :
    first.key = second.key := by
  have vectors : xorDistance targetKey first.key = xorDistance targetKey second.key :=
    Vector.toList_inj.mp same
  refine Vector.ext fun index bound => ?_
  have bytes := congrArg (fun distance : Key => distance[index]) vectors
  simp only [xorDistance, Vector.getElem_zipWith] at bytes
  exact (UInt8.xor_right_inj _).mp bytes

/-- Sorting entries with different keys puts them in strictly ascending distance. -/
theorem insertionSort_strict (entries : List Entry) (distinct : (entries.map Entry.key).Nodup) :
    (entries.insertionSort (closer targetKey)).Pairwise fun a b =>
      distanceTo targetKey a < distanceTo targetKey b := by
  have sorted := List.pairwise_insertionSort (closer targetKey) entries
  have apart : (entries.insertionSort (closer targetKey)).Pairwise fun a b => a.key ≠ b.key := by
    rw [← List.pairwise_map]
    exact ((List.perm_insertionSort (closer targetKey) entries).map Entry.key).nodup_iff.mpr
      distinct
  refine (sorted.and apart).imp fun {a b} ⟨le, ne⟩ => ?_
  exact Std.lt_of_le_of_ne le fun same => ne (distanceTo_injective same)

/-! ### What the search returns -/

/-- The usable entries of the whole table. -/
def RoutingTable.usableEntries (localBloom : LocalBloom) : List Entry :=
  kept (usable localBloom) table.stored

/-- The list is the closest entries: strictly ascending in distance, drawn from the usable
entries, as many as there are up to the limit, and closer than every usable entry left out. -/
def IsClosest (maxEntries : Nat) (localBloom : LocalBloom) (result : List Entry) : Prop :=
  result.Pairwise (fun a b => distanceTo targetKey a < distanceTo targetKey b) ∧
    (∀ entry ∈ result, entry ∈ table.usableEntries localBloom) ∧
    result.length = min maxEntries (table.usableEntries localBloom).length ∧
    ∀ entry ∈ table.usableEntries localBloom, entry ∉ result →
      ∀ found ∈ result, distanceTo targetKey found < distanceTo targetKey entry

theorem RoutingTable.mem_walked {table : RoutingTable} {targetKey : Key}
    {localBloom : LocalBloom} {entry : Entry}
    (member : entry ∈ table.walked targetKey localBloom) :
    entry ∈ table.usableEntries localBloom := by
  simp only [RoutingTable.walked, List.mem_flatMap, kept, List.mem_map, List.mem_filter] at member
  obtain ⟨idx, _, e, ⟨inBucket, keeps⟩, rfl⟩ := member
  exact List.mem_map_of_mem
    (List.mem_filter.mpr ⟨RoutingTable.mem_stored.mpr ⟨idx, inBucket⟩, keeps⟩)

theorem RoutingTable.WellFormed.nodup_walked {localKey : Key} {table : RoutingTable}
    (wellFormed : table.WellFormed localKey) (targetKey : Key) (localBloom : LocalBloom) :
    ((table.walked targetKey localBloom).map Entry.key).Nodup := by
  have inBucket {idx : Fin TABLE_SIZE} {key : Key}
      (member : key ∈ (kept (usable localBloom) (table.buckets.get idx).entries).map Entry.key) :
      table.bucketIndex key = some idx := by
    simp only [kept, List.mem_map, List.mem_filter] at member
    obtain ⟨_, ⟨e, ⟨stored, _⟩, rfl⟩, rfl⟩ := member
    exact wellFormed.placed idx e stored
  rw [RoutingTable.walked, List.map_flatMap, List.nodup_flatMap]
  constructor
  · intro idx _
    rw [kept, List.map_map]
    exact (wellFormed.distinct idx).sublist (List.filter_sublist.map _)
  · refine (walkFrom_nodup _).imp fun {first second} different key firstMember secondMember => ?_
    have same := (inBucket firstMember).symm.trans (inBucket secondMember)
    exact different (Option.some.inj same)

/-- What the closest-entries search returns on every reachable table: in strictly ascending
distance and without duplicates, the first `maxEntries` usable entries of the bucket walk.
The walk starts at the target's own bucket, visits no bucket twice, goes outwards and reaches
at least the target's own bucket and every bucket but the first and the last. When the walk
meets at most `maxEntries` usable entries, and it meets all there are, the result is the
closest entries. -/
theorem closestEntries_walk (localKey : Key) (ops : List TableOp) (targetKey : Key)
    (maxEntries : Nat) (localBloom : LocalBloom) (positive : 1 ≤ maxEntries) :
    let table := RoutingTable.run localKey ops
    let walk := table.bucketIndexes targetKey
    let found := walk.flatMap fun idx => kept (usable localBloom) (table.buckets.get idx).entries
    let result := table.closestEntriesFiltered targetKey maxEntries localBloom
    result.Pairwise (fun a b => distanceTo targetKey a < distanceTo targetKey b) ∧
      (result.map Entry.key).Nodup ∧
      result.Perm (found.take maxEntries) ∧
      result.length = min maxEntries found.length ∧
      (∀ entry ∈ result, entry ∈ table.usableEntries localBloom) ∧
      (walk.head? = some ((table.bucketIndex targetKey).getD ⟨0, by decide⟩) ∧ walk.Nodup ∧
        (walk.Pairwise fun first second =>
          bucketGap ((table.bucketIndex targetKey).getD ⟨0, by decide⟩) first ≤
            bucketGap ((table.bucketIndex targetKey).getD ⟨0, by decide⟩) second) ∧
        ∀ idx : Fin TABLE_SIZE, 1 ≤ idx.val ∧ idx.val < TABLE_SIZE - 1 → idx ∈ walk) ∧
      (found.length ≤ maxEntries → (∀ entry ∈ table.usableEntries localBloom, entry ∈ found) →
        IsClosest table targetKey maxEntries localBloom result) ∧
      (localBloom = .default → table.closestEntries targetKey maxEntries = result) := by
  intro table walk found result
  have wellFormed : table.WellFormed localKey := RoutingTable.run_wellFormed localKey ops
  have permuted : result.Perm (found.take maxEntries) :=
    table.closestEntriesFiltered_perm targetKey positive localBloom
  have nodupFound : (found.map Entry.key).Nodup := wellFormed.nodup_walked targetKey localBloom
  have nodupResult : (result.map Entry.key).Nodup := by
    refine (permuted.map Entry.key).nodup_iff.mpr (nodupFound.sublist ?_)
    exact (List.take_sublist _ _).map _
  have sorted : result.Pairwise fun a b => distanceTo targetKey a < distanceTo targetKey b := by
    refine insertionSort_strict targetKey _ ?_
    exact ((List.perm_insertionSort (closer targetKey) _).map Entry.key).nodup_iff.mp nodupResult
  have size : result.length = min maxEntries found.length := by
    rw [permuted.length_eq, List.length_take]
  have drawn : ∀ entry ∈ result, entry ∈ table.usableEntries localBloom := fun entry member =>
    RoutingTable.mem_walked (List.mem_of_mem_take (permuted.mem_iff.mp member))
  refine ⟨sorted, nodupResult, permuted, size, drawn,
    ⟨rfl, walkFrom_nodup _, (walkFrom_pairwise _).imp And.right,
      fun idx inner => mem_walkFrom inner.1 inner.2⟩,
    fun few all => ⟨sorted, drawn, ?_, ?_⟩,
    fun default => by rw [RoutingTable.closestEntries, ← default]⟩
  · have usableNodup : (table.usableEntries localBloom).Nodup := by
      refine List.Nodup.of_map Entry.key ?_
      rw [RoutingTable.usableEntries, kept, List.map_map]
      exact wellFormed.nodup_keys.sublist (List.filter_sublist.map _)
    have same : found.Perm (table.usableEntries localBloom) :=
      (List.perm_ext_iff_of_nodup (List.Nodup.of_map Entry.key nodupFound) usableNodup).mpr
        fun entry => ⟨RoutingTable.mem_walked, all entry⟩
    rw [size, same.length_eq]
  · intro entry member missing
    refine absurd (permuted.mem_iff.mpr ?_) missing
    rw [List.take_of_length_le few]
    exact all entry member

/-- The key whose only nonzero byte is the given one. -/
def keyWith (position : Fin 32) (byte : UInt8) : Key :=
  Vector.set (Vector.replicate KEY_SIZE 0) position.val byte position.isLt

/-- A peer with the key and one TCP address in the subnet `10.0.subnet.0/24`. -/
def peerAt (key : Key) (subnet : UInt8) : Entry :=
  { key := key
    addrs := [⟨.ip (.v4 #v[10, 0, subnet, 1]), 3000, .tcp, 0⟩]
    discoveryAddrs := []
    protocols := .default }

/-- One peer in bucket 26 and one in bucket 5 of the node with the zero key. -/
def twoPeers : List TableOp :=
  [.addEntry (peerAt (keyWith 5 20) 1) 0, .addEntry (peerAt (keyWith 26 1) 2) 0]

/-- One peer in bucket 31 of the node with the zero key. -/
def lastPeer : List TableOp := [.addEntry (peerAt (keyWith 0 1) 1) 0]

theorem closestEntries_walk_twoPeers :
    (1 ≤ 1) ∧ ((RoutingTable.run (keyWith 0 0) twoPeers).closestEntriesFiltered (keyWith 0 223) 1
      .default).Perm [peerAt (keyWith 5 20) 1] := by
  refine ⟨le_rfl, ?_⟩
  have walk := closestEntries_walk (keyWith 0 0) twoPeers (keyWith 0 223) 1 .default le_rfl
  exact walk.2.2.1.trans (List.Perm.of_eq (by decide +kernel))

/-- The search does not return the closest entries. On a table with entries in buckets 26 and
5 it returns the farther one for a target in bucket 31, and on a table whose only entry is in
bucket 31 it returns nothing for a target in bucket 0. -/
theorem closestEntries_not_closest :
    (¬ IsClosest (RoutingTable.run (keyWith 0 0) twoPeers) (keyWith 0 223) 1 .default
        ((RoutingTable.run (keyWith 0 0) twoPeers).closestEntries (keyWith 0 223) 1)) ∧
      ¬ IsClosest (RoutingTable.run (keyWith 0 0) lastPeer) (keyWith 31 1) 1 .default
        ((RoutingTable.run (keyWith 0 0) lastPeer).closestEntries (keyWith 31 1) 1) := by
  constructor
  · rintro ⟨_, _, _, closest⟩
    have nearer := closest (peerAt (keyWith 26 1) 2) (by decide +kernel) (by decide +kernel)
      (peerAt (keyWith 5 20) 1) (by decide +kernel)
    exact absurd nearer (by decide +kernel)
  · rintro ⟨_, _, size, _⟩
    exact absurd size (by decide +kernel)

end Karyon.P2p
