/-
This file reads the bloom filters of `p2p/src/discovery/kademlia/bloom.rs` as sets of bit positions.
To insert an item is to take the union with the two positions of its hash, so each of the three
filters of a node is the union of the positions of those items whose flags put them there.

A peer that advertises what a node requires, and one of the items that the node prefers if it
prefers any, is therefore never turned away (`suitable_matches`). The hash is arbitrary: every
choice of two positions for each item is the mask of some hash (`exists_siphash`).
-/

import Karyon.P2p.Bloom
import Mathlib.Data.Set.Lattice

namespace Karyon.P2p

/-! ### Filters as sets of positions -/

/-- The positions of the bits that are set. -/
def bitPositions (bits : BitVec 128) : Set Nat := {position | bits.getLsbD position = true}

def Bloom.positions (self : Bloom) : Set Nat := bitPositions self.bits

theorem mem_bitPositions {bits : BitVec 128} {position : Nat} :
    position ∈ bitPositions bits ↔ bits.getLsbD position = true :=
  Iff.rfl

theorem bitPositions_or (first second : BitVec 128) :
    bitPositions (first ||| second) = bitPositions first ∪ bitPositions second := by
  ext position
  simp only [Set.mem_union, mem_bitPositions, BitVec.getLsbD_or, Bool.or_eq_true]

theorem bitPositions_and (first second : BitVec 128) :
    bitPositions (first &&& second) = bitPositions first ∩ bitPositions second := by
  ext position
  simp only [Set.mem_inter_iff, mem_bitPositions, BitVec.getLsbD_and, Bool.and_eq_true]

theorem bitPositions_zero : bitPositions 0 = ∅ :=
  Set.eq_empty_of_forall_notMem fun _ member =>
    Bool.noConfusion (BitVec.getLsbD_zero.symm.trans (mem_bitPositions.mp member))

theorem bitPositions_injective : Function.Injective bitPositions := by
  intro first second same
  ext position bound
  have set := Set.ext_iff.mp same position
  rw [mem_bitPositions, mem_bitPositions, BitVec.getLsbD_eq_getElem bound,
    BitVec.getLsbD_eq_getElem bound] at set
  exact Bool.eq_iff_iff.mpr set

namespace Bloom

variable {siphash : Bytes → UInt64} {first second : Bloom}

theorem positions_injective : Function.Injective positions := by
  rintro ⟨first⟩ ⟨second⟩ same
  exact congrArg mk (bitPositions_injective same)

theorem covers_iff_subset : first.covers second = true ↔ second.positions ⊆ first.positions := by
  rw [covers_iff, ← bitPositions_injective.eq_iff, bitPositions_and, Set.inter_eq_right]
  rfl

theorem isEmpty_iff : first.isEmpty = true ↔ first.positions = ∅ := by
  rw [isEmpty, beq_iff_eq, ← bitPositions_injective.eq_iff, bitPositions_zero]
  rfl

theorem intersects_iff : first.intersects second = true ↔
    (first.positions ∩ second.positions).Nonempty := by
  rw [intersects, bne_iff_ne, Set.nonempty_iff_ne_empty, Ne, ← bitPositions_injective.eq_iff,
    bitPositions_and, bitPositions_zero]
  rfl

theorem positions_default : Bloom.default.positions = ∅ := bitPositions_zero

theorem positions_add (self : Bloom) (item : Bytes) :
    (self.add siphash item).positions = self.positions ∪ bitPositions (itemMask siphash item) :=
  bitPositions_or _ _

end Bloom

/-! ### The mask of an item -/

def twoBits (positions : Fin 128 × Fin 128) : BitVec 128 :=
  ((1 <<< positions.1.val : Nat) : BitVec 128) ||| ((1 <<< positions.2.val : Nat) : BitVec 128)

def hashPositions (hash : UInt64) : Fin 128 × Fin 128 :=
  (Fin.ofNat 128 hash.toUInt32.toNat, Fin.ofNat 128 (hash >>> 32).toUInt32.toNat)

theorem itemMask_eq (siphash : Bytes → UInt64) (item : Bytes) :
    itemMask siphash item = twoBits (hashPositions (siphash item)) := by
  have low : ((siphash item).toUInt32 % 128).toNat = (siphash item).toUInt32.toNat % 128 :=
    UInt32.toNat_mod _ _
  have high : ((siphash item >>> 32).toUInt32 % 128).toNat =
      (siphash item >>> 32).toUInt32.toNat % 128 :=
    UInt32.toNat_mod _ _
  rw [itemMask, low, high]
  rfl

theorem itemMask_nonempty (siphash : Bytes → UInt64) (item : Bytes) :
    (bitPositions (itemMask siphash item)).Nonempty := by
  refine ⟨(hashPositions (siphash item)).1.val, ?_⟩
  rw [itemMask_eq, twoBits, bitPositions_or]
  refine Set.mem_union_left _ ?_
  rw [mem_bitPositions, BitVec.natCast_eq_ofNat, BitVec.getLsbD_ofNat, Nat.one_shiftLeft,
    Nat.testBit_two_pow_self, Bool.and_true, decide_eq_true_iff]
  exact Fin.is_lt _

/-- The two halves of a hash can be any two positions. -/
theorem exists_hashPositions (positions : Fin 128 × Fin 128) :
    ∃ hash, hashPositions hash = positions := by
  obtain ⟨first, second⟩ := positions
  refine ⟨.ofNat (first + second * 2 ^ 32), Prod.ext (Fin.ext ?_) (Fin.ext ?_)⟩
  · simp [hashPositions, Fin.ofNat]
  · simp [hashPositions, Fin.ofNat, Nat.shiftRight_eq_div_pow]
    omega

/-- Every choice of two positions for each item is the mask of some hash. -/
theorem exists_siphash (positions : Bytes → Fin 128 × Fin 128) :
    ∃ siphash, ∀ item, itemMask siphash item = twoBits (positions item) := by
  choose hash same using exists_hashPositions
  refine ⟨fun item => hash (positions item), fun item => ?_⟩
  rw [itemMask_eq, same]

/-! ### A sequence of additions -/

variable (siphash : Bytes → UInt64)

/-- The bloom of a node after a sequence of `BloomRef::add`. -/
def LocalBloom.addAll (additions : List (Bytes × ProtocolFlags)) : LocalBloom :=
  additions.foldl (fun bloom added => bloom.add siphash added.1 added.2) .default

/-- The positions of an item if its flags satisfy the condition. -/
def addedPositions (marks : ProtocolFlags → Prop) (added : Bytes × ProtocolFlags) : Set Nat :=
  {position | marks added.2 ∧ position ∈ bitPositions (itemMask siphash added.1)}

/-- One of the three filters takes the items whose flags satisfy the condition. -/
structure Takes (filter : LocalBloom → Bloom) (marks : ProtocolFlags → Prop) : Prop where
  starts : (filter .default).positions = ∅
  adds : ∀ bloom added, (filter (bloom.add siphash added.1 added.2)).positions =
    (filter bloom).positions ∪ addedPositions siphash marks added

section Additions

variable {siphash : Bytes → UInt64} {marks : ProtocolFlags → Prop}
  {added : Bytes × ProtocolFlags}

theorem addedPositions_of_marks (marked : marks added.2) :
    addedPositions siphash marks added = bitPositions (itemMask siphash added.1) :=
  Set.ext fun _ => and_iff_right marked

theorem addedPositions_of_not_marks (unmarked : ¬ marks added.2) :
    addedPositions siphash marks added = ∅ :=
  Set.eq_empty_of_forall_notMem fun _ member => unmarked member.1

variable {filter : LocalBloom → Bloom}

/-- A filter is the union of the positions of the items that it takes. -/
theorem Takes.positions_addAll (takes : Takes siphash filter marks)
    (additions : List (Bytes × ProtocolFlags)) :
    (filter (LocalBloom.addAll siphash additions)).positions =
      ⋃ added ∈ additions, addedPositions siphash marks added := by
  induction additions using List.reverseRecOn with
  | nil =>
    simp only [List.not_mem_nil, Set.iUnion_of_empty, Set.iUnion_empty]
    exact takes.starts
  | append_singleton earlier added inductionHypothesis =>
    rw [LocalBloom.addAll, List.foldl_concat, takes.adds]
    simp only [List.mem_append, List.mem_singleton, Set.iUnion_or, Set.iUnion_union_distrib,
      Set.iUnion_iUnion_eq_left]
    exact congrArg (· ∪ _) inductionHypothesis

/-- Flags that put an item into another filter put it among the advertised ones. -/
theorem ne_empty_of_contains {flags mark : ProtocolFlags}
    (outside : ProtocolFlags.empty.contains mark ≠ true) (marked : flags.contains mark = true) :
    flags ≠ .empty := by
  rintro rfl
  exact outside marked

theorem takes_of_contains {mark : ProtocolFlags} (starts : filter .default = .default)
    (adds : ∀ bloom item flags, filter (bloom.add siphash item flags) =
      if flags.contains mark then (filter bloom).add siphash item else filter bloom) :
    Takes siphash filter (·.contains mark = true) where
  starts := by rw [starts, Bloom.positions_default]
  adds bloom added := by
    rw [adds]
    split
    · rename_i marked
      rw [addedPositions_of_marks marked, Bloom.positions_add]
    · rename_i marked
      rw [addedPositions_of_not_marks marked, Set.union_empty]

theorem takes_required : Takes siphash LocalBloom.required (·.contains .REQUIRED = true) := by
  refine takes_of_contains rfl fun bloom item flags => ?_
  by_cases empty : flags = .empty
  · subst empty
    rfl
  · rw [LocalBloom.add, if_neg empty]

theorem takes_preferred : Takes siphash LocalBloom.preferred (·.contains .PREFERRED = true) := by
  refine takes_of_contains rfl fun bloom item flags => ?_
  by_cases empty : flags = .empty
  · subst empty
    rfl
  · rw [LocalBloom.add, if_neg empty]

theorem takes_advertised : Takes siphash LocalBloom.advertised (· ≠ .empty) where
  starts := Bloom.positions_default
  adds bloom added := by
    unfold LocalBloom.add
    split
    · rename_i empty
      rw [addedPositions_of_not_marks (not_not.mpr empty), Set.union_empty]
    · rename_i nonempty
      rw [addedPositions_of_marks nonempty, Bloom.positions_add]

end Additions

/-! ### What the filters of a node say -/

section Filters

variable (siphash : Bytes → UInt64)

/-- What every pair adds to a filter depends on the pair alone. -/
theorem addAll_congr {own other : List (Bytes × ProtocolFlags)}
    (same : ∀ added, added ∈ own ↔ added ∈ other) :
    LocalBloom.addAll siphash own = LocalBloom.addAll siphash other := by
  have filters {filter : LocalBloom → Bloom} {marks : ProtocolFlags → Prop}
      (takes : Takes siphash filter marks) :
      filter (LocalBloom.addAll siphash own) = filter (LocalBloom.addAll siphash other) := by
    refine Bloom.positions_injective ?_
    rw [takes.positions_addAll, takes.positions_addAll]
    simp only [same]
  have advertised := filters takes_advertised
  have required := filters takes_required
  have preferred := filters takes_preferred
  cases first : LocalBloom.addAll siphash own
  cases second : LocalBloom.addAll siphash other
  rw [first, second] at advertised required preferred
  cases advertised
  cases required
  cases preferred
  rfl

/-- A filter that takes fewer items is covered by one that takes more. -/
theorem covers_of_takes {upper lower : LocalBloom → Bloom} {more fewer : ProtocolFlags → Prop}
    (takesMore : Takes siphash upper more) (takesFewer : Takes siphash lower fewer)
    (marks : ∀ flags, fewer flags → more flags) (additions : List (Bytes × ProtocolFlags)) :
    (upper (LocalBloom.addAll siphash additions)).covers
      (lower (LocalBloom.addAll siphash additions)) = true := by
  rw [Bloom.covers_iff_subset, takesMore.positions_addAll, takesFewer.positions_addAll]
  refine Set.iUnion₂_mono fun added _ => ?_
  rintro position ⟨marked, member⟩
  exact ⟨marks _ marked, member⟩

variable {siphash}

/-- The peer advertised every item that the node requires, and one of those that it prefers if
it prefers any. -/
structure Suitable (own peer : List (Bytes × ProtocolFlags)) : Prop where
  required : ∀ item flags, (item, flags) ∈ own → flags.contains .REQUIRED = true →
    ∃ theirs, theirs ≠ ProtocolFlags.empty ∧ (item, theirs) ∈ peer
  preferred : (∃ item flags, (item, flags) ∈ own ∧ flags.contains .PREFERRED = true) →
    ∃ item flags theirs, (item, flags) ∈ own ∧ flags.contains .PREFERRED = true ∧
      theirs ≠ ProtocolFlags.empty ∧ (item, theirs) ∈ peer

theorem mem_positions_advertised {item : Bytes} {flags : ProtocolFlags} {position : Nat}
    {additions : List (Bytes × ProtocolFlags)} (member : (item, flags) ∈ additions)
    (nonempty : flags ≠ .empty) (set : position ∈ bitPositions (itemMask siphash item)) :
    position ∈ (LocalBloom.addAll siphash additions).advertised.positions := by
  rw [takes_advertised.positions_addAll]
  exact Set.mem_biUnion member ⟨nonempty, set⟩

section

variable {peer own : List (Bytes × ProtocolFlags)} (suitable : Suitable own peer)

include suitable

theorem Suitable.covers :
    (LocalBloom.addAll siphash peer).advertised.covers (LocalBloom.addAll siphash own).required =
      true := by
  rw [Bloom.covers_iff_subset, takes_required.positions_addAll]
  refine Set.iUnion₂_subset ?_
  rintro ⟨item, flags⟩ member position ⟨required, set⟩
  obtain ⟨theirs, nonempty, advertised⟩ := suitable.required item flags member required
  exact mem_positions_advertised advertised nonempty set

theorem Suitable.intersects (prefers : (LocalBloom.addAll siphash own).preferred.isEmpty = false) :
    (LocalBloom.addAll siphash peer).advertised.intersects
      (LocalBloom.addAll siphash own).preferred = true := by
  rw [← Bool.not_eq_true, Bloom.isEmpty_iff, ← Ne, ← Set.nonempty_iff_ne_empty,
    takes_preferred.positions_addAll] at prefers
  obtain ⟨_, inUnion⟩ := prefers
  obtain ⟨⟨item, flags⟩, member, marked, _⟩ := Set.mem_iUnion₂.mp inUnion
  obtain ⟨shared, own, theirs, added, preferred, nonempty, advertised⟩ :=
    suitable.preferred ⟨item, flags, member, marked⟩
  obtain ⟨position, set⟩ := itemMask_nonempty siphash shared
  rw [Bloom.intersects_iff, takes_preferred.positions_addAll]
  exact ⟨position, mem_positions_advertised advertised nonempty set,
    Set.mem_biUnion added ⟨preferred, set⟩⟩

end

/-- A suitable peer is never turned away, the filters depend only on which pairs were added, and
what a node requires and prefers it advertises. -/
theorem suitable_matches (siphash : Bytes → UInt64) (own peer : List (Bytes × ProtocolFlags)) :
    (Suitable own peer →
      (LocalBloom.addAll siphash own).matches (LocalBloom.addAll siphash peer).advertised = true) ∧
    ((∀ added, added ∈ own ↔ added ∈ peer) →
      LocalBloom.addAll siphash own = LocalBloom.addAll siphash peer) ∧
    (LocalBloom.addAll siphash own).advertised.covers (LocalBloom.addAll siphash own).required =
      true ∧
    (LocalBloom.addAll siphash own).advertised.covers (LocalBloom.addAll siphash own).preferred =
      true := by
  refine ⟨fun suitable => ?_, addAll_congr siphash,
    covers_of_takes siphash takes_advertised takes_required
      (fun _ => ne_empty_of_contains nofun) own,
    covers_of_takes siphash takes_advertised takes_preferred
      (fun _ => ne_empty_of_contains nofun) own⟩
  rw [LocalBloom.matches, suitable.covers]
  cases prefers : (LocalBloom.addAll siphash own).preferred.isEmpty with
  | true => rfl
  | false => exact suitable.intersects prefers

end Filters

/-- A peer that has the required item and one of the two preferred ones. -/
theorem suitable_matches_one_preferred :
    (LocalBloom.addAll (fun item => (item.headD 0).toUInt64)
        [([1], .REQUIRED), ([2], .PREFERRED), ([3], .PREFERRED)]).matches
      (LocalBloom.addAll (fun item => (item.headD 0).toUInt64)
        [([3], .REQUIRED), ([1], .PREFERRED)]).advertised = true := by
  refine (suitable_matches _ _ _).1 ⟨?_, ?_⟩
  · intro item flags member required
    simp only [List.mem_cons, List.not_mem_nil, or_false, Prod.mk.injEq] at member
    rcases member with ⟨rfl, rfl⟩ | ⟨rfl, rfl⟩ | ⟨rfl, rfl⟩
    · exact ⟨.PREFERRED, by decide, by decide⟩
    · exact absurd required (by decide)
    · exact absurd required (by decide)
  · intro _
    exact ⟨[3], .PREFERRED, .REQUIRED, by decide, by decide, by decide, by decide⟩

end Karyon.P2p
