/-
This file models the bloom filters of `p2p/src/discovery/kademlia/bloom.rs`:
the 128-bit word a peer advertises and the local triple that decides which
advertised words are acceptable.

The hash of an item is a parameter. A filter that covers another one may contain
whatever the other may contain, and items are only ever added, so what was added
stays (`LocalBloom.covers_add`, `LocalBloom.mayContain_add`).
-/

import Karyon.P2p.Message
import Mathlib.Data.BitVec

namespace Karyon.P2p

/-- The 128-bit bloom filter a peer advertises. -/
structure Bloom where
  bits : BitVec 128
  deriving DecidableEq

/-- The empty filter. -/
def Bloom.default : Bloom := ⟨0⟩

/-- Every bit set in `other` is also set in `self`. -/
def Bloom.covers (self other : Bloom) : Bool := (self.bits &&& other.bits) == other.bits

def Bloom.intersects (self other : Bloom) : Bool := (self.bits &&& other.bits) != 0

def Bloom.isEmpty (self : Bloom) : Bool := self.bits == 0

section Items

variable (siphash : Bytes → UInt64)

/-- Bit mask for an item: two bit positions from the two halves of its hash. -/
def itemMask (item : Bytes) : BitVec 128 :=
  let h := siphash item
  let a := h.toUInt32 % 128
  let b := (h >>> 32).toUInt32 % 128
  (1 <<< a.toNat) ||| (1 <<< b.toNat)

def Bloom.add (self : Bloom) (item : Bytes) : Bloom := ⟨self.bits ||| itemMask siphash item⟩

def Bloom.mayContain (self : Bloom) (item : Bytes) : Bool :=
  (self.bits &&& itemMask siphash item) == itemMask siphash item

end Items

/-- What the local node advertises and how it filters peers. -/
structure LocalBloom where
  advertised : Bloom
  required : Bloom
  preferred : Bloom

/-- The local bloom of a node that added nothing. -/
def LocalBloom.default : LocalBloom := ⟨.default, .default, .default⟩

/-- A peer's advertised bloom is acceptable when it covers `required` and, unless
`preferred` is empty, intersects it. -/
def LocalBloom.matches (self : LocalBloom) (peer : Bloom) : Bool :=
  if !peer.covers self.required then false
  else if self.preferred.isEmpty then true
  else peer.intersects self.preferred

/-- Add an item. Any non-empty flags advertise it; `REQUIRED` and `PREFERRED` also mark it for
local filtering. -/
def LocalBloom.add (siphash : Bytes → UInt64) (self : LocalBloom) (item : Bytes)
    (flags : ProtocolFlags) : LocalBloom :=
  if flags = .empty then self
  else
    { advertised := self.advertised.add siphash item
      required := if flags.contains .REQUIRED then self.required.add siphash item else self.required
      preferred :=
        if flags.contains .PREFERRED then self.preferred.add siphash item else self.preferred }

/-! ### What covers what -/

namespace Bloom

variable {siphash : Bytes → UInt64} {first second third : Bloom} {item : Bytes}

theorem covers_iff : first.covers second = true ↔ first.bits &&& second.bits = second.bits :=
  beq_iff_eq

theorem mayContain_iff : first.mayContain siphash item = true ↔
    first.bits &&& itemMask siphash item = itemMask siphash item :=
  beq_iff_eq

theorem covers_refl (self : Bloom) : self.covers self = true :=
  covers_iff.mpr BitVec.and_self

theorem covers_trans (upper : first.covers second = true) (lower : second.covers third = true) :
    first.covers third = true := by
  rw [covers_iff] at upper lower ⊢
  rw [← lower, ← BitVec.and_assoc, upper]

theorem covers_add (self : Bloom) (item : Bytes) :
    (self.add siphash item).covers self = true := by
  rw [covers_iff, add]
  ext i
  simp only [BitVec.getElem_and, BitVec.getElem_or, Bool.and_eq_right_iff_imp, Bool.or_eq_true]
  exact Or.inl

theorem mayContain_add (self : Bloom) (item : Bytes) :
    (self.add siphash item).mayContain siphash item = true := by
  rw [mayContain_iff, add]
  ext i
  simp only [BitVec.getElem_and, BitVec.getElem_or, Bool.and_eq_right_iff_imp, Bool.or_eq_true]
  exact Or.inr

/-- A filter may contain whatever a filter that it covers may contain. -/
theorem mayContain_of_covers (upper : first.covers second = true)
    (within : second.mayContain siphash item = true) : first.mayContain siphash item = true := by
  rw [covers_iff] at upper
  rw [mayContain_iff] at within ⊢
  rw [← within, ← BitVec.and_assoc, upper]

end Bloom

theorem LocalBloom.covers_add {siphash : Bytes → UInt64} (self : LocalBloom) (item : Bytes)
    (flags : ProtocolFlags) :
    (self.add siphash item flags).advertised.covers self.advertised = true := by
  unfold LocalBloom.add
  split
  · exact self.advertised.covers_refl
  · exact self.advertised.covers_add item

theorem LocalBloom.mayContain_add {siphash : Bytes → UInt64} (self : LocalBloom) (item : Bytes)
    {flags : ProtocolFlags} (nonempty : flags ≠ .empty) :
    (self.add siphash item flags).advertised.mayContain siphash item = true := by
  unfold LocalBloom.add
  rw [if_neg nonempty]
  exact self.advertised.mayContain_add item

end Karyon.P2p
