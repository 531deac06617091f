/-
This file is a small library about streams of self-delimiting frames.

A message has a frame, and a stream is the frames of some messages one after
another. A reader sees a stream through a buffer that holds the beginning of it;
the buffer either holds the whole first frame or is a proper part of it
(`buffer_cases`). A stream that is cut somewhere is the stream of its complete
frames with a fragment of one frame behind it (`stream_cut`). Numbers inside
frames are little-endian or big-endian, and a field of a fixed width is an array.
-/

import Mathlib.Algebra.Group.Nat.Defs
import Mathlib.Data.List.Infix
import Mathlib.Data.Nat.Init

namespace Framing

/-! ### Streams and fragments -/

section Streams

variable {Byte Message : Type} (frame : Message → List Byte)

def stream (messages : List Message) : List Byte :=
  messages.flatMap frame

@[simp]
theorem stream_nil : stream frame [] = [] :=
  rfl

@[simp]
theorem stream_cons (message : Message) (messages : List Message) :
    stream frame (message :: messages) = frame message ++ stream frame messages :=
  rfl

/-- What can be left of a frame that was cut: nothing, or a beginning of the frame of a valid
message. -/
def Fragment (valid : Message → Prop) (tail : List Byte) : Prop :=
  tail = [] ∨ ∃ message, valid message ∧ tail <+: frame message ∧ tail ≠ frame message

variable {frame}

/-- A buffer at the beginning of a frame either holds the frame or is a proper part of it. -/
theorem buffer_cases {message : Message} {buffer future more : List Byte}
    (split : buffer ++ future = frame message ++ more) :
    (∃ rest, buffer = frame message ++ rest ∧ rest ++ future = more) ∨
      (buffer <+: frame message ∧ buffer ≠ frame message) := by
  rcases List.append_eq_append_iff.mp split with ⟨rest, whole, _⟩ | ⟨rest, whole, behind⟩
  · cases rest with
    | nil =>
      rw [List.append_nil] at whole
      refine Or.inl ⟨[], by rw [List.append_nil, whole], ?_⟩
      rw [whole] at split
      exact List.append_cancel_left split
    | cons byte rest =>
      refine Or.inr ⟨⟨_, whole.symm⟩, fun same => ?_⟩
      rw [same] at whole
      exact absurd (List.append_cancel_left ((List.append_nil _).trans whole)) nofun
  · exact Or.inl ⟨rest, whole, behind.symm⟩

theorem length_lt_of_part {part whole : List Byte} (within : part <+: whole)
    (proper : part ≠ whole) : part.length < whole.length := by
  refine Nat.lt_of_le_of_ne within.length_le fun same => proper ?_
  exact within.eq_of_length same

theorem stream_take_le (frame : Message → List Byte) (messages : List Message)
    {first second : Nat} (le : first ≤ second) :
    (stream frame (messages.take first)).length ≤ (stream frame (messages.take second)).length := by
  obtain ⟨more, rfl⟩ := Nat.exists_eq_add_of_le le
  rw [List.take_add, stream, stream, List.flatMap_append, List.length_append]
  exact Nat.le_add_right _ _

/-- A stream that is cut is the stream of its complete frames and a fragment. -/
theorem stream_cut {messages : List Message} {data : List Byte}
    (cut : data <+: stream frame messages) :
    ∃ complete tail, complete ≤ messages.length ∧
      data = stream frame (messages.take complete) ++ tail ∧
      Fragment frame (· ∈ messages) tail ∧
      (complete < messages.length → data.length <
        (stream frame (messages.take (complete + 1))).length) := by
  induction messages generalizing data with
  | nil =>
    have none := List.prefix_nil.mp cut
    exact ⟨0, [], Nat.le_refl 0, none, Or.inl rfl, fun more => absurd more (Nat.not_lt_zero 0)⟩
  | cons message rest inductionHypothesis =>
    obtain ⟨future, split⟩ := cut
    rcases buffer_cases split with ⟨behind, rfl, after⟩ | ⟨within, proper⟩
    · obtain ⟨complete, tail, bounded, rfl, fragment, maximal⟩ :=
        inductionHypothesis ⟨future, after⟩
      refine ⟨complete + 1, tail, Nat.succ_le_succ bounded, ?_, ?_, fun more => ?_⟩
      · simp
      · refine fragment.imp_right fun ⟨other, member, part⟩ => ?_
        exact ⟨other, List.mem_cons_of_mem _ member, part⟩
      · have shorter := maximal (Nat.lt_of_succ_lt_succ more)
        simp only [List.take_succ_cons, stream_cons, List.length_append] at shorter ⊢
        omega
    · refine ⟨0, data, Nat.zero_le _, rfl, Or.inr ⟨message, List.mem_cons_self, within, proper⟩,
        fun _ => ?_⟩
      have shorter := length_lt_of_part within proper
      simpa using shorter

end Streams

/-! ### Little-endian numbers -/

/-- The lowest bytes of a number, lowest first. -/
def littleEndian : Nat → Nat → List UInt8
  | 0, _ => []
  | width + 1, value => UInt8.ofNat (value % 256) :: littleEndian width (value / 256)

/-- The number whose bytes are given, lowest first. -/
def ofLittleEndian : List UInt8 → Nat
  | [] => 0
  | byte :: rest => byte.toNat + 256 * ofLittleEndian rest

@[simp]
theorem length_littleEndian (width value : Nat) : (littleEndian width value).length = width := by
  induction width generalizing value with
  | zero => rfl
  | succ width inductionHypothesis => rw [littleEndian, List.length_cons, inductionHypothesis]

/-- Reading a number back gives it up to the range of its width. -/
theorem ofLittleEndian_littleEndian (width value : Nat) :
    ofLittleEndian (littleEndian width value) = value % 256 ^ width := by
  induction width generalizing value with
  | zero => rw [littleEndian, ofLittleEndian, Nat.pow_zero, Nat.mod_one]
  | succ width inductionHypothesis =>
    have byte : (UInt8.ofNat (value % 256)).toNat = value % 256 := by
      rw [UInt8.toNat_ofNat']
      exact Nat.mod_mod_of_dvd _ (Nat.dvd_refl 256)
    rw [littleEndian, ofLittleEndian, inductionHypothesis, byte, Nat.pow_succ', Nat.mod_mul]

/-! ### Big-endian numbers -/

/-- The lowest bytes of a number, highest first. -/
def bigEndian (width value : Nat) : List UInt8 :=
  (littleEndian width value).reverse

variable (bytes : List UInt8)

/-- The number whose bytes are given, highest first. -/
def ofBigEndian : Nat :=
  ofLittleEndian bytes.reverse

@[simp]
theorem length_bigEndian (width value : Nat) : (bigEndian width value).length = width := by
  rw [bigEndian, List.length_reverse, length_littleEndian]

theorem ofBigEndian_bigEndian (width value : Nat) :
    ofBigEndian (bigEndian width value) = value % 256 ^ width := by
  rw [bigEndian, ofBigEndian, List.reverse_reverse, ofLittleEndian_littleEndian]

def u16ToBe (value : UInt16) : List UInt8 :=
  bigEndian 2 value.toNat

def u16FromBe : UInt16 :=
  .ofNat (ofBigEndian bytes)

def u32ToBe (value : UInt32) : List UInt8 :=
  bigEndian 4 value.toNat

def u32FromBe : UInt32 :=
  .ofNat (ofBigEndian bytes)

@[simp]
theorem u16FromBe_u16ToBe (value : UInt16) : u16FromBe (u16ToBe value) = value := by
  have small : value.toNat < 256 ^ 2 := value.toNat_lt
  rw [u16FromBe, u16ToBe, ofBigEndian_bigEndian, Nat.mod_eq_of_lt small, UInt16.ofNat_toNat]

@[simp]
theorem u32FromBe_u32ToBe (value : UInt32) : u32FromBe (u32ToBe value) = value := by
  have small : value.toNat < 256 ^ 4 := value.toNat_lt
  rw [u32FromBe, u32ToBe, ofBigEndian_bigEndian, Nat.mod_eq_of_lt small, UInt32.ofNat_toNat]

@[simp]
theorem length_u16ToBe (value : UInt16) : (u16ToBe value).length = 2 :=
  length_bigEndian 2 _

@[simp]
theorem length_u32ToBe (value : UInt32) : (u32ToBe value).length = 4 :=
  length_bigEndian 4 _

/-! ### Fields -/

theorem take_drop_field {Byte : Type} {front field rest : List Byte} {offset width : Nat}
    (before : front.length = offset) (own : field.length = width) :
    ((front ++ (field ++ rest)).drop offset).take width = field := by
  rw [List.drop_left' before, List.take_left' own]

/-- The first bytes as an array. -/
def fixed (width : Nat) (bytes : List UInt8) : Vector UInt8 width :=
  .ofFn fun index => bytes.getD index 0

theorem fixed_take (width : Nat) (bytes : List UInt8) :
    fixed width (bytes.take width) = fixed width bytes := by
  apply Vector.ext
  intro index bound
  rw [fixed, fixed, Vector.getElem_ofFn, Vector.getElem_ofFn, List.getD_eq_getElem?_getD,
    List.getD_eq_getElem?_getD, List.getElem?_take_of_lt bound]

@[simp]
theorem fixed_toList_append {width : Nat} (field : Vector UInt8 width) (rest : List UInt8) :
    fixed width (field.toList ++ rest) = field := by
  apply Vector.ext
  intro index bound
  have within : index < field.toList.length := by
    rw [Vector.length_toList]
    exact bound
  rw [fixed, Vector.getElem_ofFn, List.getD_eq_getElem?_getD, List.getElem?_append_left within,
    List.getElem?_eq_getElem within, Option.getD_some, Vector.getElem_toList]

end Framing
