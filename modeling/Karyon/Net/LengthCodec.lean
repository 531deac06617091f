/-
This file models the length-prefixed codec of `net/src/codec/length_codec.rs` and
proves that it frames byte strings correctly over any chunking of the stream.

A frame is the length of the payload as a little-endian number of four bytes and
then the payload. The size limit is checked against the length of one frame, never
against the size of the buffer, so pipelined frames cannot exceed it.
-/

import Karyon.Net.Framed

namespace Karyon.Net

open Framing

def MSG_LENGTH_SIZE : Nat := 4

def MAX_BUFFER_SIZE : Nat := 4 * 1024 * 1024

structure LengthCodec where
  maxSize : Nat

namespace LengthCodec

protected def default : LengthCodec :=
  { maxSize := MAX_BUFFER_SIZE }

variable (codec : LengthCodec)

def encode (src : ByteBuffer) (dst : ByteBuffer) : Except Error (Nat × ByteBuffer) :=
  if src.length > codec.maxSize then
    .error (.bufferFull s!"Buffer size {src.length} exceeds maximum {codec.maxSize}")
  else
    let dst := dst ++ littleEndian MSG_LENGTH_SIZE src.length
    let dst := dst ++ src
    .ok (dst.length, dst)

def decode (src : ByteBuffer) : Except Error (Option (Nat × ByteBuffer)) :=
  if src.length < MSG_LENGTH_SIZE then
    .ok none
  else
    let length := ofLittleEndian (src.take MSG_LENGTH_SIZE)
    if length > codec.maxSize then
      .error (.bufferFull s!"Frame length {length} exceeds maximum {codec.maxSize}")
    else if src.length - MSG_LENGTH_SIZE ≥ length then
      .ok (some (length + MSG_LENGTH_SIZE, (src.drop MSG_LENGTH_SIZE).take length))
    else
      .ok none

def toCodec : Codec ByteBuffer where
  encode := codec.encode
  decode := codec.decode

def frame (payload : ByteBuffer) : ByteBuffer :=
  littleEndian MSG_LENGTH_SIZE payload.length ++ payload

theorem length_frame (payload : ByteBuffer) :
    (frame payload).length = MSG_LENGTH_SIZE + payload.length := by
  rw [frame, List.length_append, length_littleEndian]

/-- A buffer that begins with the length of a payload is decoded by how many bytes it has. -/
theorem decode_of_length {codec : LengthCodec} (representable : codec.maxSize < 2 ^ 32)
    {size : Nat} (admissible : size ≤ codec.maxSize) (rest : ByteBuffer) :
    codec.decode (littleEndian MSG_LENGTH_SIZE size ++ rest) =
      if size ≤ rest.length then .ok (some (MSG_LENGTH_SIZE + size, rest.take size))
      else .ok none := by
  have length : ofLittleEndian ((littleEndian MSG_LENGTH_SIZE size ++ rest).take
      MSG_LENGTH_SIZE) = size := by
    rw [List.take_append_of_le_length (length_littleEndian _ _).ge,
      List.take_of_length_le (length_littleEndian _ _).le, ofLittleEndian_littleEndian]
    exact Nat.mod_eq_of_lt (Nat.lt_of_le_of_lt admissible representable)
  have payload : (littleEndian MSG_LENGTH_SIZE size ++ rest).drop MSG_LENGTH_SIZE = rest :=
    List.drop_left' (length_littleEndian _ _)
  unfold decode
  rw [length, payload, if_neg, if_neg (Nat.not_lt.mpr admissible), List.length_append,
    length_littleEndian, Nat.add_sub_cancel_left, Nat.add_comm]
  rw [List.length_append, length_littleEndian]
  exact Nat.not_lt.mpr (Nat.le_add_right _ _)

/-- The codec frames the payloads within its limit, and admits every buffer. -/
theorem frames (representable : codec.maxSize < 2 ^ 32) :
    codec.toCodec.Frames frame (fun payload => payload.length ≤ codec.maxSize)
      fun _ => True where
  encode payload admissible dst := by
    refine ⟨(dst ++ frame payload).length, ?_⟩
    show codec.encode payload dst = _
    rw [encode, if_neg (Nat.not_lt.mpr admissible), frame, ← List.append_assoc]
  complete payload rest admissible _ := by
    have decoded := decode_of_length representable admissible (payload ++ rest)
    rw [if_pos (by simp), List.take_left' rfl] at decoded
    rw [length_frame, frame, List.append_assoc]
    exact decoded
  incomplete tail fragment _ := by
    rcases fragment with rfl | ⟨payload, admissible, within, proper⟩
    · rfl
    show codec.decode tail = _
    by_cases short : tail.length < MSG_LENGTH_SIZE
    · rw [decode, if_pos short]
    · have head : littleEndian MSG_LENGTH_SIZE payload.length <+: tail := by
        refine List.prefix_of_prefix_length_le (List.prefix_append _ payload) within ?_
        rw [length_littleEndian]
        exact Nat.not_lt.mp short
      obtain ⟨rest, rfl⟩ := head
      have shorter := length_lt_of_part within proper
      rw [length_frame, List.length_append, length_littleEndian] at shorter
      rw [decode_of_length representable admissible, if_neg]
      omega
  refused buffer inadmissible := absurd trivial inadmissible
  smaller _ _ _ _ := trivial

end LengthCodec

/-- Length-prefixed framing over any chunking. The payloads within the limit encode to some
bytes. Whenever the stream consists of these bytes, or is cut anywhere within them, and
arrives in whatever chunks, with calls cancelled at whatever reads, the calls that are not
cancelled return exactly the payloads whose frames are complete, in order, and from then on an
error: that the connection was aborted when no byte is left over, and that bytes remain
otherwise. As many calls are cancelled as reads are. -/
theorem lengthCodec_framing (codec : LengthCodec) (representable : codec.maxSize ≤ 2 ^ 32 - 1)
    (payloads : List ByteBuffer)
    (admissible : ∀ payload ∈ payloads, payload.length ≤ codec.maxSize) :
    ∃ encoded, codec.toCodec.encodeAll payloads = .ok encoded ∧
      ∀ reads, bytesOf (chunksOf reads) <+: encoded →
        ∃ complete whole, complete ≤ payloads.length ∧
          codec.toCodec.encodeAll (payloads.take complete) = .ok whole ∧
          whole <+: bytesOf (chunksOf reads) ∧
          (bytesOf (chunksOf reads) = encoded → complete = payloads.length) ∧
          (∀ more bytes, complete < more → more ≤ payloads.length →
            codec.toCodec.encodeAll (payloads.take more) = .ok bytes →
              ¬ bytes <+: bytesOf (chunksOf reads)) ∧
          (∀ calls, calls ≤
            (FramedReader.results calls (.new codec.toCodec) reads).length + cancels reads) ∧
          FramedReader.Delivers (.new codec.toCodec) reads (payloads.take complete)
            (if bytesOf (chunksOf reads) = whole then .io .connectionAborted none
              else .io .unexpectedEof (some "bytes remaining in buffer")) := by
  have frames := codec.frames (by omega)
  have someValid (count : Nat) : ∀ payload ∈ payloads.take count,
      payload.length ≤ codec.maxSize :=
    fun payload member => admissible payload (List.mem_of_mem_take member)
  refine ⟨_, frames.encodeAll admissible, fun reads cut => ?_⟩
  obtain ⟨complete, tail, bounded, bytes, fragment, maximal⟩ := stream_cut cut
  refine ⟨complete, _, bounded, frames.encodeAll (someValid complete), ⟨tail, bytes.symm⟩,
    fun all => ?_, fun more others beyond within encoded => ?_,
    fun calls => FramedReader.calls_le_results calls _ reads, ?_⟩
  · by_contra different
    have fewer : complete + 1 ≤ payloads.length := Nat.lt_of_le_of_ne bounded different
    have shorter := maximal fewer
    have longest := stream_take_le LengthCodec.frame payloads fewer
    rw [List.take_length, ← all] at longest
    omega
  · rw [frames.encodeAll (someValid more)] at encoded
    cases encoded
    intro inside
    have next : complete + 1 ≤ more := beyond
    have shorter := maximal (Nat.lt_of_lt_of_le beyond within)
    have longer := stream_take_le LengthCodec.frame payloads next
    have fits := inside.length_le
    omega
  · have failure : FramedReader.eofError tail =
        if bytesOf (chunksOf reads) = stream LengthCodec.frame (payloads.take complete)
        then .io .connectionAborted none
        else .io .unexpectedEof (some "bytes remaining in buffer") := by
      rw [bytes, FramedReader.eofError]
      simp only [List.append_right_eq_self, List.isEmpty_iff]
    rw [← failure]
    refine (FramedReader.delivers_iff frames (someValid complete) ?_
      ((List.nil_append _).trans bytes) trivial).mpr
      fun before chunk after split => ⟨0, Nat.zero_le _, Nat.zero_le _, trivial⟩
    exact fragment.imp_right fun ⟨payload, member, part⟩ =>
      ⟨payload, admissible payload member, part⟩

/-- Two payloads in three reads with a cancelled call in between. -/
theorem lengthCodec_framing_pipelined :
    ∃ encoded, (LengthCodec.toCodec ⟨2⟩).encodeAll [[7], [8, 9]] = .ok encoded ∧
      ∃ reads, bytesOf (chunksOf reads) = encoded ∧ cancels reads = 1 ∧
        FramedReader.Delivers (.new (LengthCodec.toCodec ⟨2⟩)) reads [[7], [8, 9]]
          (.io .connectionAborted none) := by
  obtain ⟨encoded, encodes, framing⟩ := lengthCodec_framing ⟨2⟩ (by decide) [[7], [8, 9]]
    (by decide)
  let reads : List Read := [.chunk ⟨[1, 0], by decide, by decide⟩, .cancelled,
    .chunk ⟨[0, 0, 7, 2, 0], by decide, by decide⟩, .chunk ⟨[0, 0, 8, 9], by decide, by decide⟩]
  have whole : bytesOf (chunksOf reads) = encoded := by
    cases encodes
    rfl
  obtain ⟨complete, bytes, _, part, _, all, _, _, delivers⟩ := framing reads
    (by rw [whole])
  rw [all whole, List.take_length, encodes] at part
  cases part
  rw [all whole, if_pos whole] at delivers
  exact ⟨encoded, encodes, reads, whole, rfl, delivers⟩

end Karyon.Net
