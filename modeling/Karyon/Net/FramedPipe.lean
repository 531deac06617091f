/-
This file puts the two halves of a framed connection together: one direction of it, from the
`FramedWriter` of one end to the `FramedReader` of the other (`net/src/framed.rs`).

The writer writes a message in pieces of any size, the transport carries the bytes in order, and the
reader takes them in chunks of any size. What the reader has buffered, what is under way and what
the writer has left is the stream of the messages that were sent and not yet received
(`FramedPipe.Carries`).
-/

import Karyon.Net.Framed

namespace Karyon.Net

open Framing

variable {Message : Type}

/-- One direction of a framed connection: the bytes that the writer has left, those under way,
and those that the reader has buffered. -/
structure FramedPipe where
  writing : ByteBuffer
  transit : ByteBuffer
  reading : ByteBuffer

namespace FramedPipe

/-- A connection on which some bytes were written before the first message. -/
def new (transit : ByteBuffer) : FramedPipe :=
  { writing := [], transit, reading := [] }

variable (codec : Codec Message) (pipe : FramedPipe)

/-- The writer begins with a message, when it has written the last one. -/
def send (message : Message) : Option (Except Error FramedPipe) :=
  if pipe.writing = [] then
    some ((FramedWriter.encodeMsg ⟨codec, pipe.writing⟩ message).map fun writer =>
      { pipe with writing := writer.buffer })
  else none

/-- One write, while there are bytes left. -/
def write (count : Nat) : Option (Except Error FramedPipe) :=
  if pipe.writing = [] then none
  else
    some ((FramedWriter.write ⟨codec, pipe.writing⟩ count).map fun written =>
      { pipe with writing := written.2.buffer, transit := pipe.transit ++ written.1 })

/-- The reader decodes its buffer; nothing when more bytes are needed. -/
def decode : Option (Except Error Message × FramedPipe) :=
  (FramedReader.tryDecode ⟨codec, pipe.reading⟩).map fun decoded =>
    (decoded.1, { pipe with reading := decoded.2.buffer })

/-- One read of some of the bytes under way, when more are needed. -/
def read (count : Nat) : Option FramedPipe :=
  if (pipe.decode codec).isNone ∧ 0 < count ∧ count ≤ DEFAULT_READ_CHUNK_SIZE ∧
      count ≤ pipe.transit.length then
    some { pipe with
      transit := pipe.transit.drop count
      reading := pipe.reading ++ pipe.transit.take count }
  else none

/-- The messages that were sent and not received, in order. -/
def Carries (frame : Message → ByteBuffer) (pipe : FramedPipe) (messages : List Message) : Prop :=
  pipe.reading ++ (pipe.transit ++ pipe.writing) = stream frame messages

variable {codec} {frame : Message → ByteBuffer} {valid : Message → Prop} {pipe next : FramedPipe}
  {messages : List Message}

theorem carries_new : (FramedPipe.new []).Carries frame [] := rfl

/-- What a writer does with a message does not depend on the bytes under way. -/
theorem send_transit {message : Message} (sent : pipe.send codec message = some (.ok next)) :
    next.transit = pipe.transit ∧ ∀ transit,
      ({ pipe with transit } : FramedPipe).send codec message =
        some (.ok { next with transit }) := by
  unfold FramedPipe.send at sent ⊢
  obtain ⟨empty, sent⟩ := Option.ite_none_right_eq_some.mp sent
  obtain ⟨writer, encoded, rfl⟩ := Fallible.map_eq_ok.mp (Option.some.inj sent)
  refine ⟨rfl, fun transit => ?_⟩
  rw [if_pos empty, encoded]
  rfl

variable {count : Nat}

theorem write_eq_some (written : pipe.write codec count = some (.ok next)) :
    next.reading = pipe.reading ∧ (∃ bytes, next.transit = pipe.transit ++ bytes) ∧
      next.transit ++ next.writing = pipe.transit ++ pipe.writing := by
  unfold FramedPipe.write FramedWriter.write at written
  obtain ⟨_, written⟩ := Option.ite_none_left_eq_some.mp written
  split at written
  · cases written
  · cases written
    refine ⟨rfl, ⟨_, rfl⟩, ?_⟩
    rw [List.append_assoc, List.take_append_drop]

section

variable (carries : pipe.Carries frame messages)

include carries

theorem Carries.send {message : Message}
    (frames : codec.Frames frame valid fun _ => True) (isValid : valid message)
    (sent : pipe.send codec message = some (.ok next)) :
    next.Carries frame (messages ++ [message]) := by
  obtain ⟨empty, sent⟩ := Option.ite_none_right_eq_some.mp sent
  obtain ⟨n, encoded⟩ := frames.encode message isValid pipe.writing
  have written : FramedWriter.encodeMsg ⟨codec, pipe.writing⟩ message =
      .ok ⟨codec, pipe.writing ++ frame message⟩ := by
    simp only [FramedWriter.encodeMsg, encoded]
    rfl
  rw [written] at sent
  cases sent
  unfold Carries at carries ⊢
  rw [empty, List.append_nil] at carries
  rw [empty, List.nil_append, ← List.append_assoc, carries, stream, stream, List.flatMap_append,
    List.flatMap_singleton]

theorem Carries.write (written : pipe.write codec count = some (.ok next)) :
    next.Carries frame messages := by
  obtain ⟨reading, -, same⟩ := write_eq_some written
  unfold Carries
  rw [reading, same]
  exact carries

theorem Carries.read (taken : pipe.read codec count = some next) : next.Carries frame messages := by
  revert taken
  fun_cases FramedPipe.read <;> rintro ⟨⟩
  unfold Carries at carries ⊢
  rw [List.append_assoc, ← List.append_assoc (pipe.transit.take count), List.take_append_drop]
  exact carries

theorem Carries.decode {result : Except Error Message}
    (frames : codec.Frames frame valid fun _ => True)
    (allValid : ∀ message ∈ messages, valid message)
    (decoded : pipe.decode codec = some (result, next)) :
    ∃ message others, messages = message :: others ∧ result = .ok message ∧
      next.Carries frame others := by
  have split : pipe.reading ++ (pipe.transit ++ pipe.writing) = stream frame messages ++ [] := by
    rw [List.append_nil]
    exact carries
  obtain ⟨⟨itsResult, reader⟩, tried, same⟩ := Option.map_eq_some_iff.mp decoded
  rcases buffer_complete_or_fragment allValid (.inl rfl) split with
    ⟨message, others, rest, rfl, buffered, behind⟩ | ⟨fragment, -, -⟩
  · have isValid := allValid message List.mem_cons_self
    have whole : FramedReader.tryDecode ⟨codec, pipe.reading⟩ =
        some (.ok message, ⟨codec, rest⟩) := by
      rw [buffered]
      simp [FramedReader.tryDecode, frames.complete message rest isValid trivial]
    rw [whole] at tried
    cases tried
    cases same
    refine ⟨message, others, rfl, rfl, ?_⟩
    rw [List.append_nil] at behind
    exact behind
  · rw [FramedReader.tryDecode, frames.incomplete pipe.reading fragment trivial] at tried
    cases tried

end

end FramedPipe

end Karyon.Net
