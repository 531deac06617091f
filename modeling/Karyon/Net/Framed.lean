/-
This file models message framing over a byte stream: the codec interface of `net/src/codec/mod.rs`
and the two halves of `net/src/framed.rs`.

The transport hands out the bytes of the stream in chunks, one for each read, and reports the end of
the stream from then on. A call of `recv_msg` suspends only at a read, so a cancelled call is one
that is dropped in place of a read; what it had buffered stays in the reader.

For every codec that frames its messages in a self-delimiting way and may refuse buffers that are
too large, successive calls return exactly the messages of the stream if and only if no read makes
the buffer too large, where the buffer in front of a read is what is left of the stream after its
complete messages (`FramedReader.delivers_iff`). A codec whose answers stand when more bytes arrive
gives the same results for every chunking of any bytes (`FramedReader.results_chunks`).
-/

import Karyon.Lib.Fallible
import Karyon.Lib.Framing

namespace Karyon.Net

open Framing

abbrev ByteBuffer := List UInt8

/-! ### Errors -/

/-- The kinds of input and output errors that framing returns. -/
inductive ErrorKind where
  | connectionAborted
  | unexpectedEof
  | invalidData
  | other

/-- The errors of framing and of the proxy layer. -/
inductive Error where
  | io (kind : ErrorKind) (text : Option String)
  | bufferFull (text : String)
  | socks5 (text : String)

/-! ### Codecs -/

/-- Encodes messages to the end of a buffer and decodes the one at the beginning of a buffer. -/
structure Codec (Message : Type) where
  encode : Message → ByteBuffer → Except Error (Nat × ByteBuffer)
  decode : ByteBuffer → Except Error (Option (Nat × Message))

variable {Message : Type}

/-- Encode the messages to the end of a buffer, one after another. -/
def Codec.encodeOnto (codec : Codec Message) (messages : List Message) (dst : ByteBuffer) :
    Except Error ByteBuffer :=
  messages.foldlM (fun dst message => do
    let (_, dst) ← codec.encode message dst
    return dst) dst

/-- The encodings of the messages, one after another. -/
def Codec.encodeAll (codec : Codec Message) (messages : List Message) : Except Error ByteBuffer :=
  codec.encodeOnto messages []

theorem Codec.encodeOnto_cons (codec : Codec Message) (message : Message)
    (messages : List Message) (dst : ByteBuffer) :
    codec.encodeOnto (message :: messages) dst =
      (codec.encode message dst).bind fun result => codec.encodeOnto messages result.2 := by
  rw [encodeOnto, List.foldlM_cons]
  cases codec.encode message dst <;> rfl

variable {messages : List Message}

theorem Codec.encode_of_encodeOnto {codec : Codec Message} {dst encoded : ByteBuffer}
    (encodes : codec.encodeOnto messages dst = .ok encoded) :
    ∀ message ∈ messages, ∃ onto result, codec.encode message onto = .ok result := by
  induction messages generalizing dst with
  | nil => exact nofun
  | cons message rest inductionHypothesis =>
    rw [encodeOnto_cons] at encodes
    intro other member
    obtain ⟨result, first, encodes⟩ := Fallible.bind_eq_ok.mp encodes
    rcases List.mem_cons.mp member with rfl | later
    · exact ⟨dst, result, first⟩
    · exact inductionHypothesis encodes other later

/-! ### The writer -/

/-- Writing half of a framed connection. -/
structure FramedWriter (Message : Type) where
  encoder : Codec Message
  buffer : ByteBuffer

namespace FramedWriter

variable (writer : FramedWriter Message)

/-- Encode a message behind what is left in the buffer. -/
def encodeMsg (message : Message) : Except Error (FramedWriter Message) := do
  let (_, buffer) ← writer.encoder.encode message writer.buffer
  return { writer with buffer }

/-- One write gives the first bytes of the buffer to the stream. One that takes none is an error. -/
def write (count : Nat) : Except Error (ByteBuffer × FramedWriter Message) :=
  if count = 0 then .error (.io .unexpectedEof none)
  else .ok (writer.buffer.take count, { writer with buffer := writer.buffer.drop count })

end FramedWriter

/-! ### The reader -/

def DEFAULT_READ_CHUNK_SIZE : Nat := 64 * 1024

/-- What one read puts into its buffer. -/
structure Chunk where
  bytes : ByteBuffer
  nonempty : bytes ≠ []
  bounded : bytes.length ≤ DEFAULT_READ_CHUNK_SIZE

/-- How a read ends before the end of the stream: with a chunk, or with the call that waits for
it being dropped. -/
inductive Read where
  | chunk (data : Chunk)
  | cancelled

def chunksOf (reads : List Read) : List Chunk :=
  reads.filterMap fun
    | .chunk data => some data
    | .cancelled => none

def bytesOf (chunks : List Chunk) : ByteBuffer :=
  chunks.flatMap Chunk.bytes

def cancels (reads : List Read) : Nat :=
  reads.countP fun
    | .chunk _ => false
    | .cancelled => true

/-- Reading half of a framed connection. -/
structure FramedReader (Message : Type) where
  decoder : Codec Message
  buffer : ByteBuffer

/-- How a call of `recv_msg` ends. -/
inductive Outcome (Message : Type) where
  | returned (result : Except Error Message)
  | cancelled

namespace FramedReader

def new (codec : Codec Message) : FramedReader Message :=
  { decoder := codec, buffer := [] }

/-- Decode the buffered bytes; nothing when more are needed. -/
def tryDecode (reader : FramedReader Message) :
    Option (Except Error Message × FramedReader Message) :=
  match reader.decoder.decode reader.buffer with
  | .error error => some (.error error, reader)
  | .ok (some (n, item)) => some (.ok item, { reader with buffer := reader.buffer.drop n })
  | .ok none => none

def eofError (buffer : ByteBuffer) : Error :=
  if buffer.isEmpty then .io .connectionAborted none
  else .io .unexpectedEof (some "bytes remaining in buffer")

/-- Read until the buffered bytes decode. -/
def readLoop (reader : FramedReader Message) :
    List Read → Outcome Message × FramedReader Message × List Read
  | [] => (.returned (.error (eofError reader.buffer)), reader, [])
  | .cancelled :: rest => (.cancelled, reader, rest)
  | .chunk data :: rest =>
    let reader := { reader with buffer := reader.buffer ++ data.bytes }
    match reader.tryDecode with
    | some (result, reader) => (.returned result, reader, rest)
    | none => reader.readLoop rest

def recvMsg (reader : FramedReader Message) (reads : List Read) :
    Outcome Message × FramedReader Message × List Read :=
  match reader.tryDecode with
  | some (result, reader) => (.returned result, reader, reads)
  | none => reader.readLoop reads

/-- What the calls among some successive ones return that are not cancelled. -/
def results : Nat → FramedReader Message → List Read → List (Except Error Message)
  | 0, _, _ => []
  | calls + 1, reader, reads =>
    match reader.recvMsg reads with
    | (.returned result, reader, reads) => result :: results calls reader reads
    | (.cancelled, reader, reads) => results calls reader reads

/-! ### One read at a time -/

section

variable {reader : FramedReader Message} (needsMore : reader.tryDecode = none)

include needsMore

/-- A call whose buffer needs more bytes goes on after the read as if it began there. -/
theorem recvMsg_chunk (data : Chunk) (rest : List Read) :
    reader.recvMsg (.chunk data :: rest) =
      { reader with buffer := reader.buffer ++ data.bytes }.recvMsg rest := by
  rw [recvMsg, needsMore]
  rfl

theorem recvMsg_cancelled (rest : List Read) :
    reader.recvMsg (.cancelled :: rest) = (.cancelled, reader, rest) := by
  rw [recvMsg, needsMore]
  rfl

theorem recvMsg_nil :
    reader.recvMsg [] = (.returned (.error (eofError reader.buffer)), reader, []) := by
  rw [recvMsg, needsMore]
  rfl

end

theorem recvMsg_decoded {reader after : FramedReader Message} {result : Except Error Message}
    (decoded : reader.tryDecode = some (result, after)) (reads : List Read) :
    reader.recvMsg reads = (.returned result, after, reads) := by
  rw [recvMsg, decoded]

theorem recvMsg_cancels (reader : FramedReader Message) (reads : List Read) :
    (∃ result after rest, reader.recvMsg reads = (.returned result, after, rest) ∧
      cancels rest = cancels reads) ∨
    ∃ after rest, reader.recvMsg reads = (.cancelled, after, rest) ∧
      cancels rest + 1 = cancels reads := by
  induction reads generalizing reader with
  | nil =>
    cases decoded : reader.tryDecode with
    | some found => exact Or.inl ⟨_, _, _, recvMsg_decoded decoded [], rfl⟩
    | none => exact Or.inl ⟨_, _, _, recvMsg_nil decoded, rfl⟩
  | cons read rest inductionHypothesis =>
    cases decoded : reader.tryDecode with
    | some found => exact Or.inl ⟨_, _, _, recvMsg_decoded decoded _, rfl⟩
    | none =>
      cases read with
      | cancelled =>
        refine Or.inr ⟨_, _, recvMsg_cancelled decoded rest, ?_⟩
        rw [cancels, cancels, List.countP_cons_of_pos rfl]
      | chunk data =>
        have same : cancels (.chunk data :: rest) = cancels rest := by
          rw [cancels, cancels, List.countP_cons_of_neg Bool.false_ne_true]
        rw [recvMsg_chunk decoded, same]
        exact inductionHypothesis _

/-- All calls return but as many as reads are cancelled. -/
theorem calls_le_results (calls : Nat) (reader : FramedReader Message) (reads : List Read) :
    calls ≤ (results calls reader reads).length + cancels reads := by
  induction calls generalizing reader reads with
  | zero => exact Nat.zero_le _
  | succ calls inductionHypothesis =>
    rcases recvMsg_cancels reader reads with ⟨result, after, rest, call, same⟩ |
      ⟨after, rest, call, fewer⟩
    · have others := inductionHypothesis after rest
      rw [results, call]
      simp only [List.length_cons]
      omega
    · have others := inductionHypothesis after rest
      rw [results, call]
      simp only
      omega

/-! ### What is expected of the calls -/

/-- The result expected of a call: the messages in order, then the error at the end of the
stream. -/
def expected (messages : List Message) (failure : Error) (index : Nat) : Except Error Message :=
  match messages[index]? with
  | some message => .ok message
  | none => .error failure

/-- Successive calls return the messages in order and then the error. -/
def Delivers (reader : FramedReader Message) (reads : List Read) (messages : List Message)
    (failure : Error) : Prop :=
  ∀ calls index result, (results calls reader reads)[index]? = some result →
    result = expected messages failure index

variable {reader after : FramedReader Message} {reads rest : List Read} {messages : List Message}
  {failure : Error}

theorem delivers_congr {other : FramedReader Message} {otherReads : List Read}
    (same : reader.recvMsg reads = other.recvMsg otherReads) :
    Delivers reader reads messages failure ↔ Delivers other otherReads messages failure := by
  have results_eq (calls : Nat) : results calls reader reads = results calls other otherReads := by
    cases calls with
    | zero => rfl
    | succ calls => rw [results, results, same]
  simp only [Delivers, results_eq]

theorem delivers_cancelled (call : reader.recvMsg reads = (.cancelled, after, rest)) :
    Delivers reader reads messages failure ↔ Delivers after rest messages failure := by
  constructor
  · intro delivers calls index result found
    refine delivers (calls + 1) index result ?_
    rw [results, call]
    exact found
  · intro delivers calls index result found
    cases calls with
    | zero => cases found
    | succ calls =>
      rw [results, call] at found
      exact delivers calls index result found

theorem delivers_message {message : Message}
    (call : reader.recvMsg reads = (.returned (.ok message), after, rest)) :
    Delivers reader reads (message :: messages) failure ↔
      Delivers after rest messages failure := by
  constructor
  · intro delivers calls index result found
    refine delivers (calls + 1) (index + 1) result ?_
    rw [results, call]
    exact found
  · intro delivers calls index result found
    cases calls with
    | zero => cases found
    | succ calls =>
      rw [results, call] at found
      cases index with
      | zero =>
        cases found
        rfl
      | succ index => exact delivers calls index result found

theorem delivers_eof (call : reader.recvMsg reads = (.returned (.error failure), reader, reads)) :
    Delivers reader reads [] failure := by
  intro calls
  induction calls with
  | zero =>
    intro index result found
    cases found
  | succ calls inductionHypothesis =>
    intro index result found
    rw [results, call] at found
    cases index with
    | zero =>
      cases found
      rfl
    | succ index => exact inductionHypothesis index result found

theorem not_delivers {error : Error}
    (call : reader.recvMsg reads = (.returned (.error error), after, rest))
    (different : error ≠ failure) : ¬ Delivers reader reads messages failure := by
  intro delivers
  have first := delivers 1 0 (.error error) (by rw [results, call]; rfl)
  revert first
  fun_cases expected <;> rintro ⟨⟩
  exact different rfl

end FramedReader

/-! ### Codecs with self-delimiting frames -/

/-- A codec that puts each valid message into a frame, finds the frame again in front of
anything, waits for the rest of a fragment, and refuses the buffers that are too large. -/
structure Codec.Frames (codec : Codec Message) (frame : Message → ByteBuffer)
    (valid : Message → Prop) (admissible : Nat → Prop) : Prop where
  encode : ∀ message, valid message → ∀ dst, ∃ n,
    codec.encode message dst = .ok (n, dst ++ frame message)
  complete : ∀ message rest, valid message → admissible (frame message ++ rest).length →
    codec.decode (frame message ++ rest) = .ok (some ((frame message).length, message))
  incomplete : ∀ tail, Fragment frame valid tail → admissible tail.length →
    codec.decode tail = .ok none
  refused : ∀ buffer : ByteBuffer, ¬ admissible buffer.length →
    ∃ text, codec.decode buffer = .error (.bufferFull text)
  smaller : ∀ size larger, size ≤ larger → admissible larger → admissible size

section Frames

variable {codec : Codec Message} {frame : Message → ByteBuffer} {valid : Message → Prop}
  {admissible : Nat → Prop}

section

variable (frames : codec.Frames frame valid admissible)
  (allValid : ∀ message ∈ messages, valid message)

include frames allValid

theorem Codec.Frames.encodeOnto (dst : ByteBuffer) :
    codec.encodeOnto messages dst = .ok (dst ++ stream frame messages) := by
  induction messages generalizing dst with
  | nil =>
    rw [stream_nil, List.append_nil]
    rfl
  | cons message rest inductionHypothesis =>
    obtain ⟨n, encoded⟩ := frames.encode message (allValid message List.mem_cons_self) dst
    rw [Codec.encodeOnto_cons, encoded, stream_cons, ← List.append_assoc]
    exact inductionHypothesis
      (fun other member => allValid other (List.mem_cons_of_mem _ member)) (dst ++ frame message)

theorem Codec.Frames.encodeAll : codec.encodeAll messages = .ok (stream frame messages) :=
  frames.encodeOnto allValid []

end

/-- Every read leaves the buffer admissible. The buffer after a read is what the stream up to
there has behind some of its complete messages. -/
def Fits (frame : Message → ByteBuffer) (admissible : Nat → Prop) (buffered : Nat)
    (messages : List Message) (chunks : List Chunk) : Prop :=
  ∀ before chunk after, chunks = before ++ chunk :: after →
    ∃ count ≤ messages.length,
      (stream frame (messages.take count)).length ≤ buffered + (bytesOf before).length ∧
      admissible (buffered + (bytesOf before).length + chunk.bytes.length -
        (stream frame (messages.take count)).length)

theorem fits_nil (buffered : Nat) (messages : List Message) :
    Fits frame admissible buffered messages [] := by
  intro before chunk after split
  simp at split

/-- The first read is in front of a fragment; the other reads see a longer buffer. -/
theorem fits_cons {buffered : Nat} {data : Chunk} {chunks : List Chunk}
    (incomplete : ∀ count, count ≤ messages.length →
      (stream frame (messages.take count)).length ≤ buffered → count = 0) :
    Fits frame admissible buffered messages (data :: chunks) ↔
      admissible (buffered + data.bytes.length) ∧
        Fits frame admissible (buffered + data.bytes.length) messages chunks := by
  constructor
  · intro fits
    refine ⟨?_, fun before chunk after split => ?_⟩
    · obtain ⟨count, bounded, behind, admitted⟩ := fits [] data chunks rfl
      have none := incomplete count bounded behind
      subst none
      simpa [bytesOf] using admitted
    · obtain ⟨count, bounded, behind, admitted⟩ := fits (data :: before) chunk after
        (by rw [split]; rfl)
      refine ⟨count, bounded, ?_⟩
      simpa [bytesOf, Nat.add_assoc] using And.intro behind admitted
  · rintro ⟨admitted, fits⟩ before chunk after split
    cases before with
    | nil =>
      cases split
      exact ⟨0, Nat.zero_le _, Nat.zero_le _, by simpa [bytesOf] using admitted⟩
    | cons first before =>
      cases split
      obtain ⟨count, bounded, behind, admitted⟩ := fits before chunk after rfl
      refine ⟨count, bounded, ?_⟩
      simpa [bytesOf, Nat.add_assoc] using And.intro behind admitted

/-- A message that is buffered as a whole is out of the way of the reads. -/
theorem fits_message (frames : codec.Frames frame valid admissible) {buffered : Nat}
    {message : Message} {chunks : List Chunk} :
    Fits frame admissible ((frame message).length + buffered) (message :: messages) chunks ↔
      Fits frame admissible buffered messages chunks := by
  constructor
  · intro fits before chunk after split
    obtain ⟨count, bounded, behind, admitted⟩ := fits before chunk after split
    cases count with
    | zero =>
      refine ⟨0, Nat.zero_le _, Nat.zero_le _, frames.smaller _ _ ?_ admitted⟩
      simp only [List.take_zero, stream_nil, List.length_nil, Nat.sub_zero]
      omega
    | succ count =>
      refine ⟨count, Nat.le_of_succ_le_succ bounded, ?_, frames.smaller _ _ ?_ admitted⟩
      · simp only [List.take_succ_cons, stream_cons, List.length_append] at behind
        omega
      · simp only [List.take_succ_cons, stream_cons, List.length_append]
        omega
  · intro fits before chunk after split
    obtain ⟨count, bounded, behind, admitted⟩ := fits before chunk after split
    refine ⟨count + 1, Nat.succ_le_succ bounded, ?_, frames.smaller _ _ ?_ admitted⟩
    · simp only [List.take_succ_cons, stream_cons, List.length_append]
      omega
    · simp only [List.take_succ_cons, stream_cons, List.length_append]
      omega

/-- A reader's buffer holds the next message of the stream, or it is a fragment. -/
theorem buffer_complete_or_fragment {buffer bytes tail : ByteBuffer}
    (allValid : ∀ message ∈ messages, valid message) (fragment : Fragment frame valid tail)
    (split : buffer ++ bytes = stream frame messages ++ tail) :
    (∃ message others rest, messages = message :: others ∧ buffer = frame message ++ rest ∧
      rest ++ bytes = stream frame others ++ tail) ∨
    (Fragment frame valid buffer ∧
      (∀ count, count ≤ messages.length →
        (stream frame (messages.take count)).length ≤ buffer.length → count = 0) ∧
      (bytes = [] → messages = [] ∧ buffer = tail)) := by
  cases messages with
  | nil =>
    have whole : buffer ++ bytes = tail := split
    refine Or.inr ⟨?_, fun count bounded _ => Nat.le_zero.mp bounded, fun none => ⟨rfl, ?_⟩⟩
    · rcases fragment with empty | ⟨message, isValid, within, proper⟩
      · rw [empty] at whole
        exact Or.inl (List.append_eq_nil_iff.mp whole).1
      · have shorter := length_lt_of_part within proper
        have part : buffer <+: tail := ⟨bytes, whole⟩
        refine Or.inr ⟨message, isValid, part.trans within, fun same => ?_⟩
        have bounded := part.length_le
        rw [same] at bounded
        omega
    · rw [← whole, none, List.append_nil]
  | cons message others =>
    rw [stream_cons, List.append_assoc] at split
    rcases buffer_cases split with ⟨rest, rfl, behind⟩ | ⟨within, proper⟩
    · exact Or.inl ⟨message, others, rest, rfl, rfl, behind⟩
    · have shorter := length_lt_of_part within proper
      refine Or.inr ⟨Or.inr ⟨message, allValid message List.mem_cons_self, within, proper⟩,
        fun count _ behind => ?_, fun none => ?_⟩
      · cases count with
        | zero => rfl
        | succ count =>
          simp only [List.take_succ_cons, stream_cons, List.length_append] at behind
          omega
      · have sizes := congrArg List.length split
        simp only [none, List.length_append, List.length_nil] at sizes
        omega

/-- A reader in the middle of a stream delivers the remaining messages and then the error at
the end if and only if every read leaves the buffer admissible. -/
theorem FramedReader.delivers_iff (frames : codec.Frames frame valid admissible)
    {buffer tail : ByteBuffer} {reads : List Read}
    (allValid : ∀ message ∈ messages, valid message) (fragment : Fragment frame valid tail)
    (split : buffer ++ bytesOf (chunksOf reads) = stream frame messages ++ tail)
    (admitted : admissible buffer.length) :
    Delivers ⟨codec, buffer⟩ reads messages (eofError tail) ↔
      Fits frame admissible buffer.length messages (chunksOf reads) := by
  induction size : messages.length + reads.length using Nat.strong_induction_on
    generalizing buffer reads messages with
  | h size inductionHypothesis =>
  rcases buffer_complete_or_fragment allValid fragment split with
    ⟨message, others, rest, rfl, rfl, behind⟩ | ⟨isFragment, incomplete, atEnd⟩
  · have isValid := allValid message List.mem_cons_self
    have decoded : tryDecode ⟨codec, frame message ++ rest⟩ =
        some (.ok message, ⟨codec, rest⟩) := by
      simp [tryDecode, frames.complete message rest isValid admitted]
    have smaller : admissible rest.length := frames.smaller _ _ (by simp) admitted
    rw [delivers_message (recvMsg_decoded decoded reads), List.length_append, fits_message frames]
    exact inductionHypothesis _ (by simp only [List.length_cons] at size; omega)
      (fun other member => allValid other (List.mem_cons_of_mem _ member)) behind smaller rfl
  · have needsMore : tryDecode ⟨codec, buffer⟩ = none := by
      simp [tryDecode, frames.incomplete buffer isFragment admitted]
    cases reads with
    | nil =>
      obtain ⟨rfl, rfl⟩ := atEnd rfl
      exact iff_of_true (delivers_eof (recvMsg_nil needsMore)) (fits_nil _ _)
    | cons read rest =>
      cases read with
      | cancelled =>
        rw [delivers_cancelled (recvMsg_cancelled needsMore rest)]
        exact inductionHypothesis _ (by simp only [List.length_cons] at size; omega) allValid split
          admitted rfl
      | chunk data =>
        have step := recvMsg_chunk needsMore data rest
        rw [delivers_congr step]
        show _ ↔ Fits frame admissible buffer.length messages (data :: chunksOf rest)
        rw [fits_cons incomplete, ← List.length_append]
        by_cases fits : admissible (buffer ++ data.bytes).length
        · rw [inductionHypothesis _ (by simp only [List.length_cons] at size; omega) allValid
            ((List.append_assoc _ _ _).trans split) fits rfl]
          exact (and_iff_right fits).symm
        · obtain ⟨text, refusal⟩ := frames.refused _ fits
          refine iff_of_false ?_ fun both => fits both.1
          have decoded : tryDecode ⟨codec, buffer ++ data.bytes⟩ =
              some (.error (.bufferFull text), ⟨codec, buffer ++ data.bytes⟩) := by
            simp [tryDecode, refusal]
          refine not_delivers (recvMsg_decoded decoded rest) fun same => ?_
          unfold eofError at same
          split at same
          · cases same
          · cases same

end Frames

/-! ### Codecs whose answers stand -/

/-- A codec that keeps to its answer when there are more bytes, and that takes no more bytes than
there are. -/
structure Codec.Stands (codec : Codec Message) : Prop where
  answer : ∀ buffer more, codec.decode buffer ≠ .ok none →
    codec.decode (buffer ++ more) = codec.decode buffer
  within : ∀ buffer n message, codec.decode buffer = .ok (some (n, message)) → n ≤ buffer.length

/-- What the calls return once all bytes are there. -/
def Codec.answers (codec : Codec Message) : Nat → ByteBuffer → List (Except Error Message)
  | 0, _ => []
  | calls + 1, bytes =>
    match codec.decode bytes with
    | .error error => .error error :: codec.answers calls bytes
    | .ok (some (n, message)) => .ok message :: codec.answers calls (bytes.drop n)
    | .ok none => .error (FramedReader.eofError bytes) :: codec.answers calls bytes

/-- The calls return what they would if all bytes were there, in whatever chunks they arrive. -/
theorem FramedReader.results_chunks {codec : Codec Message} (stands : codec.Stands) (calls : Nat)
    (buffer : ByteBuffer) (chunks : List Chunk) :
    results calls ⟨codec, buffer⟩ (chunks.map .chunk) =
      codec.answers calls (buffer ++ bytesOf chunks) := by
  induction calls generalizing buffer chunks with
  | zero => rfl
  | succ calls inductionHypothesis =>
    induction chunks generalizing buffer with
    | nil =>
      have later (left : ByteBuffer) : results calls ⟨codec, left⟩ [] = codec.answers calls left :=
        (inductionHypothesis left []).trans (by rw [bytesOf]; simp)
      rw [bytesOf, List.flatMap_nil, List.append_nil, results, Codec.answers]
      cases decoded : codec.decode buffer with
      | error error =>
        rw [recvMsg_decoded (by rw [tryDecode, decoded])]
        exact congrArg _ (later buffer)
      | ok found =>
        cases found with
        | none =>
          rw [List.map_nil, recvMsg_nil (by rw [tryDecode, decoded])]
          exact congrArg _ (later buffer)
        | some found =>
          rw [recvMsg_decoded (by rw [tryDecode, decoded])]
          exact congrArg _ (later _)
    | cons data rest later =>
      cases decoded : codec.decode buffer with
      | error error =>
        have whole := stands.answer buffer (bytesOf (data :: rest)) (by rw [decoded]; nofun)
        rw [results, recvMsg_decoded (by rw [tryDecode, decoded]), Codec.answers, whole, decoded]
        exact congrArg _ (inductionHypothesis buffer (data :: rest))
      | ok found =>
        cases found with
        | none =>
          have waits : tryDecode ⟨codec, buffer⟩ = none := by rw [tryDecode, decoded]
          rw [results, List.map_cons, recvMsg_chunk waits, ← results, later, List.append_assoc]
          rfl
        | some found =>
          have whole := stands.answer buffer (bytesOf (data :: rest)) (by rw [decoded]; nofun)
          have within := stands.within buffer _ _ decoded
          rw [results, recvMsg_decoded (by rw [tryDecode, decoded]), Codec.answers, whole, decoded]
          dsimp only
          rw [List.drop_append_of_le_length within]
          exact congrArg _ (inductionHypothesis _ (data :: rest))

end Karyon.Net
