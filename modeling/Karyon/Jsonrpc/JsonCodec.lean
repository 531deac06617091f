/-
This file models the JSON codec of `jsonrpc/src/codec.rs` and proves when it reads back a pipeline
of JSON objects.

The codec writes each value as its JSON text, with nothing in between, and reads values with the
streaming deserializer of `serde_json`, which is a parameter here (`SerdeJson.Lawful`). Encoding
checks the size limit against one value. Decoding checks it against the whole buffer, which may hold
the next values already: the objects come back if and only if no read makes the buffer larger than
the limit (`jsonCodec_framing_iff`). On a WebSocket only decoding checks the limit, so a value comes
back, on both wire types alike, if and only if its text is within the limit
(`jsonCodec_wireTypes_iff`).
-/

import Karyon.Net.Framed

namespace Karyon.Jsonrpc

open Framing Net

/-! ### The codec -/

/-- What the streaming deserializer returns next: a value with the offset behind it, an error at
the end of the input, another error, or nothing. -/
inductive Streamed (Value : Type) where
  | item (value : Value) (byteOffset : Nat)
  | eof
  | failed (text : String)
  | finished

/-- The functions of `serde_json` the codec uses. -/
structure SerdeJson (Value : Type) where
  toString : Value → Except String ByteBuffer
  next : ByteBuffer → Streamed Value

variable {Value : Type}

/-- The text of an object is found in front of anything, and a beginning of it ends too early. -/
structure SerdeJson.Lawful (serde : SerdeJson Value) (isObject : Value → Prop) : Prop where
  complete : ∀ value text, isObject value → serde.toString value = .ok text →
    ∀ rest, serde.next (text ++ rest) = .item value text.length
  incomplete : ∀ value text, isObject value → serde.toString value = .ok text →
    ∀ part, part <+: text → part ≠ text → part ≠ [] → serde.next part = .eof
  empty : serde.next [] = .finished

/-- JSON codec with a maximal payload size. -/
structure JsonCodec where
  maxSize : Nat

namespace JsonCodec

variable (codec : JsonCodec) (serde : SerdeJson Value)

def encode (src : Value) (dst : ByteBuffer) : Except Error (Nat × ByteBuffer) :=
  match serde.toString src with
  | .error text => .error (.io .other (some text))
  | .ok buf =>
    if buf.length > codec.maxSize then
      .error (.bufferFull s!"Buffer size {buf.length} exceeds maximum {codec.maxSize}")
    else .ok (buf.length, dst ++ buf)

/-- The text message of a value on a WebSocket, whose size is not checked. -/
def encodeWs (_codec : JsonCodec) (serde : SerdeJson Value) (src : Value) :
    Except Error (Nat × ByteBuffer) :=
  match serde.toString src with
  | .error text => .error (.io .other (some text))
  | .ok json => .ok (json.length, json)

def decode (src : ByteBuffer) : Except Error (Option (Nat × Value)) :=
  if src.length > codec.maxSize then
    .error (.bufferFull s!"Buffer size {src.length} exceeds maximum {codec.maxSize}")
  else
    match serde.next src with
    | .item item byteOffset => .ok (some (byteOffset, item))
    | .eof => .ok none
    | .failed text => .error (.io .other (some text))
    | .finished => .ok none

def toCodec : Codec Value where
  encode := codec.encode serde
  decode := codec.decode serde

/-! ### The frames of the codec -/

def frame (value : Value) : ByteBuffer :=
  match serde.toString value with
  | .ok text => text
  | .error _ => []

/-- An object whose text is within the limit. -/
def Valid (isObject : Value → Prop) (value : Value) : Prop :=
  isObject value ∧ serde.toString value = .ok (frame serde value) ∧
    (frame serde value).length ≤ codec.maxSize

variable {serde : SerdeJson Value}

theorem toString_of_encode {codec : JsonCodec} {value : Value} {dst : ByteBuffer}
    {result : Nat × ByteBuffer} (encoded : codec.encode serde value dst = .ok result) :
    serde.toString value = .ok (frame serde value) ∧
      (frame serde value).length ≤ codec.maxSize := by
  unfold encode at encoded
  unfold frame
  cases text : serde.toString value with
  | error error =>
    rw [text] at encoded
    cases encoded
  | ok buf =>
    rw [text] at encoded
    simp only at encoded
    split at encoded
    · cases encoded
    · rename_i small
      exact ⟨rfl, Nat.not_lt.mp small⟩

/-- The codec frames the objects within its limit, and refuses the buffers beyond it. -/
theorem frames {isObject : Value → Prop} (lawful : serde.Lawful isObject) :
    (codec.toCodec serde).Frames (frame serde) (codec.Valid serde isObject)
      (· ≤ codec.maxSize) where
  encode value valid dst := by
    refine ⟨(frame serde value).length, ?_⟩
    show codec.encode serde value dst = _
    rw [encode, valid.2.1]
    exact if_neg (Nat.not_lt.mpr valid.2.2)
  complete value rest valid admissible := by
    show codec.decode serde _ = _
    rw [decode, if_neg (Nat.not_lt.mpr admissible), lawful.complete value _ valid.1 valid.2.1]
  incomplete tail fragment admissible := by
    show codec.decode serde tail = _
    rw [decode, if_neg (Nat.not_lt.mpr admissible)]
    by_cases empty : tail = []
    · rw [empty, lawful.empty]
    · rcases fragment with none | ⟨value, valid, within, proper⟩
      · exact absurd none empty
      · rw [lawful.incomplete value _ valid.1 valid.2.1 tail within proper empty]
  refused buffer inadmissible := by
    have refusal : codec.decode serde buffer = .error (.bufferFull
        s!"Buffer size {buffer.length} exceeds maximum {codec.maxSize}") := by
      rw [decode, if_pos (Nat.not_le.mp inadmissible)]
    exact ⟨_, refusal⟩
  smaller _ _ le admissible := Nat.le_trans le admissible

end JsonCodec

/-! ### Pipelined objects -/

/-- JSON framing over any chunking. Objects that the codec encodes, in whatever chunks their
encodings arrive and with whatever calls cancelled, come back in order and without an error
before the end of the stream if and only if each read fits: the bytes up to the end of the
read, without those of the complete objects in front of it, are within the size limit. -/
theorem jsonCodec_framing_iff (codec : JsonCodec) {serde : SerdeJson Value}
    {isObject : Value → Prop} (lawful : serde.Lawful isObject) (values : List Value)
    (objects : ∀ value ∈ values, isObject value) (encoded : ByteBuffer)
    (encodes : (codec.toCodec serde).encodeAll values = .ok encoded) (reads : List Read)
    (whole : bytesOf (chunksOf reads) = encoded) :
    FramedReader.Delivers (.new (codec.toCodec serde)) reads values (.io .connectionAborted none) ↔
      ∀ before chunk after, chunksOf reads = before ++ chunk :: after →
        ∃ count done, count ≤ values.length ∧
          (codec.toCodec serde).encodeAll (values.take count) = .ok done ∧
          done.length ≤ (bytesOf before).length ∧
          (bytesOf before).length + chunk.bytes.length - done.length ≤ codec.maxSize := by
  have frames := codec.frames lawful
  have valid : ∀ value ∈ values, codec.Valid serde isObject value := by
    intro value member
    obtain ⟨dst, result, encodes⟩ := Codec.encode_of_encodeOnto encodes value member
    exact ⟨objects value member, JsonCodec.toString_of_encode encodes⟩
  have someValid (count : Nat) : ∀ value ∈ values.take count, codec.Valid serde isObject value :=
    fun value member => valid value (List.mem_of_mem_take member)
  have split : [] ++ bytesOf (chunksOf reads) = stream (JsonCodec.frame serde) values ++ [] := by
    rw [List.nil_append, List.append_nil, whole]
    rw [frames.encodeAll valid] at encodes
    cases encodes
    rfl
  have delivers := FramedReader.delivers_iff frames valid (Or.inl rfl) split (Nat.zero_le _)
  refine delivers.trans (forall_congr' fun before => forall_congr' fun chunk =>
    forall_congr' fun after => imp_congr_right fun _ => ?_)
  simp only [List.length_nil, Nat.zero_add]
  constructor
  · rintro ⟨count, bounded, behind, small⟩
    exact ⟨count, _, bounded, frames.encodeAll (someValid count), behind, small⟩
  · rintro ⟨count, done, bounded, encodesDone, behind, small⟩
    rw [frames.encodeAll (someValid count)] at encodesDone
    cases encodesDone
    exact ⟨count, bounded, behind, small⟩

def emptyObjects : SerdeJson Unit where
  toString _ := .ok [0x7b, 0x7d]
  next
    | [] => .finished
    | [0x7b] => .eof
    | 0x7b :: 0x7d :: _ => .item () 2
    | _ => .failed "key must be a string"

theorem emptyObjects_lawful : emptyObjects.Lawful fun _ => True where
  complete _ text _ written rest := by
    cases written
    rfl
  incomplete _ text _ written part within proper nonempty := by
    cases written
    rcases List.prefix_cons_iff.mp within with none | ⟨tail, rfl, inner⟩
    · exact absurd none nonempty
    · rcases List.prefix_cons_iff.mp inner with rfl | ⟨rest, rfl, last⟩
      · rfl
      · rw [List.prefix_nil.mp last] at proper
        exact absurd rfl proper
  empty := rfl

/-- Two empty objects in two reads. -/
theorem jsonCodec_framing_iff_twoReads :
    ∃ reads, FramedReader.Delivers (.new ((JsonCodec.mk 3).toCodec emptyObjects)) reads [(), ()]
      (.io .connectionAborted none) := by
  let reads : List Read := [.chunk ⟨[0x7b, 0x7d, 0x7b], by decide, by decide⟩,
    .chunk ⟨[0x7d], by decide, by decide⟩]
  refine ⟨reads, (jsonCodec_framing_iff ⟨3⟩ emptyObjects_lawful [(), ()] (fun _ _ => trivial)
    _ rfl reads rfl).mpr fun before chunk after split => ?_⟩
  match before, split with
  | [], split =>
    cases split
    exact ⟨0, [], by decide, rfl, by decide, by decide⟩
  | [_], split =>
    cases split
    exact ⟨1, [0x7b, 0x7d], by decide, rfl, by decide, by decide⟩
  | _ :: _ :: rest, split =>
    have size := congrArg List.length split
    rw [List.cons_append, List.cons_append] at size
    simp [reads, chunksOf] at size

/-- Two empty objects in one read exceed a limit that each of them is within. -/
theorem jsonCodec_pipelined_bufferFull :
    ∃ encoded reads,
      ((JsonCodec.mk 3).toCodec emptyObjects).encodeAll [(), ()] = .ok encoded ∧
      bytesOf (chunksOf reads) = encoded ∧
      FramedReader.results 1 (.new ((JsonCodec.mk 3).toCodec emptyObjects)) reads =
        [.error (.bufferFull "Buffer size 4 exceeds maximum 3")] ∧
      ¬ FramedReader.Delivers (.new ((JsonCodec.mk 3).toCodec emptyObjects)) reads [(), ()]
        (.io .connectionAborted none) := by
  let reads : List Read := [.chunk ⟨[0x7b, 0x7d, 0x7b, 0x7d], by decide, by decide⟩]
  have first : FramedReader.results 1 (.new ((JsonCodec.mk 3).toCodec emptyObjects)) reads =
      [.error (.bufferFull "Buffer size 4 exceeds maximum 3")] := rfl
  refine ⟨_, reads, rfl, rfl, first, fun delivers => ?_⟩
  have wrong := delivers 1 0 _ (by rw [first]; rfl)
  cases wrong

/-! ### The two wire types -/

/-- The messages of a WebSocket. -/
inductive WsMessage where
  | text (json : ByteBuffer)
  | binary (bytes : ByteBuffer)
  | ping (bytes : ByteBuffer)
  | pong (bytes : ByteBuffer)
  | close

namespace JsonCodec

/-- Decode a text message, with the function of `serde_json` that reads a whole text. -/
def decodeWs (codec : JsonCodec) (fromStr : ByteBuffer → Except String Value) (src : WsMessage) :
    Except Error (Option (Nat × Value)) :=
  match src with
  | .text text =>
    if text.length > codec.maxSize then
      .error (.bufferFull s!"Buffer size {text.length} exceeds maximum {codec.maxSize}")
    else
      match fromStr text with
      | .error text => .error (.io .other (some text))
      | .ok val => .ok (some (text.length, val))
  | _ => .ok none

/-- What the codec writes of a value it reads as this value, on both wire types, and it writes it
on both or on none. -/
structure NeverRefuses (codec : JsonCodec) (serde : SerdeJson Value)
    (fromStr : ByteBuffer → Except String Value) (value : Value) : Prop where
  bytes : ∀ len dst, codec.encode serde value [] = .ok (len, dst) →
    codec.decode serde dst = .ok (some (dst.length, value))
  ws : ∀ len json, codec.encodeWs serde value = .ok (len, json) →
    codec.decodeWs fromStr (.text json) = .ok (some (json.length, value))
  alike : (∃ result, codec.encode serde value [] = .ok result) ↔
    ∃ result, codec.encodeWs serde value = .ok result

end JsonCodec

/-- An object is never refused if and only if its text is within the limit. -/
theorem jsonCodec_wireTypes_iff (codec : JsonCodec) {serde : SerdeJson Value}
    {fromStr : ByteBuffer → Except String Value} {isObject : Value → Prop}
    (lawful : serde.Lawful isObject)
    (reads : ∀ value text, isObject value → serde.toString value = .ok text →
      fromStr text = .ok value) {value : Value} (object : isObject value) :
    codec.NeverRefuses serde fromStr value ↔
      ∀ text, serde.toString value = .ok text → text.length ≤ codec.maxSize := by
  cases written : serde.toString value with
  | error error =>
    have bytes : codec.encode serde value [] = .error (.io .other (some error)) := by
      rw [JsonCodec.encode, written]
    have ws : codec.encodeWs serde value = .error (.io .other (some error)) := by
      rw [JsonCodec.encodeWs, written]
    refine ⟨fun _ _ => nofun, fun _ => ⟨fun _ _ => ?_, fun _ _ => ?_, ?_⟩⟩
    · rw [bytes]
      nofun
    · rw [ws]
      nofun
    · rw [bytes, ws]
  | ok buf =>
    have ws : codec.encodeWs serde value = .ok (buf.length, buf) := by
      rw [JsonCodec.encodeWs, written]
    by_cases small : buf.length ≤ codec.maxSize
    · have bytes : codec.encode serde value [] = .ok (buf.length, buf) := by
        rw [JsonCodec.encode, written]
        exact if_neg (Nat.not_lt.mpr small)
      have streamed := lawful.complete value buf object written []
      rw [List.append_nil] at streamed
      refine ⟨fun _ text same => Except.ok.inj same ▸ small, fun _ => ⟨?_, ?_, ?_⟩⟩
      · intro len dst encoded
        cases bytes.symm.trans encoded
        rw [JsonCodec.decode, if_neg (Nat.not_lt.mpr small), streamed]
      · intro len json encoded
        cases ws.symm.trans encoded
        rw [JsonCodec.decodeWs, if_neg (Nat.not_lt.mpr small), reads value buf object written]
      · exact ⟨fun _ => ⟨_, ws⟩, fun _ => ⟨_, bytes⟩⟩
    · refine ⟨fun refuses => ?_, fun within => absurd (within buf rfl) small⟩
      have refused := refuses.ws _ _ ws
      rw [JsonCodec.decodeWs, if_pos (Nat.lt_of_not_le small)] at refused
      cases refused

/-- The empty object within a limit of three bytes. -/
theorem jsonCodec_wireTypes_iff_empty :
    (JsonCodec.mk 3).NeverRefuses emptyObjects (fun _ => .ok ()) () := by
  refine (jsonCodec_wireTypes_iff ⟨3⟩ emptyObjects_lawful (fun _ _ _ _ => rfl) trivial).mpr ?_
  intro text written
  cases written
  decide

/-- The empty object and a limit of one byte: it is written to a WebSocket, refused when it is read
there, and not written to bytes. -/
theorem jsonCodec_wireTypes_counterexample :
    (JsonCodec.mk 1).encodeWs emptyObjects () = .ok (2, [0x7b, 0x7d]) ∧
      (JsonCodec.mk 1).decodeWs (fun _ => .ok ()) (.text [0x7b, 0x7d]) =
        .error (.bufferFull "Buffer size 2 exceeds maximum 1") ∧
      (JsonCodec.mk 1).encode emptyObjects () [] =
        .error (.bufferFull "Buffer size 2 exceeds maximum 1") ∧
      ¬ (JsonCodec.mk 1).NeverRefuses emptyObjects (fun _ => .ok ()) () := by
  refine ⟨rfl, rfl, rfl, fun refuses => ?_⟩
  have refused := refuses.ws _ _ rfl
  cases refused

end Karyon.Jsonrpc
