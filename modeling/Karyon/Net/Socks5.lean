/-
This file models the client handshake of the SOCKS5 layer, `net/src/layers/proxy/socks5.rs`.

The client greets the proxy with the one method it has, reads the choice of the proxy, asks for a
connection to its target and reads the reply with the bound address, which it skips. The bytes of
the proxy arrive in any chunks (`readExact`).

The handshake succeeds exactly if the host has 1 to 255 bytes and the proxy begins with the two
replies, and it has taken the bytes of the replies and no other (`socks5_handshake_exact`).
-/

import Karyon.Lib.IpText
import Karyon.Lib.Utf8
import Karyon.Net.Framed

namespace Karyon.Net

open Framing IpText

def SOCKS5_VERSION : UInt8 := 0x05

def NO_AUTH : UInt8 := 0x00

def CMD_CONNECT : UInt8 := 0x01

def ATYPE_IPV4 : UInt8 := 0x01

def ATYPE_DOMAIN : UInt8 := 0x03

def ATYPE_IPV6 : UInt8 := 0x04

def REPLY_SUCCESS : UInt8 := 0x00

structure Socks5Layer where
  targetHost : String
  targetPort : UInt16

/-! ### Reading from the proxy -/

/-- Read so many bytes of the chunks that arrive. -/
def readExact (count : Nat) : List ByteBuffer → Except Error (ByteBuffer × List ByteBuffer)
  | [] => if count = 0 then .ok ([], []) else .error (.io .unexpectedEof none)
  | chunk :: rest =>
    if count ≤ chunk.length then .ok (chunk.take count, chunk.drop count :: rest)
    else (readExact (count - chunk.length) rest).map fun read => (chunk ++ read.1, read.2)

def readMethod (stream : List ByteBuffer) : Except Error (List ByteBuffer) := do
  let (resp, stream) ← readExact 2 stream
  if resp.getD 0 0 ≠ SOCKS5_VERSION ∨ resp.getD 1 0 ≠ NO_AUTH then
    .error (.socks5 "server rejected auth method")
  else return stream

/-- The reply to the request, whose bound address is skipped. -/
def readReply (stream : List ByteBuffer) : Except Error (List ByteBuffer) := do
  let (reply, stream) ← readExact 4 stream
  if reply.getD 0 0 ≠ SOCKS5_VERSION then .error (.socks5 "invalid reply version")
  else if reply.getD 1 0 ≠ REPLY_SUCCESS then
    .error (.socks5 s!"connect failed (code {reply.getD 1 0})")
  else if reply.getD 3 0 = ATYPE_IPV4 then return (← readExact (4 + 2) stream).2
  else if reply.getD 3 0 = ATYPE_DOMAIN then
    let (len, stream) ← readExact 1 stream
    return (← readExact ((len.getD 0 0).toNat + 2) stream).2
  else if reply.getD 3 0 = ATYPE_IPV6 then return (← readExact (16 + 2) stream).2
  else
    let digits := String.ofList (Nat.toDigits 16 (reply.getD 3 0).toNat)
    .error (.socks5 ("unknown address type in reply: 0x" ++ digits))

/-! ### The handshake -/

namespace Socks5Layer

variable (host : String)

def ipv4Octets : Option ByteBuffer :=
  match readIpv4 host.toList with
  | some (octets, []) => some octets
  | _ => none

def ipv6Octets : Option ByteBuffer :=
  match readIpv6 host.toList with
  | some (pieces, []) => some (pieces.flatMap u16ToBe)
  | _ => none

/-- The type of the target and its address. -/
def address : ByteBuffer :=
  match ipv4Octets host with
  | some octets => ATYPE_IPV4 :: octets
  | none =>
    match ipv6Octets host with
    | some octets => ATYPE_IPV6 :: octets
    | none => ATYPE_DOMAIN :: UInt8.ofNat (Utf8.bytes host).length :: Utf8.bytes host

def request (self : Socks5Layer) : ByteBuffer :=
  [SOCKS5_VERSION, CMD_CONNECT, 0x00] ++ address self.targetHost ++ u16ToBe self.targetPort

/-- What the client writes, and the stream that it returns or its error. -/
def handshake (self : Socks5Layer) (stream : List ByteBuffer) :
    ByteBuffer × Except Error (List ByteBuffer) :=
  let host := Utf8.bytes self.targetHost
  if host.length = 0 ∨ 255 < host.length then
    ([], .error (.socks5 s!"invalid host length: {host.length}"))
  else
    match readMethod stream with
    | .error error => ([SOCKS5_VERSION, 1, NO_AUTH], .error error)
    | .ok stream => ([SOCKS5_VERSION, 1, NO_AUTH] ++ self.request, readReply stream)

end Socks5Layer

/-! ### What the two sides mean -/

/-- A target as RFC 1928 has it. -/
inductive Socks5Target where
  | ipv4 (octets : ByteBuffer)
  | domain (name : ByteBuffer)
  | ipv6 (octets : ByteBuffer)

/-- Read a connect request: the target and its port. -/
def decodeRequest (bytes : ByteBuffer) : Option (Socks5Target × UInt16) :=
  match bytes with
  | version :: command :: reserved :: atype :: rest =>
    if version ≠ 5 ∨ command ≠ 1 ∨ reserved ≠ 0 then none
    else if atype = 1 ∧ rest.length = 6 then
      some (.ipv4 (rest.take 4), u16FromBe (rest.drop 4))
    else if atype = 4 ∧ rest.length = 18 then
      some (.ipv6 (rest.take 16), u16FromBe (rest.drop 16))
    else if atype = 3 then
      match rest with
      | len :: rest =>
        if rest.length = len.toNat + 2 then
          some (.domain (rest.take len.toNat), u16FromBe (rest.drop len.toNat))
        else none
      | [] => none
    else none
  | _ => none

/-- The target that a host stands for, by its form. -/
def Socks5Target.ofHost (host : String) : Socks5Target :=
  match Socks5Layer.ipv4Octets host, Socks5Layer.ipv6Octets host with
  | some octets, _ => .ipv4 octets
  | none, some octets => .ipv6 octets
  | none, none => .domain (Utf8.bytes host)

/-- A length, so many bytes of a name and a port. -/
def SizedBound : ByteBuffer → Prop
  | len :: bound => bound.length = len.toNat + 2
  | [] => False

/-- A success reply with a bound address and a port. -/
def Socks5Reply : ByteBuffer → Prop
  | version :: code :: _ :: atype :: bound =>
    version = 5 ∧ code = 0 ∧
      (atype = 1 ∧ bound.length = 4 + 2 ∨ atype = 3 ∧ SizedBound bound ∨
        atype = 4 ∧ bound.length = 16 + 2)
  | _ => False

/-! ### Exact reads -/

section Reads

variable {count : Nat} {stream rest : List ByteBuffer} {bytes later : ByteBuffer}

theorem readExact_eq_ok (read : readExact count stream = .ok (bytes, rest)) :
    bytes.length = count ∧ stream.flatten = bytes ++ rest.flatten := by
  induction stream generalizing count bytes with
  | nil =>
    rw [readExact] at read
    split at read
    · rename_i zero
      cases read
      exact ⟨zero.symm, rfl⟩
    · cases read
  | cons chunk others inductionHypothesis =>
    rw [readExact] at read
    split at read
    · rename_i enough
      cases read
      rw [List.flatten_cons, List.flatten_cons, ← List.append_assoc, List.take_append_drop]
      exact ⟨List.length_take_of_le enough, rfl⟩
    · obtain ⟨⟨more, _⟩, found, ⟨⟩⟩ := Fallible.map_eq_ok.mp read
      obtain ⟨length, split⟩ := inductionHypothesis found
      dsimp only
      rw [List.flatten_cons, split, List.length_append, List.append_assoc]
      exact ⟨by omega, rfl⟩

theorem readExact_of_flatten (length : bytes.length = count)
    (split : stream.flatten = bytes ++ later) :
    ∃ rest, readExact count stream = .ok (bytes, rest) ∧ rest.flatten = later := by
  induction stream generalizing count bytes with
  | nil =>
    obtain ⟨rfl, rfl⟩ := List.append_eq_nil_iff.mp split.symm
    exact ⟨[], by subst length; rfl, rfl⟩
  | cons chunk others inductionHypothesis =>
    rw [List.flatten_cons] at split
    rw [readExact]
    by_cases enough : count ≤ chunk.length
    · have front := congrArg (List.take count) split
      have back := congrArg (List.drop count) split
      rw [List.take_append_of_le_length enough, List.take_left' length] at front
      rw [List.drop_append_of_le_length enough, List.drop_left' length] at back
      rw [if_pos enough, front]
      exact ⟨chunk.drop count :: others, rfl, back⟩
    · have front := congrArg (List.take chunk.length) split
      have back := congrArg (List.drop chunk.length) split
      rw [List.take_left, List.take_append_of_le_length (by omega)] at front
      rw [List.drop_left, List.drop_append_of_le_length (by omega)] at back
      obtain ⟨rest, read, behind⟩ := inductionHypothesis
        (by rw [List.length_drop, length]) back
      refine ⟨rest, ?_, behind⟩
      rw [if_neg enough, read]
      show Except.ok (chunk ++ bytes.drop chunk.length, rest) = _
      nth_rewrite 1 [front]
      rw [List.take_append_drop]

/-- A reader that succeeds exactly on the streams with such a front, and takes no other byte. -/
def Takes (read : List ByteBuffer → Except Error (List ByteBuffer)) (front : ByteBuffer → Prop) :
    Prop :=
  ∀ stream later, (∃ rest, read stream = .ok rest ∧ rest.flatten = later) ↔
    ∃ bytes, front bytes ∧ stream.flatten = bytes ++ later

variable {front : ByteBuffer → Prop}

theorem Takes.congr {read : List ByteBuffer → Except Error (List ByteBuffer)}
    {other : ByteBuffer → Prop} (takes : Takes read front)
    (same : ∀ bytes, other bytes ↔ front bytes) : Takes read other := by
  rwa [funext fun bytes => propext (same bytes)]

theorem takes_ok (nothing : ∀ more, front more ↔ more = []) : Takes .ok front := by
  intro stream later
  constructor
  · rintro ⟨rest, same, behind⟩
    cases same
    exact ⟨[], (nothing []).mpr rfl, behind⟩
  · rintro ⟨bytes, holds, split⟩
    rw [(nothing bytes).mp holds] at split
    exact ⟨stream, rfl, split⟩

theorem takes_error {error : Error} (never : ∀ more, ¬ front more) :
    Takes (fun _ => .error error) front := by
  intro stream later
  constructor
  · rintro ⟨rest, same, _⟩
    cases same
  · rintro ⟨bytes, holds, _⟩
    exact absurd holds (never bytes)

/-- An exact read takes its bytes, and what follows takes the others. -/
theorem takes_readExact {next : ByteBuffer × List ByteBuffer → Except Error (List ByteBuffer)}
    (long : ∀ bytes, front bytes → count ≤ bytes.length)
    (each : ∀ head, head.length = count →
      Takes (fun stream => next (head, stream)) fun more => front (head ++ more)) :
    Takes (fun stream => readExact count stream >>= next) front := by
  intro stream later
  constructor
  · rintro ⟨rest, read, behind⟩
    obtain ⟨⟨head, middle⟩, found, read⟩ := Fallible.bind_eq_ok.mp read
    obtain ⟨length, split⟩ := readExact_eq_ok found
    obtain ⟨more, holds, others⟩ := (each head length middle later).mp ⟨rest, read, behind⟩
    exact ⟨head ++ more, holds, by rw [split, others, List.append_assoc]⟩
  · rintro ⟨bytes, holds, split⟩
    have length := List.length_take_of_le (long bytes holds)
    rw [← List.take_append_drop count bytes, List.append_assoc] at split
    rw [← List.take_append_drop count bytes] at holds
    obtain ⟨middle, found, others⟩ := readExact_of_flatten length split
    obtain ⟨rest, read, behind⟩ := (each _ length middle later).mpr ⟨_, holds, others⟩
    exact ⟨rest, Fallible.bind_eq_ok.mpr ⟨_, found, read⟩, behind⟩

theorem takes_skip (count : Nat) :
    Takes (fun stream => readExact count stream >>= fun read => .ok read.2)
      fun bound => bound.length = count := by
  refine takes_readExact (fun bytes length => length.ge) fun head length => takes_ok fun more => ?_
  rw [List.length_append, length, ← List.length_eq_zero_iff]
  omega

theorem takes_sized :
    Takes (fun stream => readExact 1 stream >>= fun len =>
      readExact ((len.1.getD 0 0).toNat + 2) len.2 >>= fun read => .ok read.2) SizedBound := by
  refine takes_readExact (fun bytes sized => ?_) fun head one => ?_
  · cases bytes with
    | nil => exact sized.elim
    | cons => exact Nat.le_add_left 1 _
  · obtain ⟨len, rfl⟩ := List.length_eq_one_iff.mp one
    exact takes_skip (len.toNat + 2)

theorem takes_readMethod : Takes readMethod fun bytes => bytes = [5, 0] := by
  refine takes_readExact (fun bytes same => by rw [same]; rfl) fun head two => ?_
  obtain ⟨version, method, rfl⟩ := List.length_eq_two.mp two
  by_cases accepted : version = 5 ∧ method = 0
  · obtain ⟨rfl, rfl⟩ := accepted
    exact takes_ok fun more => List.append_right_eq_self
  · have refused : version ≠ SOCKS5_VERSION ∨ method ≠ NO_AUTH := not_and_or.mp accepted
    simp only [List.getD_cons_zero, List.getD_cons_succ, if_pos refused]
    refine takes_error fun more same => accepted ?_
    cases same
    exact ⟨rfl, rfl⟩

theorem takes_readReply : Takes readReply Socks5Reply := by
  refine takes_readExact (fun bytes reply => ?_) fun head four => ?_
  · rcases bytes with _ | ⟨_, _ | ⟨_, _ | ⟨_, _ | ⟨_, bound⟩⟩⟩⟩
    all_goals first | exact reply.elim | exact Nat.le_add_left 4 _
  obtain ⟨version, code, reserved, atype, rfl⟩ := List.length_eq_four.mp four
  simp only [List.getD_cons_zero, List.getD_cons_succ]
  split
  · rename_i other
    exact takes_error fun more reply => other reply.1
  split
  · rename_i other
    exact takes_error fun more reply => other reply.2.1
  rename_i isVersion success
  obtain rfl := not_not.mp isVersion
  obtain rfl := not_not.mp success
  split
  · rename_i same
    subst same
    exact (takes_skip 6).congr fun more => by
      simp [Socks5Reply, SOCKS5_VERSION, REPLY_SUCCESS, ATYPE_IPV4]
  split
  · rename_i same
    subst same
    exact takes_sized.congr fun more => by
      simp [Socks5Reply, SOCKS5_VERSION, REPLY_SUCCESS, ATYPE_DOMAIN]
  split
  · rename_i same
    subst same
    exact (takes_skip 18).congr fun more => by
      simp [Socks5Reply, SOCKS5_VERSION, REPLY_SUCCESS, ATYPE_IPV6]
  · rename_i notIpv4 notDomain notIpv6
    refine takes_error fun more reply => ?_
    rcases reply.2.2 with ⟨same, _⟩ | ⟨same, _⟩ | ⟨same, _⟩
    · exact notIpv4 same
    · exact notDomain same
    · exact notIpv6 same

end Reads

/-! ### The request -/

namespace Socks5Layer

variable {host : String}

theorem length_ipv4Octets {octets : ByteBuffer} (found : ipv4Octets host = some octets) :
    octets.length = 4 := by
  unfold ipv4Octets at found
  split at found
  · rename_i read
    cases found
    exact (readIpv4_eq_some read).1
  · cases found

theorem length_ipv6Octets {octets : ByteBuffer} (found : ipv6Octets host = some octets) :
    octets.length = 16 := by
  unfold ipv6Octets at found
  split at found
  · rename_i pieces read
    cases found
    rw [List.length_flatMap, List.map_congr_left fun piece _ => length_u16ToBe piece,
      List.map_const', List.sum_replicate_nat, (readIpv6_eq_some read).1]
  · cases found

theorem decodeRequest_request (self : Socks5Layer)
    (fits : (Utf8.bytes self.targetHost).length ≤ 255) :
    decodeRequest self.request = some (.ofHost self.targetHost, self.targetPort) := by
  have read {body : ByteBuffer} {size : Nat} (length : body.length = size) :
      (body ++ u16ToBe self.targetPort).length = size + 2 ∧
        (body ++ u16ToBe self.targetPort).take size = body ∧
        u16FromBe ((body ++ u16ToBe self.targetPort).drop size) = self.targetPort := by
    rw [List.length_append, length_u16ToBe, length, List.take_left' length,
      List.drop_left' length, u16FromBe_u16ToBe]
    exact ⟨rfl, rfl, rfl⟩
  unfold request address Socks5Target.ofHost
  cases v4 : ipv4Octets self.targetHost with
  | some octets =>
    obtain ⟨length, address, port⟩ := read (length_ipv4Octets v4)
    show (if (1 : UInt8) = 1 ∧ (octets ++ u16ToBe self.targetPort).length = 6 then
      some (Socks5Target.ipv4 _, u16FromBe _) else _) = _
    rw [if_pos ⟨rfl, length⟩]
    exact congrArg₂ (fun octets port => some (Socks5Target.ipv4 octets, port)) address port
  | none =>
    cases v6 : ipv6Octets self.targetHost with
    | some octets =>
      obtain ⟨length, address, port⟩ := read (length_ipv6Octets v6)
      show (if (4 : UInt8) = 4 ∧ (octets ++ u16ToBe self.targetPort).length = 18 then
        some (Socks5Target.ipv6 _, u16FromBe _) else _) = _
      rw [if_pos ⟨rfl, length⟩]
      exact congrArg₂ (fun octets port => some (Socks5Target.ipv6 octets, port)) address port
    | none =>
      have len : (UInt8.ofNat (Utf8.bytes self.targetHost).length).toNat =
          (Utf8.bytes self.targetHost).length :=
        UInt8.toNat_ofNat_of_lt' (Nat.lt_succ_of_le fits)
      obtain ⟨length, address, port⟩ := read len.symm
      show (if (Utf8.bytes self.targetHost ++ u16ToBe self.targetPort).length = _ + 2 then
        some (Socks5Target.domain _, u16FromBe _) else _) = _
      rw [if_pos length]
      exact congrArg₂ (fun name port => some (Socks5Target.domain name, port)) address port

end Socks5Layer

/-! ### The handshake is exact -/

/-- A host whose length fits into one byte and is not zero. -/
def Socks5Layer.HostFits (self : Socks5Layer) : Prop :=
  1 ≤ (Utf8.bytes self.targetHost).length ∧ (Utf8.bytes self.targetHost).length ≤ 255

/-- The handshake succeeds if and only if the host fits and the stream begins with the choice of no
authentication and a success reply, and then it has taken these bytes. What it has written is the
greeting and a request for the target, and nothing for a host that does not fit. -/
theorem socks5_handshake_exact (self : Socks5Layer) (stream : List ByteBuffer) :
    ((∃ rest, (self.handshake stream).2 = .ok rest) ↔
      self.HostFits ∧
        ∃ reply later, Socks5Reply reply ∧ stream.flatten = [5, 0] ++ (reply ++ later)) ∧
    (∀ rest, (self.handshake stream).2 = .ok rest →
      (self.handshake stream).1 = [5, 1, 0] ++ self.request ∧
        ∃ reply, Socks5Reply reply ∧ stream.flatten = [5, 0] ++ (reply ++ rest.flatten)) ∧
    (self.HostFits →
      decodeRequest self.request = some (.ofHost self.targetHost, self.targetPort)) ∧
    (¬ self.HostFits → (self.handshake stream).1 = []) := by
  by_cases fits : self.HostFits
  · have begins : self.handshake stream = match readMethod stream with
        | .error error => ([5, 1, 0], .error error)
        | .ok stream => ([5, 1, 0] ++ self.request, readReply stream) :=
      if_neg fun either => either.elim (Nat.ne_zero_of_lt fits.1) (Nat.not_lt.mpr fits.2)
    have exactly {rest : List ByteBuffer} (ok : (self.handshake stream).2 = .ok rest) :
        (self.handshake stream).1 = [5, 1, 0] ++ self.request ∧
          ∃ reply, Socks5Reply reply ∧ stream.flatten = [5, 0] ++ (reply ++ rest.flatten) := by
      rw [begins] at ok ⊢
      cases method : readMethod stream with
      | error error =>
        rw [method] at ok
        cases ok
      | ok next =>
        rw [method] at ok
        obtain ⟨reply, isReply, split⟩ := (takes_readReply next _).mp ⟨rest, ok, rfl⟩
        refine ⟨rfl, reply, isReply, ?_⟩
        obtain ⟨_, rfl, front⟩ := (takes_readMethod stream _).mp ⟨next, method, rfl⟩
        rw [front, split]
    refine ⟨⟨fun ⟨rest, ok⟩ => ?_, ?_⟩, fun _ => exactly,
      fun fits => self.decodeRequest_request fits.2, absurd fits⟩
    · obtain ⟨_, reply, isReply, split⟩ := exactly ok
      exact ⟨fits, reply, _, isReply, split⟩
    · rintro ⟨_, reply, later, isReply, split⟩
      obtain ⟨next, method, behind⟩ := (takes_readMethod stream _).mpr ⟨_, rfl, split⟩
      obtain ⟨rest, ok, _⟩ := (takes_readReply next later).mpr ⟨reply, isReply, behind⟩
      exact ⟨rest, by rw [begins, method]; exact ok⟩
  · have refused : self.handshake stream = ([], .error (.socks5
        s!"invalid host length: {(Utf8.bytes self.targetHost).length}")) := by
      refine if_pos ?_
      rw [Socks5Layer.HostFits] at fits
      omega
    rw [refused]
    exact ⟨⟨fun ⟨_, ok⟩ => (by cases ok), fun both => absurd both.1 fits⟩,
      fun _ ok => (by cases ok), fun holds => absurd holds fits, fun _ => rfl⟩

end Karyon.Net
