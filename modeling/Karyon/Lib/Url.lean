/-
This file is a small library about URLs as texts, as the URL standard parses and writes them.

A text is cleaned, cut into its scheme, authority, path, query and fragment, and each part is
checked and percent-encoded by its own rules. Schemes that the standard calls special have rules of
their own, international domain names among them; what is made of their texts is a parameter. For
any other scheme a host is either an IPv6 address in brackets or an opaque text, and a text without
an authority may have a path that is opaque.

Whatever was parsed as a host is parsed as itself (`Stable.parseHost`, `stable_of_parse`), so a host
and a port are read back (`parse_host_port`). So are paths (`parsePath_pathText`).
-/

import Karyon.Lib.Fallible
import Karyon.Lib.IpText
import Mathlib.Data.List.TakeWhile

namespace UrlText

open NumberText IpText

/-! ### Percent-encoding -/

def hexDigits : List Char := "0123456789ABCDEF".toList

def percentByte (byte : UInt8) : List Char :=
  ['%', hexDigits.getD (byte.toNat / 16) '0', hexDigits.getD (byte.toNat % 16) '0']

/-- The bytes of a character of the set are written in hexadecimal. -/
def encodeChar (set : Char → Bool) (c : Char) : List Char :=
  if set c then (String.utf8EncodeChar c).flatMap percentByte else [c]

def encode (set : Char → Bool) (text : List Char) : List Char :=
  text.flatMap (encodeChar set)

variable (c : Char)

def c0Set : Bool :=
  decide (c.toNat ≤ 0x1f) || decide (0x7e < c.toNat)

def fragmentSet : Bool :=
  c0Set c || " \"<>\x60".toList.contains c

def querySet : Bool :=
  c0Set c || " \"#<>".toList.contains c

def pathSet : Bool :=
  querySet c || "?^\x60\x7b\x7d".toList.contains c

def userinfoSet : Bool :=
  pathSet c || "/:;=@[\\]|".toList.contains c

theorem getD_hexDigits (n : Nat) : hexDigits.getD n '0' ∈ '%' :: hexDigits := by
  rw [List.getD_eq_getElem?_getD]
  cases found : hexDigits[n]? with
  | none => decide
  | some c => exact List.mem_cons_of_mem _ (List.mem_of_getElem? found)

variable {set : Char → Bool} {segment : List Char} {path : List (List Char)}

theorem not_mem_of_set {text : List Char} (plain : ∀ c ∈ text, set c = false) {c : Char}
    (inSet : set c = true) : c ∉ text := by
  intro member
  rw [plain c member] at inSet
  cases inSet

variable {stop : Char}

theorem bne_of_not_mem {text : List Char} (absent : stop ∉ text) : ∀ c ∈ text, (c != stop) = true :=
  fun _ member => bne_iff_ne.mpr fun same => absent (same ▸ member)

theorem mem_encode {text : List Char} {c : Char} (member : c ∈ encode set text) :
    c ∈ '%' :: hexDigits ∨ (c ∈ text ∧ set c = false) := by
  obtain ⟨original, present, inside⟩ := List.mem_flatMap.mp member
  unfold encodeChar at inside
  split at inside
  · obtain ⟨byte, _, written⟩ := List.mem_flatMap.mp inside
    refine .inl ?_
    simp only [percentByte, List.mem_cons, List.not_mem_nil, or_false] at written
    rcases written with rfl | rfl | rfl
    · exact List.mem_cons_self
    · exact getD_hexDigits _
    · exact getD_hexDigits _
  · rename_i plain
    rw [List.mem_singleton.mp inside]
    exact .inr ⟨present, eq_false_of_ne_true plain⟩

theorem set_of_mem_encode (plain : ∀ c ∈ '%' :: hexDigits, set c = false) {text : List Char}
    {c : Char} (member : c ∈ encode set text) : set c = false :=
  (mem_encode member).elim (plain c) And.right

theorem encode_eq_self {text : List Char} (plain : ∀ c ∈ text, set c = false) :
    encode set text = text := by
  induction text with
  | nil => rfl
  | cons c text inductionHypothesis =>
    have own : encodeChar set c = [c] := if_neg (by rw [plain c List.mem_cons_self]; decide)
    have rest := inductionHypothesis fun c member => plain c (List.mem_cons_of_mem _ member)
    rw [encode, List.flatMap_cons, own, ← encode, rest]
    rfl

theorem head_encode {text : List Char} (other : ∀ rest, text ≠ '/' :: rest) :
    (encode set text).head? ≠ some '/' := by
  cases text with
  | nil => rintro ⟨⟩
  | cons c rest =>
    rw [encode, List.flatMap_cons, encodeChar]
    split
    · cases bytes : String.utf8EncodeChar c with
      | nil => exact absurd bytes String.utf8EncodeChar_ne_nil
      | cons byte bytes =>
        intro slash
        cases slash
    · intro slash
      cases slash
      exact other rest rfl

/-! ### Hosts -/

inductive ParseError where
  | emptyHost
  | idnaError
  | invalidPort
  | invalidIpv4Address
  | invalidIpv6Address
  | invalidDomainCharacter
  | relativeUrlWithoutBase
  deriving DecidableEq

def ParseError.text : ParseError → String
  | .emptyHost => "empty host"
  | .idnaError => "invalid international domain name"
  | .invalidPort => "invalid port number"
  | .invalidIpv4Address => "invalid IPv4 address"
  | .invalidIpv6Address => "invalid IPv6 address"
  | .invalidDomainCharacter => "invalid domain character"
  | .relativeUrlWithoutBase => "relative URL without a base"

def isForbiddenHostChar : Bool :=
  "\x00\t\n\r #/:<>?@[\\]^|".toList.contains c

/-- The text of an IPv6 address as a host. -/
def bracketed (pieces : List UInt16) : List Char :=
  '[' :: (ipv6Text pieces ++ [']'])

variable (text : List Char)

/-- The host of a scheme that is not special. -/
def parseHost : Except ParseError (List Char) :=
  match text with
  | '[' :: inner =>
    if inner.getLast? ≠ some ']' then .error .invalidIpv6Address
    else
      match parseIpv6 inner.dropLast with
      | some pieces => .ok (bracketed pieces)
      | none => .error .invalidIpv6Address
  | _ =>
    if text.any isForbiddenHostChar then .error .invalidDomainCharacter
    else .ok (encode c0Set text)

/-- The hosts that are parsed as themselves. -/
inductive Stable : List Char → Prop
  | opaqueHost {host : List Char} (allowed : ∀ c ∈ host, isForbiddenHostChar c = false)
      (plain : ∀ c ∈ host, c0Set c = false) : Stable host
  | address {pieces : List UInt16} (eight : pieces.length = 8) : Stable (bracketed pieces)

theorem stable_of_parseHost {text host : List Char} (parsed : parseHost text = .ok host) :
    Stable host := by
  unfold parseHost at parsed
  split at parsed
  · split at parsed
    · cases parsed
    · split at parsed
      · rename_i read
        cases parsed
        exact .address (length_of_parseIpv6 read)
      · cases parsed
  · split at parsed
    · cases parsed
    · rename_i allowed
      cases parsed
      have none : ∀ c ∈ text, isForbiddenHostChar c = false := by
        intro c member
        refine eq_false_of_ne_true fun forbidden => allowed ?_
        exact List.any_eq_true.mpr ⟨c, member, forbidden⟩
      refine .opaqueHost (fun c member => ?_) fun c =>
        set_of_mem_encode (List.all_iff_forall_prop.mp (by decide))
      rcases mem_encode member with hex | ⟨present, _⟩
      · have plain : ∀ c ∈ '%' :: hexDigits, isForbiddenHostChar c = false :=
          List.all_iff_forall_prop.mp (by decide)
        exact plain c hex
      · exact none c present

variable {host : List Char}

theorem Stable.parseHost (stable : Stable host) :
    UrlText.parseHost host = .ok host := by
  cases stable with
  | opaqueHost allowed plain =>
    unfold UrlText.parseHost
    split
    · exact absurd (allowed '[' List.mem_cons_self) (by decide)
    · have none : ¬ host.any isForbiddenHostChar = true := by
        rw [List.any_eq_true]
        rintro ⟨c, member, forbidden⟩
        exact not_mem_of_set allowed forbidden member
      rw [if_neg none, encode_eq_self plain]
  | address eight =>
    rw [bracketed, UrlText.parseHost, List.getLast?_concat, if_neg (absurd rfl),
      List.dropLast_concat, parseIpv6_ipv6Text eight]
    rfl

theorem stable_of_digits (digits : ∀ c ∈ host, isDigit 16 c = true ∨ c = '.') : Stable host := by
  have forbidden : ∀ c ∈ "\x00\t\n\r #/:<>?@[\\]^|".toList, isDigit 16 c = false :=
    List.all_iff_forall_prop.mp (by decide)
  refine .opaqueHost (fun c member => ?_) fun c member => ?_
  · rcases digits c member with digit | rfl
    · rw [isForbiddenHostChar, List.contains_eq_mem, decide_eq_false_iff_not]
      exact not_mem_of_set forbidden digit
    · decide
  · rcases digits c member with digit | rfl
    · have range := toNat_of_isDigit digit
      rw [c0Set, Bool.or_eq_false_iff, decide_eq_false_iff_not, decide_eq_false_iff_not]
      omega
    · decide

/-! ### Authorities -/

/-- The text up to the first occurrence of a character, and the text behind it. -/
def cutAt (stop : Char) (text : List Char) : List Char × Option (List Char) :=
  (text.takeWhile (· != stop),
    match text.dropWhile (· != stop) with
    | [] => none
    | _ :: rest => some rest)

/-- The text up to the last occurrence of a character, and the text behind it. -/
def cutAtLast (stop : Char) (text : List Char) : Option (List Char) × List Char :=
  match cutAt stop text.reverse with
  | (last, some front) => (some front.reverse, last.reverse)
  | (last, none) => (none, last.reverse)

/-- A bracket opens or closes. -/
def isInside (inside : Bool) (c : Char) : Bool :=
  if c = '[' then true else if c = ']' then false else inside

/-- The host ends at the first colon that is not inside brackets. -/
def cutHost : Bool → List Char → List Char × List Char
  | _, [] => ([], [])
  | inside, c :: rest =>
    if c = ':' ∧ inside = false then ([], c :: rest)
    else
      let (host, later) := cutHost (isInside inside c) rest
      (c :: host, later)

/-- The port behind a colon. It may be left out. -/
def parsePort : Except ParseError (Option UInt16) :=
  if !text.all (isDigit 10) then .error .invalidPort
  else if text.isEmpty then .ok none
  else if 65535 < value 10 text then .error .invalidPort
  else .ok (some (.ofNat (value 10 text)))

structure Authority where
  username : List Char
  password : List Char
  host : List Char
  port : Option UInt16

def parseHostPort : Except ParseError (List Char × Option UInt16) :=
  match cutHost false text with
  | (hostText, []) => do
    let host ← parseHost hostText
    return (host, none)
  | ([], _ :: _) => .error .emptyHost
  | (hostText, _ :: portText) => do
    let host ← parseHost hostText
    let port ← parsePort portText
    return (host, port)

def parseAuthority : Except ParseError Authority :=
  match cutAtLast '@' text with
  | (none, text) => do
    let (host, port) ← parseHostPort text
    return { username := [], password := [], host, port }
  | (some _, []) => .error .emptyHost
  | (some userinfo, text) => do
    let (username, password) := cutAt ':' userinfo
    let (host, port) ← parseHostPort text
    return { username := encode userinfoSet username
             password := encode userinfoSet (password.getD [])
             host, port }

theorem stable_of_parseHostPort {text : List Char} {port : Option UInt16}
    (parsed : parseHostPort text = .ok (host, port)) : Stable host := by
  unfold parseHostPort at parsed
  split at parsed
  · obtain ⟨own, found, rest⟩ := Fallible.bind_eq_ok.mp parsed
    cases rest
    exact stable_of_parseHost found
  · cases parsed
  · obtain ⟨own, found, rest⟩ := Fallible.bind_eq_ok.mp parsed
    obtain ⟨port, _, ⟨⟩⟩ := Fallible.bind_eq_ok.mp rest
    exact stable_of_parseHost found

theorem stable_of_parseAuthority {text : List Char} {authority : Authority}
    (parsed : parseAuthority text = .ok authority) : Stable authority.host := by
  unfold parseAuthority at parsed
  split at parsed
  · obtain ⟨⟨host, port⟩, found, rest⟩ := Fallible.bind_eq_ok.mp parsed
    cases rest
    exact stable_of_parseHostPort found
  · cases parsed
  · obtain ⟨⟨host, port⟩, found, rest⟩ := Fallible.bind_eq_ok.mp parsed
    cases rest
    exact stable_of_parseHostPort found

theorem cutAt_of_not_mem {text : List Char} (absent : stop ∉ text) :
    cutAt stop text = (text, none) := by
  have all := bne_of_not_mem absent
  rw [cutAt, List.takeWhile_eq_self_iff.mpr all, List.dropWhile_eq_nil_iff.mpr all]

theorem cutAtLast_of_not_mem {text : List Char} (absent : stop ∉ text) :
    cutAtLast stop text = (none, text) := by
  rw [cutAtLast, cutAt_of_not_mem (by rwa [List.mem_reverse])]
  dsimp only
  rw [List.reverse_reverse]

/-- Outside brackets a host ends at the first colon. -/
theorem cutHost_append (plain : ∀ c ∈ host, c ≠ ':' ∧ c ≠ '[')
    (rest : List Char) : cutHost false (host ++ ':' :: rest) = (host, ':' :: rest) := by
  induction host with
  | nil => rfl
  | cons c host inductionHypothesis =>
    obtain ⟨colon, bracket⟩ := plain c List.mem_cons_self
    have later := inductionHypothesis fun c member => plain c (List.mem_cons_of_mem _ member)
    rw [List.cons_append, cutHost, if_neg (fun both => colon both.1), isInside, if_neg bracket,
      ite_self, later]

/-- Inside brackets it goes on to the closing one. -/
theorem cutHost_inside {inner : List Char} (plain : ∀ c ∈ inner, c ≠ ']') (rest : List Char) :
    cutHost true (inner ++ ']' :: ':' :: rest) = (inner ++ [']'], ':' :: rest) := by
  induction inner with
  | nil => rfl
  | cons c inner inductionHypothesis =>
    have later := inductionHypothesis fun c member => plain c (List.mem_cons_of_mem _ member)
    have inside : isInside true c = true := by
      rw [isInside, if_neg (plain c List.mem_cons_self), ite_self]
    rw [List.cons_append, cutHost, if_neg (by rintro ⟨_, ⟨⟩⟩), inside, later]
    rfl

/-- A host that was parsed ends at the colon behind it. -/
theorem Stable.cutHost (stable : Stable host) (rest : List Char) :
    UrlText.cutHost false (host ++ ':' :: rest) = (host, ':' :: rest) := by
  cases stable with
  | opaqueHost allowed plain =>
    refine cutHost_append (fun c member => ⟨?_, ?_⟩) rest
    · rintro rfl
      exact absurd (allowed _ member) (by decide)
    · rintro rfl
      exact absurd (allowed _ member) (by decide)
  | @address pieces eight =>
    have plain : ∀ c ∈ ipv6Text pieces, c ≠ ']' := by
      rintro c member rfl
      exact absurd (mem_ipv6Text member) (by decide)
    rw [bracketed, List.cons_append, List.append_assoc, List.singleton_append, UrlText.cutHost,
      if_neg (by decide), isInside, if_pos rfl, cutHost_inside plain]

theorem parsePort_toDigits (port : UInt16) :
    parsePort (Nat.toDigits 10 port.toNat) = .ok (some port) := by
  have digits : (Nat.toDigits 10 port.toNat).all (isDigit 10) = true :=
    List.all_eq_true.mpr fun c => isDigit_of_mem_toDigits (by decide) (by decide)
  have some_ : (Nat.toDigits 10 port.toNat).isEmpty = false :=
    List.isEmpty_eq_false_iff.mpr Nat.toDigits_ne_nil
  rw [parsePort, digits, some_, value_toDigits (by decide) (by decide), UInt16.ofNat_toNat]
  exact if_neg (Nat.not_lt.mpr (Nat.le_of_lt_succ port.toNat_lt))

theorem Stable.parseHostPort (stable : Stable host) (some_ : host ≠ []) (port : UInt16) :
    UrlText.parseHostPort (host ++ ':' :: Nat.toDigits 10 port.toNat) =
      .ok (host, some port) := by
  unfold UrlText.parseHostPort
  rw [stable.cutHost]
  split
  · rename_i same
    cases same
  · rename_i same
    cases same
    exact absurd rfl some_
  · rename_i same
    cases same
    rw [stable.parseHost, parsePort_toDigits]
    rfl

/-- Outside brackets there is one colon at most. -/
theorem parseHostPort_colons {host port : List Char} (plain : ∀ c ∈ host, c ≠ ':' ∧ c ≠ '[')
    (second : ':' ∈ port) (result : List Char × Option UInt16) :
    parseHostPort (host ++ ':' :: port) ≠ .ok result := by
  intro parsed
  have other : port.all (isDigit 10) = false := by
    refine eq_false_of_ne_true fun all => ?_
    exact absurd (List.all_eq_true.mp all _ second) (by decide)
  unfold parseHostPort at parsed
  rw [cutHost_append plain] at parsed
  split at parsed
  · rename_i same
    cases same
  · cases parsed
  · rename_i same
    cases same
    obtain ⟨own, _, rest⟩ := Fallible.bind_eq_ok.mp parsed
    rw [parsePort, other] at rest
    cases rest

/-! ### Paths -/

/-- The first segment and the others. -/
def splitSegments : List Char → List Char × List (List Char)
  | [] => ([], [])
  | c :: rest =>
    let (first, others) := splitSegments rest
    if c = '/' then ([], first :: others) else (c :: first, others)

def isSingleDot (segment : List Char) : Bool :=
  [".", "%2e"].contains (String.ofList (segment.map Char.toLower))

def isDoubleDot (segment : List Char) : Bool :=
  ["..", ".%2e", "%2e.", "%2e%2e"].contains (String.ofList (segment.map Char.toLower))

/-- A segment goes to the end of the path. Dots stand for nothing, and two dots take away the
segment before them; at the end of the text an empty segment is left. -/
def addSegment (path : List (List Char)) (isLast : Bool) (segment : List Char) :
    List (List Char) :=
  if isDoubleDot segment then path.dropLast ++ if isLast then [[]] else []
  else if isSingleDot segment then path ++ if isLast then [[]] else []
  else path ++ [segment]

def addSegments (path : List (List Char)) : List (List Char) → List (List Char)
  | [] => path
  | [last] => addSegment path true last
  | segment :: rest => addSegments (addSegment path false segment) rest

def parsePath : List (List Char) :=
  match text with
  | [] => []
  | _ :: rest =>
    let (first, others) := splitSegments rest
    addSegments [] ((first :: others).map (encode pathSet))

def pathText (path : List (List Char)) : List Char :=
  path.flatMap fun segment => '/' :: segment

theorem pathText_cons (segment : List Char) (path : List (List Char)) :
    pathText (segment :: path) = '/' :: (segment ++ pathText path) :=
  rfl

/-- The segments of a path that was parsed. -/
structure NormalSegment (segment : List Char) : Prop where
  plain : ∀ c ∈ segment, pathSet c = false
  noSlash : '/' ∉ segment
  notSingleDot : isSingleDot segment = false
  notDoubleDot : isDoubleDot segment = false

theorem normalSegment_nil : NormalSegment [] :=
  ⟨List.forall_mem_nil _, by decide, by decide, by decide⟩

theorem slash_not_mem_splitSegments {text : List Char}
    (present : segment ∈ (splitSegments text).1 :: (splitSegments text).2) : '/' ∉ segment := by
  induction text generalizing segment with
  | nil =>
    rw [List.mem_singleton.mp present]
    exact List.not_mem_nil
  | cons c rest inductionHypothesis =>
    rw [splitSegments] at present
    dsimp only at present
    split at present
    · rcases List.mem_cons.mp present with same | later
      · rw [same]
        exact List.not_mem_nil
      · exact inductionHypothesis later
    · rename_i other
      rcases List.mem_cons.mp present with same | later
      · rw [same, List.mem_cons]
        rintro (slash | slash)
        · exact other slash.symm
        · exact inductionHypothesis List.mem_cons_self slash
      · exact inductionHypothesis (List.mem_cons_of_mem _ later)

/-- Every segment of a path was there, was added to it, or is empty. -/
theorem mem_addSegment {isLast : Bool} {member : List Char}
    (present : member ∈ addSegment path isLast segment) :
    member ∈ path ∨ member = [] ∨
      (member = segment ∧ isSingleDot member = false ∧ isDoubleDot member = false) := by
  have last : member ∈ (if isLast then [[]] else []) → member = [] := by
    intro present
    split at present
    · exact List.mem_singleton.mp present
    · cases present
  unfold addSegment at present
  split at present
  · rcases List.mem_append.mp present with kept | added
    · exact .inl ((List.dropLast_sublist path).subset kept)
    · exact .inr (.inl (last added))
  · rename_i notDoubleDot
    split at present
    · rcases List.mem_append.mp present with kept | added
      · exact .inl kept
      · exact .inr (.inl (last added))
    · rename_i notSingleDot
      rcases List.mem_append.mp present with kept | added
      · exact .inl kept
      · rw [List.mem_singleton.mp added]
        exact .inr (.inr ⟨rfl, eq_false_of_ne_true notSingleDot, eq_false_of_ne_true notDoubleDot⟩)

variable {segments : List (List Char)}

theorem mem_addSegments {member : List Char} (present : member ∈ addSegments path segments) :
    member ∈ path ∨ member = [] ∨
      (member ∈ segments ∧ isSingleDot member = false ∧ isDoubleDot member = false) := by
  induction segments generalizing path with
  | nil => exact .inl present
  | cons segment rest inductionHypothesis =>
    have own {isLast : Bool} (present : member ∈ addSegment path isLast segment) :
        member ∈ path ∨ member = [] ∨ (member ∈ segment :: rest ∧ isSingleDot member = false ∧
          isDoubleDot member = false) := by
      refine (mem_addSegment present).imp_right (Or.imp_right ?_)
      rintro ⟨rfl, plain⟩
      exact ⟨List.mem_cons_self, plain⟩
    cases rest with
    | nil => exact own present
    | cons second rest =>
      rw [addSegments] at present
      · rcases inductionHypothesis present with kept | empty | ⟨later, plain⟩
        · exact own kept
        · exact .inr (.inl empty)
        · exact .inr (.inr ⟨List.mem_cons_of_mem _ later, plain⟩)
      · rintro ⟨⟩

theorem normalSegment_of_parsePath {text : List Char} (present : segment ∈ parsePath text) :
    NormalSegment segment := by
  cases text with
  | nil => cases present
  | cons slash rest =>
    rcases mem_addSegments present with none | rfl | ⟨encoded, notSingleDot, notDoubleDot⟩
    · cases none
    · exact normalSegment_nil
    · obtain ⟨original, own, rfl⟩ := List.mem_map.mp encoded
      refine ⟨fun c => set_of_mem_encode (List.all_iff_forall_prop.mp (by decide)),
        fun member => ?_, notSingleDot, notDoubleDot⟩
      rcases mem_encode member with hex | ⟨inside, _⟩
      · exact absurd hex (by decide)
      · exact slash_not_mem_splitSegments own inside

theorem splitSegments_append (noSlash : '/' ∉ segment) (rest : List Char) :
    splitSegments (segment ++ rest) =
      (segment ++ (splitSegments rest).1, (splitSegments rest).2) := by
  induction segment with
  | nil => rfl
  | cons c segment inductionHypothesis =>
    rw [List.mem_cons, not_or] at noSlash
    rw [List.cons_append, splitSegments, inductionHypothesis noSlash.2]
    exact if_neg (Ne.symm noSlash.1)

theorem splitSegments_pathText (noSlash : ∀ member ∈ segment :: path, '/' ∉ member) :
    splitSegments (segment ++ pathText path) = (segment, path) := by
  induction path generalizing segment with
  | nil =>
    have own := splitSegments_append (noSlash segment List.mem_cons_self) []
    exact own.trans (Prod.ext (List.append_nil segment) rfl)
  | cons second path inductionHypothesis =>
    have later := inductionHypothesis fun member present =>
      noSlash member (List.mem_cons_of_mem _ present)
    rw [splitSegments_append (noSlash segment List.mem_cons_self), pathText_cons, splitSegments,
      later]
    exact Prod.ext (List.append_nil segment) rfl

theorem addSegments_eq_append (normal : ∀ segment ∈ segments, NormalSegment segment)
    (path : List (List Char)) : addSegments path segments = path ++ segments := by
  have own {segment : List Char} (normal : NormalSegment segment) (path : List (List Char))
      (isLast : Bool) : addSegment path isLast segment = path ++ [segment] := by
    rw [addSegment, normal.notDoubleDot, normal.notSingleDot]
    rfl
  induction segments generalizing path with
  | nil => rw [addSegments, List.append_nil]
  | cons segment rest inductionHypothesis =>
    have first := normal segment List.mem_cons_self
    have later := inductionHypothesis fun segment present =>
      normal segment (List.mem_cons_of_mem _ present)
    cases rest with
    | nil => exact own first path true
    | cons second rest =>
      rw [addSegments, own first, later, List.append_assoc, List.singleton_append]
      rintro ⟨⟩

theorem parsePath_pathText (normal : ∀ segment ∈ path, NormalSegment segment) :
    parsePath (pathText path) = path := by
  cases path with
  | nil => rfl
  | cons segment path =>
    have same : (segment :: path).map (encode pathSet) = segment :: path := by
      refine (List.map_congr_left fun segment present => ?_).trans (List.map_id _)
      exact encode_eq_self (normal segment present).plain
    rw [pathText_cons, parsePath,
      splitSegments_pathText fun segment present => (normal segment present).noSlash]
    dsimp only
    rw [same, addSegments_eq_append normal, List.nil_append]

/-! ### URLs -/

/-- The parts of a URL. The host is missing where the text has no authority. -/
structure Url where
  scheme : List Char
  username : List Char
  password : List Char
  host : Option (List Char)
  port : Option UInt16
  path : List Char
  query : Option (List Char)
  fragment : Option (List Char)
  deriving DecidableEq

/-- The host, if there is one that is not empty. -/
def Url.hostStr (url : Url) : Option (List Char) :=
  match url.host with
  | some (c :: rest) => some (c :: rest)
  | _ => none

theorem Url.hostStr_eq_some {url : Url} (found : url.hostStr = some host) :
    url.host = some host ∧ host ≠ [] := by
  revert found
  fun_cases Url.hostStr <;> rintro ⟨⟩
  rename_i own
  exact ⟨own, List.cons_ne_nil _ _⟩

def Url.href (url : Url) : List Char :=
  let authority :=
    match url.host with
    | some host =>
      let userinfo :=
        if url.username.isEmpty && url.password.isEmpty then []
        else url.username ++ (if url.password.isEmpty then [] else ':' :: url.password) ++ ['@']
      '/' :: '/' :: (userinfo ++ host ++
        match url.port with
        | some port => ':' :: Nat.toDigits 10 port.toNat
        | none => [])
    | none => if ['/', '/'].isPrefixOf url.path then ['/', '.'] else []
  url.scheme ++ ':' :: authority ++ url.path ++
    (match url.query with
    | some query => '?' :: query
    | none => []) ++
    match url.fragment with
    | some fragment => '#' :: fragment
    | none => []

def isControlOrSpace : Bool :=
  decide (c.toNat ≤ 0x20)

/-- Controls and spaces at the ends are dropped, tabs and line breaks everywhere. -/
def clean : List Char :=
  ((text.dropWhile isControlOrSpace).reverse.dropWhile isControlOrSpace).reverse.filter
    fun c => !"\t\n\r".toList.contains c

def isSchemeChar : Bool :=
  c.isAlphanum || "+-.".toList.contains c

theorem isControlOrSpace_of_le {letter c : Char} (visible : 0x20 < letter.toNat)
    (le : letter ≤ c) : isControlOrSpace c = false :=
  decide_eq_false (Nat.not_le.mpr (Nat.lt_of_lt_of_le visible le))

theorem isControlOrSpace_of_c0Set {c : Char} (plain : c0Set c = false) (notSpace : c ≠ ' ') :
    isControlOrSpace c = false := by
  have other : c.toNat ≠ 0x20 := fun space => notSpace (Char.toNat_inj.mp space)
  rw [c0Set, Bool.or_eq_false_iff, decide_eq_false_iff_not] at plain
  exact decide_eq_false (by omega)

theorem isControlOrSpace_of_isSchemeChar {c : Char} (letter : isSchemeChar c = true) :
    isControlOrSpace c = false := by
  rcases Bool.or_eq_true_iff.mp letter with alphanumeric | other
  · rcases Bool.or_eq_true_iff.mp alphanumeric with alpha | digit
    · rcases Bool.or_eq_true_iff.mp alpha with upper | lower
      · exact @isControlOrSpace_of_le 'A' c (by decide) (of_decide_eq_true upper).1
      · have least := of_decide_eq_true (Bool.and_eq_true_iff.mp lower).1
        exact @isControlOrSpace_of_le 'a' c (by decide) least
    · have least := of_decide_eq_true (Bool.and_eq_true_iff.mp digit).1
      exact @isControlOrSpace_of_le '0' c (by decide) least
  · have marks : ∀ c ∈ "+-.".toList, isControlOrSpace c = false :=
      List.all_iff_forall_prop.mp (by decide)
    exact marks c (List.contains_iff_mem.mp other)

/-- The scheme in lower case and the text behind its colon. -/
def cutScheme : Option (List Char × List Char) :=
  match text.takeWhile isSchemeChar, text.dropWhile isSchemeChar with
  | first :: rest, ':' :: later =>
    if first.isAlpha then some ((first :: rest).map Char.toLower, later) else none
  | _, _ => none

def specialSchemes : List (List Char) :=
  ["ftp", "file", "http", "https", "ws", "wss"].map String.toList

/-- The text behind a scheme that is not special and its colon, up to the query. -/
def parseBody (scheme text : List Char) (query fragment : Option (List Char)) :
    Except ParseError Url :=
  match text with
  | '/' :: '/' :: rest => do
    let authority ← parseAuthority (rest.takeWhile (· != '/'))
    return { scheme
             username := authority.username
             password := authority.password
             host := some authority.host
             port := authority.port
             path := pathText (parsePath (rest.dropWhile (· != '/')))
             query, fragment }
  | '/' :: rest =>
    .ok { scheme, username := [], password := [], host := none, port := none
          path := pathText (parsePath ('/' :: rest)), query, fragment }
  | text =>
    .ok { scheme, username := [], password := [], host := none, port := none
          path := encode c0Set text, query, fragment }

section Special

variable (special : List Char → List Char → Except ParseError Url)

/-- The URL of a text, with a parser for what stands behind a special scheme. -/
def parse (text : List Char) : Except ParseError Url :=
  match cutScheme (clean text) with
  | none => .error .relativeUrlWithoutBase
  | some (scheme, rest) =>
    if specialSchemes.contains scheme then
      (special scheme rest).map fun url => { url with scheme }
    else
      let (rest, fragment) := cutAt '#' rest
      let (body, query) := cutAt '?' rest
      parseBody scheme body (query.map (encode querySet)) (fragment.map (encode fragmentSet))

/-! ### What was parsed -/

variable {special} {text : List Char} {url : Url} {scheme host : List Char} {c : Char}

theorem scheme_of_parseBody {body : List Char} {query fragment : Option (List Char)}
    (parsed : parseBody scheme body query fragment = .ok url) : url.scheme = scheme := by
  unfold parseBody at parsed
  split at parsed
  · obtain ⟨authority, _, ⟨⟩⟩ := Fallible.bind_eq_ok.mp parsed
    rfl
  · cases parsed
    rfl
  · cases parsed
    rfl

section

variable (parsed : parse special text = .ok url)

include parsed

section

variable (ordinary : specialSchemes.contains url.scheme = false)

include ordinary

theorem parseBody_of_parse :
    ∃ body query fragment, parseBody url.scheme body query fragment = .ok url := by
  unfold parse at parsed
  split at parsed
  · cases parsed
  · rename_i scheme rest cut
    split at parsed
    · rename_i isSpecial
      obtain ⟨own, _, same⟩ := Fallible.map_eq_ok.mp parsed
      rw [← same, isSpecial] at ordinary
      cases ordinary
    · rw [scheme_of_parseBody parsed]
      exact ⟨_, _, _, parsed⟩

theorem stable_of_parse (found : url.host = some host) :
    Stable host := by
  obtain ⟨body, query, fragment, parsed⟩ := parseBody_of_parse parsed ordinary
  unfold parseBody at parsed
  split at parsed
  · obtain ⟨authority, own, same⟩ := Fallible.bind_eq_ok.mp parsed
    rw [← Except.ok.inj same] at found
    cases found
    exact stable_of_parseAuthority own
  · rw [← Except.ok.inj parsed] at found
    cases found
  · rw [← Except.ok.inj parsed] at found
    cases found

/-- A path with a slash in front is made of segments. -/
theorem path_of_parse (absolute : url.path.head? = some '/') :
    ∃ path, url.path = pathText path ∧ ∀ segment ∈ path, NormalSegment segment := by
  obtain ⟨body, query, fragment, parsed⟩ := parseBody_of_parse parsed ordinary
  unfold parseBody at parsed
  split at parsed
  · obtain ⟨authority, own, same⟩ := Fallible.bind_eq_ok.mp parsed
    rw [← Except.ok.inj same]
    exact ⟨_, rfl, fun _ => normalSegment_of_parsePath⟩
  · rw [← Except.ok.inj parsed]
    exact ⟨_, rfl, fun _ => normalSegment_of_parsePath⟩
  · rename_i plain
    rw [← Except.ok.inj parsed] at absolute
    exact absurd absolute (head_encode plain)

end

end

/-! ### What is parsed again -/

/-- A scheme that is written as it is parsed. -/
structure Ordinary (scheme : List Char) : Prop where
  first : ∃ c ∈ scheme.head?, c.isAlpha = true
  chars : ∀ c ∈ scheme, isSchemeChar c = true
  lower : scheme.map Char.toLower = scheme
  notSpecial : specialSchemes.contains scheme = false

theorem clean_eq_self (plain : ∀ c ∈ text, isControlOrSpace c = false) : clean text = text := by
  have kept {text : List Char} (plain : ∀ c ∈ text, isControlOrSpace c = false) :
      text.dropWhile isControlOrSpace = text := by
    cases text with
    | nil => rfl
    | cons c rest => rw [List.dropWhile_cons, plain c List.mem_cons_self]; rfl
  have back : text.reverse.dropWhile isControlOrSpace = text.reverse :=
    kept fun c member => plain c (List.mem_reverse.mp member)
  rw [clean, kept plain, back, List.reverse_reverse, List.filter_eq_self]
  intro c member
  have control : ∀ c ∈ "\t\n\r".toList, isControlOrSpace c = true :=
    List.all_eq_true.mp (by decide)
  rw [Bool.not_eq_true', List.contains_eq_mem, decide_eq_false_iff_not]
  exact fun removed => not_mem_of_set plain (control c removed) member

theorem Ordinary.cutScheme (ordinary : Ordinary scheme) (rest : List Char) :
    UrlText.cutScheme (scheme ++ ':' :: rest) = some (scheme, rest) := by
  obtain ⟨c, first, alpha⟩ := ordinary.first
  have colon : isSchemeChar ':' = false := by decide
  have taken : (scheme ++ ':' :: rest).takeWhile isSchemeChar = scheme := by
    rw [List.takeWhile_append_of_pos ordinary.chars, List.takeWhile_cons, colon]
    exact List.append_nil scheme
  have dropped : (scheme ++ ':' :: rest).dropWhile isSchemeChar = ':' :: rest := by
    rw [List.dropWhile_append_of_pos ordinary.chars, List.dropWhile_cons, colon]
    rfl
  have lower := ordinary.lower
  unfold UrlText.cutScheme
  rw [taken, dropped]
  cases scheme with
  | nil => cases first
  | cons head tail =>
    cases first
    refine (if_pos alpha).trans ?_
    rw [lower]

/-- A text that has nothing to clean and no query or fragment. -/
theorem parse_plain {rest : List Char} (ordinary : Ordinary scheme)
    (plain : ∀ c ∈ rest, isControlOrSpace c = false) (noQuery : '?' ∉ rest)
    (noFragment : '#' ∉ rest) :
    parse special (scheme ++ ':' :: rest) = parseBody scheme rest none none := by
  have cleaned : clean (scheme ++ ':' :: rest) = scheme ++ ':' :: rest := by
    refine clean_eq_self fun c member => ?_
    rcases List.mem_append.mp member with own | later
    · exact isControlOrSpace_of_isSchemeChar (ordinary.chars c own)
    · rcases List.mem_cons.mp later with same | later
      · rw [same]
        decide
      · exact plain c later
  rw [parse, cleaned, ordinary.cutScheme]
  dsimp only
  rw [ordinary.notSpecial, cutAt_of_not_mem noFragment]
  dsimp only
  rw [cutAt_of_not_mem noQuery]
  rfl

/-- The characters of a host and a port. -/
def isAuthorityChar (c : Char) : Bool :=
  !isControlOrSpace c && !"/?#@".toList.contains c

theorem parse_authority {authority : List Char} (ordinary : Ordinary scheme)
    (plain : ∀ c ∈ authority, isAuthorityChar c = true) :
    parse special (scheme ++ ':' :: '/' :: '/' :: authority) =
      (parseHostPort authority).map fun parsed =>
        { scheme, username := [], password := [], host := some parsed.1, port := parsed.2
          path := [], query := none, fragment := none } := by
  have absent {c : Char} (other : isAuthorityChar c = false) : c ∉ authority := by
    intro member
    rw [plain c member] at other
    cases other
  have notSlash := bne_of_not_mem (absent (c := '/') (by decide))
  have beyond {c : Char} (other : isAuthorityChar c = false) (slash : c ≠ '/') :
      c ∉ '/' :: '/' :: authority := by
    rw [List.mem_cons, List.mem_cons]
    rintro (same | same | member)
    · exact slash same
    · exact slash same
    · exact absent other member
  rw [parse_plain ordinary ?_ (beyond (by decide) (by decide)) (beyond (by decide) (by decide)),
    parseBody, List.takeWhile_eq_self_iff.mpr notSlash, List.dropWhile_eq_nil_iff.mpr notSlash,
    parseAuthority, cutAtLast_of_not_mem (absent (by decide))]
  · dsimp only
    cases parseHostPort authority with
    | error reason | ok parsed => rfl
  · intro c member
    rw [List.mem_cons, List.mem_cons] at member
    rcases member with rfl | rfl | member
    · decide
    · decide
    · have own := plain c member
      rw [isAuthorityChar, Bool.and_eq_true, Bool.not_eq_true'] at own
      exact own.1

theorem isAuthorityChar_of_isDigit (digit : isDigit 16 c = true) :
    isAuthorityChar c = true := by
  have none : ∀ c ∈ "/?#@".toList, isDigit 16 c = false :=
    List.all_iff_forall_prop.mp (by decide)
  have visible : isControlOrSpace c = false :=
    decide_eq_false (Nat.not_le.mpr (Nat.lt_of_lt_of_le (by decide) (toNat_of_isDigit digit).1))
  rw [isAuthorityChar, visible, Bool.not_false, Bool.true_and, Bool.not_eq_true',
    List.contains_eq_mem, decide_eq_false_iff_not]
  exact not_mem_of_set none digit

theorem isAuthorityChar_of_mem_port {port : UInt16}
    (member : c ∈ ':' :: Nat.toDigits 10 port.toNat) : isAuthorityChar c = true := by
  rcases List.mem_cons.mp member with same | digit
  · rw [same]
    decide
  · have own := @isDigit_of_mem_toDigits port.toNat c 10 (by decide) (by decide) digit
    exact isAuthorityChar_of_isDigit (isDigit_of_isDigit (by decide) own)

theorem Stable.isAuthorityChar (stable : Stable host) (member : c ∈ host) :
    UrlText.isAuthorityChar c = true := by
  cases stable with
  | opaqueHost allowed plain =>
    have forbidden : ∀ c ∈ "/?#@ ".toList, isForbiddenHostChar c = true :=
      List.all_eq_true.mp (by decide)
    have absent (separator : c ∈ "/?#@ ".toList) : False :=
      not_mem_of_set allowed (forbidden c separator) member
    have visible : isControlOrSpace c = false := by
      refine isControlOrSpace_of_c0Set (plain c member) ?_
      rintro rfl
      exact absent (by decide)
    rw [UrlText.isAuthorityChar, visible, Bool.not_false, Bool.true_and, Bool.not_eq_true',
      List.contains_eq_mem, decide_eq_false_iff_not]
    exact fun separator => absent (List.mem_append_left [' '] separator)
  | address eight =>
    rw [bracketed, List.mem_cons, List.mem_append, List.mem_singleton] at member
    rcases member with rfl | inner | rfl
    · decide
    · rcases mem_ipv6Text inner with digit | rfl
      · exact isAuthorityChar_of_isDigit digit
      · decide
    · decide

variable (ordinary : Ordinary scheme)

include ordinary

theorem parse_host_port (stable : Stable host) (some_ : host ≠ []) (port : UInt16) :
    parse special
        (scheme ++ ':' :: '/' :: '/' :: (host ++ ':' :: Nat.toDigits 10 port.toNat)) =
      .ok { scheme, username := [], password := [], host := some host, port := some port
            path := [], query := none, fragment := none } := by
  rw [parse_authority ordinary, stable.parseHostPort some_]
  · rfl
  · intro c member
    rcases List.mem_append.mp member with own | later
    · exact stable.isAuthorityChar own
    · exact isAuthorityChar_of_mem_port later

/-- An address with colons needs its brackets. -/
theorem parse_colons {address : List Char}
    (plain : ∀ c ∈ address, isDigit 16 c = true ∨ c = ':' ∨ c = '.') (colon : ':' ∈ address)
    (port : UInt16) :
    parse special
        (scheme ++ ':' :: '/' :: '/' :: (address ++ ':' :: Nat.toDigits 10 port.toNat)) ≠
      .ok url := by
  have allowed : ∀ c ∈ address, isAuthorityChar c = true ∧ c ≠ '[' := by
    intro c member
    rcases plain c member with digit | rfl | rfl
    · refine ⟨isAuthorityChar_of_isDigit digit, ?_⟩
      rintro rfl
      exact absurd digit (by decide)
    · decide
    · decide
  obtain ⟨front, back, rfl, first⟩ := List.eq_append_cons_of_mem colon
  intro parsed
  rw [parse_authority ordinary] at parsed
  · obtain ⟨result, own, _⟩ := Fallible.map_eq_ok.mp parsed
    rw [List.append_assoc, List.cons_append] at own
    refine parseHostPort_colons (fun c member => ?_) ?_ result own
    · refine ⟨fun same => first (same ▸ member), ?_⟩
      exact (allowed c (List.mem_append_left _ member)).2
    · exact List.mem_append_right _ List.mem_cons_self
  · intro c member
    rcases List.mem_append.mp member with own | later
    · exact (allowed c own).1
    · exact isAuthorityChar_of_mem_port later

/-- A path behind an additional slash: its first segment is taken for the authority. -/
theorem parse_path (normal : ∀ member ∈ segment :: path, NormalSegment member) :
    parse special (scheme ++ ':' :: '/' :: pathText (segment :: path)) =
      (parseAuthority segment).map fun authority =>
        { scheme
          username := authority.username
          password := authority.password
          host := some authority.host
          port := authority.port
          path := pathText path
          query := none
          fragment := none } := by
  have chars : ∀ c ∈ '/' :: pathText (segment :: path), pathSet c = false := by
    intro c member
    rcases List.mem_cons.mp member with same | member
    · rw [same]
      decide
    · obtain ⟨own, present, inside⟩ := List.mem_flatMap.mp member
      rcases List.mem_cons.mp inside with same | inside
      · rw [same]
        decide
      · exact (normal own present).plain c inside
  have absent {c : Char} (encoded : pathSet c = true) := not_mem_of_set chars encoded
  have visible : ∀ c ∈ '/' :: pathText (segment :: path), isControlOrSpace c = false := by
    intro c member
    have own := chars c member
    rw [pathSet, querySet, Bool.or_eq_false_iff, Bool.or_eq_false_iff] at own
    refine isControlOrSpace_of_c0Set own.1.1 ?_
    rintro rfl
    exact absurd own.1.2 (by decide)
  have notSlash := bne_of_not_mem (normal segment List.mem_cons_self).noSlash
  have taken : (segment ++ pathText path).takeWhile (· != '/') = segment := by
    rw [List.takeWhile_append_of_pos notSlash]
    cases path with
    | nil | cons second path => exact List.append_nil segment
  have dropped : (segment ++ pathText path).dropWhile (· != '/') = pathText path := by
    rw [List.dropWhile_append_of_pos notSlash]
    cases path with
    | nil | cons second path => rfl
  rw [parse_plain ordinary visible (absent (by decide)) (absent (by decide)), pathText_cons,
    parseBody, taken, dropped,
    parsePath_pathText fun member present => normal member (List.mem_cons_of_mem _ present)]
  cases parseAuthority segment with
  | error reason | ok authority => rfl

end Special

end UrlText
