/-
This file is a small library about IP addresses as texts.

An IPv4 address is written as its four octets, an IPv6 address as its eight pieces in hexadecimal,
with the first of its longest runs of zeros left out. There are two readers of IPv6 addresses. The
one of a standard library reads a part of a text, takes the octets of an IPv4 address for the last
two pieces, and fails where it cannot go on (`readIpv6`). The one of URLs reads a whole text and
keeps the place of the double colon (`parseIpv6`).

An IPv4 address is read back in front of anything that is not a digit (`readIpv4_ipv4Text`), and the
reader of URLs reads an IPv6 address back (`parseIpv6_ipv6Text`). Whatever is read as an IPv6
address has a colon (`readIpv6_eq_some`).
-/

import Karyon.Lib.NumberText

namespace IpText

open NumberText

/-! ### IPv4 addresses -/

/-- Texts with a separator between them. -/
def join (separator : Char) : List (List Char) → List Char
  | [] => []
  | [last] => last
  | first :: rest => first ++ separator :: join separator rest

theorem join_cons (separator : Char) (first : List Char) {rest : List (List Char)}
    (more : rest ≠ []) :
    join separator (first :: rest) = first ++ separator :: join separator rest := by
  cases rest with
  | nil => exact absurd rfl more
  | cons second rest => rfl

variable {rest chars : List Char} {c : Char} {octets : List UInt8}

theorem mem_join {separator : Char} {texts : List (List Char)} (member : c ∈ join separator texts) :
    c = separator ∨ ∃ text ∈ texts, c ∈ text := by
  induction texts with
  | nil => cases member
  | cons first rest inductionHypothesis =>
    by_cases more : rest = []
    · subst more
      exact .inr ⟨first, List.mem_singleton_self _, member⟩
    · rw [join_cons separator first more, List.mem_append, List.mem_cons] at member
      rcases member with own | same | later
      · exact .inr ⟨first, List.mem_cons_self, own⟩
      · exact .inl same
      · refine (inductionHypothesis later).imp_right ?_
        rintro ⟨text, present, inside⟩
        exact ⟨text, List.mem_cons_of_mem _ present, inside⟩

def ipv4Text (octets : List UInt8) : List Char :=
  join '.' (octets.map fun octet => Nat.toDigits 10 octet.toNat)

def readOctet (chars : List Char) : Option (UInt8 × List Char) :=
  (readNumber 10 3 256 false chars).map fun read => (.ofNat read.1, read.2)

def readIpv4 (chars : List Char) : Option (List UInt8 × List Char) := do
  let (first, chars) ← readOctet chars
  let (second, chars) ← readSeparator '.' readOctet chars
  let (third, chars) ← readSeparator '.' readOctet chars
  let (fourth, chars) ← readSeparator '.' readOctet chars
  return ([first, second, third, fourth], chars)

theorem readOctet_toDigits (octet : UInt8) (ends : EndsNumber 10 rest) :
    readOctet (Nat.toDigits 10 octet.toNat ++ rest) = some (octet, rest) := by
  have small := octet.toNat_lt
  rw [readOctet, readNumber_toDigits (by decide) (by decide) false small
    (Nat.lt_trans small (by decide)) (by decide) ends, Option.map_some, UInt8.ofNat_toNat]

theorem readIpv4_ipv4Text (four : octets.length = 4) (ends : EndsNumber 10 rest) :
    readIpv4 (ipv4Text octets ++ rest) = some (octets, rest) := by
  obtain ⟨first, second, third, fourth, rfl⟩ := List.length_eq_four.mp four
  have dot (rest : List Char) : EndsNumber 10 ('.' :: rest) := endsNumber_cons rfl rest
  simp only [ipv4Text, List.map_cons, List.map_nil, join, List.append_assoc, List.cons_append]
  rw [readIpv4, readOctet_toDigits first (dot _), Option.bind_eq_bind, Option.bind_some]
  dsimp only
  rw [readSeparator_cons, readOctet_toDigits second (dot _), Option.bind_some]
  dsimp only
  rw [readSeparator_cons, readOctet_toDigits third (dot _), Option.bind_some]
  dsimp only
  rw [readSeparator_cons, readOctet_toDigits fourth ends]
  rfl

theorem suffix_of_readOctet {octet : UInt8} (read : readOctet chars = some (octet, rest)) :
    rest <:+ chars := by
  obtain ⟨⟨n, _⟩, found, ⟨⟩⟩ := Option.map_eq_some_iff.mp read
  exact suffix_of_readNumber found

theorem suffix_of_readSeparator {Read : Type} {separator : Char}
    {read : List Char → Option (Read × List Char)} {result : Read}
    (suffix : ∀ {chars}, read chars = some (result, rest) → rest <:+ chars)
    (found : readSeparator separator read chars = some (result, rest)) : rest <:+ chars := by
  obtain ⟨later, rfl, its⟩ := readSeparator_eq_some found
  exact (suffix its).trans (List.suffix_cons _ _)

theorem readIpv4_eq_some (read : readIpv4 chars = some (octets, rest)) :
    octets.length = 4 ∧ rest <:+ chars := by
  unfold readIpv4 at read
  obtain ⟨⟨_, second⟩, first, read⟩ := Option.bind_eq_some_iff.mp read
  obtain ⟨⟨_, third⟩, next, read⟩ := Option.bind_eq_some_iff.mp read
  obtain ⟨⟨_, fourth⟩, later, read⟩ := Option.bind_eq_some_iff.mp read
  obtain ⟨⟨_, after⟩, last, read⟩ := Option.bind_eq_some_iff.mp read
  cases read
  exact ⟨rfl, (suffix_of_readSeparator suffix_of_readOctet last).trans
    ((suffix_of_readSeparator suffix_of_readOctet later).trans
      ((suffix_of_readSeparator suffix_of_readOctet next).trans (suffix_of_readOctet first)))⟩

/-! ### Reading a part of a text as an IPv6 address -/

def readGroup (chars : List Char) : Option (UInt16 × List Char) :=
  (readNumber 16 4 65536 true chars).map fun read => (.ofNat read.1, read.2)

/-- Read with a separator in front, unless it is the first that is read. -/
def readNext {Read : Type} (isFirst : Bool) (read : List Char → Option (Read × List Char))
    (chars : List Char) : Option (Read × List Char) :=
  if isFirst then read chars else readSeparator ':' read chars

/-- Read groups into so many slots, the last two perhaps as an IPv4 address. The result says
whether that was so. -/
def readGroups : Nat → Bool → List Char → List UInt16 × Bool × List Char
  | 0, _, chars => ([], false, chars)
  | slots + 1, isFirst, chars =>
    match if 0 < slots then readNext isFirst readIpv4 chars else none with
    | some ([one, two, three, four], rest) =>
      ([one.toUInt16 * 256 + two.toUInt16, three.toUInt16 * 256 + four.toUInt16], true, rest)
    | _ =>
      match readNext isFirst readGroup chars with
      | some (group, rest) =>
        let (groups, ipv4, rest) := readGroups slots false rest
        (group :: groups, ipv4, rest)
      | none => ([], false, chars)

/-- Read an IPv6 address: eight groups, or fewer around a double colon. -/
def readIpv6 (chars : List Char) : Option (List UInt16 × List Char) :=
  let (head, ipv4, chars) := readGroups 8 true chars
  if head.length = 8 then some (head, chars)
  else if ipv4 then none
  else do
    let chars ← readGivenChar ':' chars
    let chars ← readGivenChar ':' chars
    let (tail, _, chars) := readGroups (8 - (head.length + 1)) true chars
    return (head ++ List.replicate (8 - head.length - tail.length) 0 ++ tail, chars)

inductive Ip where
  | v4 (octets : List UInt8)
  | v6 (pieces : List UInt16)

def readIp (chars : List Char) : Option Ip :=
  match readIpv4 chars with
  | some (octets, rest) => if rest.isEmpty then some (.v4 octets) else none
  | none =>
    match readIpv6 chars with
    | some (pieces, rest) => if rest.isEmpty then some (.v6 pieces) else none
    | none => none

theorem suffix_of_readNext {Read : Type} {isFirst : Bool}
    {read : List Char → Option (Read × List Char)} {result : Read}
    (suffix : ∀ {chars}, read chars = some (result, rest) → rest <:+ chars)
    (found : readNext isFirst read chars = some (result, rest)) : rest <:+ chars := by
  unfold readNext at found
  split at found
  · exact suffix found
  · exact suffix_of_readSeparator suffix found

theorem suffix_of_readGroup {group : UInt16} (read : readGroup chars = some (group, rest)) :
    rest <:+ chars := by
  obtain ⟨⟨n, _⟩, found, ⟨⟩⟩ := Option.map_eq_some_iff.mp read
  exact suffix_of_readNumber found

theorem suffix_of_readGroups (slots : Nat) (isFirst : Bool) (chars : List Char) :
    (readGroups slots isFirst chars).2.2 <:+ chars := by
  fun_induction readGroups slots isFirst chars with
  | case1 | case4 => exact List.suffix_refl _
  | case2 _ _ _ _ _ _ _ _ found =>
    exact suffix_of_readNext (fun read => (readIpv4_eq_some read).2)
      (Option.ite_none_right_eq_some.mp found).2
  | case3 _ _ _ _ _ found _ _ _ others _ inductionHypothesis =>
    rw [others] at inductionHypothesis
    exact inductionHypothesis.trans (suffix_of_readNext suffix_of_readGroup found)

/-- Behind the first group there is a colon in front of every other. -/
theorem colon_of_readGroups {slots : Nat} (some_ : (readGroups slots false chars).1 ≠ []) :
    ':' ∈ chars := by
  have colon {Read : Type} {read : List Char → Option (Read × List Char)}
      {result : Read × List Char} (found : readSeparator ':' read chars = some result) :
      ':' ∈ chars := by
    obtain ⟨rest, rfl, _⟩ := readSeparator_eq_some found
    exact List.mem_cons_self
  cases slots with
  | zero => exact absurd rfl some_
  | succ slots =>
    rw [readGroups] at some_
    split at some_
    · rename_i found
      exact colon (Option.ite_none_right_eq_some.mp found).2
    · split at some_
      · rename_i found
        exact colon found
      · exact absurd rfl some_

/-- More than two groups have a colon between them. -/
theorem colon_of_length_readGroups {slots : Nat}
    (many : 2 < (readGroups slots true chars).1.length) : ':' ∈ chars := by
  cases slots with
  | zero => cases many
  | succ slots =>
    rw [readGroups] at many
    split at many
    · exact absurd many (Nat.lt_irrefl 2)
    · split at many
      · rename_i rest found
        have others : (readGroups slots false rest).1 ≠ [] := by
          intro none
          simp only [none, List.length_cons, List.length_nil] at many
          exact absurd many (by decide)
        exact (suffix_of_readNext suffix_of_readGroup found).subset (colon_of_readGroups others)
      · cases many

theorem length_readGroups (slots : Nat) (isFirst : Bool) (chars : List Char) :
    (readGroups slots isFirst chars).1.length ≤ slots := by
  fun_induction readGroups slots isFirst chars with
  | case1 | case4 => exact Nat.zero_le _
  | case2 _ _ _ _ _ _ _ _ found =>
    exact Nat.succ_le_succ (Option.ite_none_right_eq_some.mp found).1
  | case3 _ _ _ _ _ _ _ _ _ others _ inductionHypothesis =>
    rw [others] at inductionHypothesis
    exact Nat.succ_le_succ inductionHypothesis

variable {pieces : List UInt16}

theorem readGivenChar_eq_some {given : Char} (read : readGivenChar given chars = some rest) :
    chars = given :: rest := by
  cases chars with
  | nil => cases read
  | cons c later =>
    obtain ⟨same, ⟨⟩⟩ := Option.ite_none_right_eq_some.mp read
    rw [same]

/-- An IPv6 address has eight pieces, and whatever is read as one has a colon. -/
theorem readIpv6_eq_some (read : readIpv6 chars = some (pieces, rest)) :
    pieces.length = 8 ∧ ':' ∈ chars := by
  unfold readIpv6 at read
  dsimp only at read
  split at read
  · rename_i eight
    cases read
    exact ⟨eight, colon_of_length_readGroups (by rw [eight]; decide)⟩
  · obtain ⟨_, read⟩ := Option.ite_none_left_eq_some.mp read
    obtain ⟨later, first, read⟩ := Option.bind_eq_some_iff.mp read
    obtain ⟨left, _, ⟨⟩⟩ := Option.bind_eq_some_iff.mp read
    refine ⟨?_, (suffix_of_readGroups 8 true chars).subset ?_⟩
    · have head := length_readGroups 8 true chars
      have tail := length_readGroups (8 - ((readGroups 8 true chars).1.length + 1)) true left
      simp only [List.length_append, List.length_replicate]
      omega
    · rw [readGivenChar_eq_some first]
      exact List.mem_cons_self

theorem readIp_ipv4Text (four : octets.length = 4) :
    readIp (ipv4Text octets) = some (.v4 octets) := by
  have read := readIpv4_ipv4Text four (endsNumber_nil 10)
  rw [List.append_nil] at read
  rw [readIp, read]
  rfl

/-- Only a text with a colon is read as an IPv6 address. -/
theorem readIp_eq_some {ip : Ip} (read : readIp chars = some ip) :
    (∃ octets, ip = .v4 octets ∧ octets.length = 4) ∨ ':' ∈ chars := by
  unfold readIp at read
  split at read
  · rename_i octets rest found
    obtain ⟨_, ⟨⟩⟩ := Option.ite_none_right_eq_some.mp read
    exact .inl ⟨octets, rfl, (readIpv4_eq_some found).1⟩
  · split at read
    · rename_i found
      exact .inr (readIpv6_eq_some found).2
    · cases read

theorem readIp_bracket (rest : List Char) : readIp ('[' :: rest) = none := by
  have octet : readOctet ('[' :: rest) = none := by
    rw [readOctet, readNumber_cons_eq_none rfl]
    rfl
  have group : readGroup ('[' :: rest) = none := by
    rw [readGroup, readNumber_cons_eq_none rfl]
    rfl
  have ipv4 : readIpv4 ('[' :: rest) = none := by
    rw [readIpv4, octet]
    rfl
  have groups : readGroups 8 true ('[' :: rest) = ([], false, '[' :: rest) := by
    simp only [readGroups, readNext, ipv4, group, if_true, ite_self]
  have ipv6 : readIpv6 ('[' :: rest) = none := by
    rw [readIpv6, groups]
    rfl
  rw [readIp, ipv4, ipv6]

/-! ### The text of an IPv6 address -/

/-- A run of zeros: where it begins and how long it is. -/
structure Span where
  start : Nat
  len : Nat

/-- Look for the longest run of zeros from an index on, the current run being the one that ends
there. -/
def longestZerosFrom (index : Nat) (current longest : Span) : List UInt16 → Span
  | [] => longest
  | piece :: rest =>
    if piece = 0 then
      let current := ⟨if current.len = 0 then index else current.start, current.len + 1⟩
      longestZerosFrom (index + 1) current
        (if longest.len < current.len then current else longest) rest
    else longestZerosFrom (index + 1) ⟨0, 0⟩ longest rest

/-- The first of the longest runs of zeros. -/
def longestZeros (pieces : List UInt16) : Span :=
  longestZerosFrom 0 ⟨0, 0⟩ ⟨0, 0⟩ pieces

def groupsText (groups : List UInt16) : List Char :=
  join ':' (groups.map fun group => Nat.toDigits 16 group.toNat)

/-- The pieces in hexadecimal, with the longest run of at least two zeros as a double colon. -/
def ipv6Text (pieces : List UInt16) : List Char :=
  let zeros := longestZeros pieces
  if 1 < zeros.len then
    groupsText (pieces.take zeros.start) ++ ':' :: ':' ::
      groupsText (pieces.drop (zeros.start + zeros.len))
  else groupsText pieces

/-- A standard library writes the addresses that stand for an IPv4 address with its octets. -/
def displayIpv6 (pieces : List UInt16) : List Char :=
  match pieces with
  | [0, 0, 0, 0, 0, 0xffff, high, low] =>
    "::ffff:".toList ++
      ipv4Text [(high >>> 8).toUInt8, high.toUInt8, (low >>> 8).toUInt8, low.toUInt8]
  | _ => ipv6Text pieces

/-- The pieces of a span are zeros. -/
def Span.Zeros (span : Span) (pieces : List UInt16) : Prop :=
  ∀ place, span.start ≤ place → place < span.start + span.len → pieces[place]? = some 0

/-- The search keeps to runs of zeros of the whole list. -/
theorem zeros_longestZerosFrom {rest : List UInt16} {index : Nat} {current longest : Span}
    (left : pieces.drop index = rest) (zeros : current.Zeros pieces)
    (ends : current.len ≠ 0 → current.start + current.len = index) (found : longest.Zeros pieces) :
    (longestZerosFrom index current longest rest).Zeros pieces := by
  fun_induction longestZerosFrom index current longest rest with
  | case1 => exact found
  | case2 index current longest rest next inductionHypothesis =>
    have extended : next.Zeros pieces := by
      intro place after before
      by_cases last : place = index
      · rw [last, ← List.head?_drop, left, List.head?_cons]
      · by_cases none : current.len = 0
        · simp only [next, if_pos none] at after before
          omega
        · have reached := ends none
          simp only [next, if_neg none] at after before
          exact zeros place after (by omega)
    refine inductionHypothesis (by rw [← List.tail_drop, left, List.tail_cons]) extended
      (fun _ => ?_) ?_
    · by_cases none : current.len = 0
      · simp only [next, none, if_true, Nat.zero_add]
      · simp only [next, if_neg none, ← ends none, Nat.add_assoc]
    · split
      · exact extended
      · exact found
  | case3 index current longest piece rest _ inductionHypothesis =>
    refine inductionHypothesis (by rw [← List.tail_drop, left, List.tail_cons]) ?_ (absurd rfl)
      found
    intro place _ before
    exact absurd before (Nat.not_lt_zero place)

theorem zeros_longestZeros (pieces : List UInt16) : (longestZeros pieces).Zeros pieces := by
  have empty : Span.Zeros ⟨0, 0⟩ pieces := fun place _ before => absurd before (by simp)
  exact zeros_longestZerosFrom List.drop_zero empty (absurd rfl) empty

theorem Span.Zeros.eq_append {span : Span} (zeros : span.Zeros pieces) (some_ : span.len ≠ 0) :
    span.start + span.len ≤ pieces.length ∧
      pieces = pieces.take span.start ++ List.replicate span.len 0 ++
        pieces.drop (span.start + span.len) := by
  have last := zeros (span.start + span.len - 1) (by omega) (by omega)
  obtain ⟨inside, _⟩ := List.getElem?_eq_some_iff.mp last
  have fits : span.start + span.len ≤ pieces.length := by omega
  have middle : (pieces.drop span.start).take span.len = List.replicate span.len 0 := by
    refine List.ext_getElem? fun place => ?_
    rw [List.getElem?_take, List.getElem?_drop, List.getElem?_replicate]
    split
    · exact zeros _ (Nat.le_add_right _ _) (by omega)
    · rfl
  refine ⟨fits, ?_⟩
  rw [← middle, List.append_assoc, ← List.drop_drop, List.take_append_drop, List.take_append_drop]

/-! ### Reading a whole text as an IPv6 address -/

/-- The loop of the reader of URLs over the pieces, with the place of the double colon. -/
def parsePieces : Nat → List Char → List UInt16 → Option Nat →
    Option (List UInt16 × Option Nat)
  | _, [], pieces, compress => some (pieces, compress)
  | 0, _ :: _, _, _ => none
  | fuel + 1, c :: rest, pieces, compress =>
    if pieces.length = 8 then none
    else if c = ':' then
      if compress.isSome then none
      else parsePieces fuel rest (pieces ++ [0]) (some (pieces.length + 1))
    else
      let digits := ((c :: rest).take 4).takeWhile (isDigit 16)
      let piece := UInt16.ofNat (value 16 digits)
      match (c :: rest).drop digits.length with
      | [] => some (pieces ++ [piece], compress)
      | '.' :: _ =>
        if digits.isEmpty || decide (6 < pieces.length) then none
        else
          match readIpv4 (c :: rest) with
          | some ([one, two, three, four], []) =>
            some (pieces ++ [one.toUInt16 * 256 + two.toUInt16,
              three.toUInt16 * 256 + four.toUInt16], compress)
          | _ => none
      | ':' :: later =>
        if later.isEmpty then none else parsePieces fuel later (pieces ++ [piece]) compress
      | _ => none

/-- The loop from its start, behind a double colon that stands in front. -/
def startPieces (chars : List Char) : Option (List UInt16 × Option Nat) :=
  match chars with
  | ':' :: ':' :: rest => parsePieces rest.length rest [0] (some 1)
  | ':' :: _ => none
  | _ => parsePieces chars.length chars [] none

/-- Fill up the pieces with zeros at the double colon. Without one there must be eight. -/
def expand (pieces : List UInt16) (compress : Option Nat) : Option (List UInt16) :=
  match compress with
  | some place =>
    some (pieces.take place ++ List.replicate (8 - pieces.length) 0 ++ pieces.drop place)
  | none => if pieces.length = 8 then some pieces else none

/-- Read a whole text as an IPv6 address, as URLs do. -/
def parseIpv6 (chars : List Char) : Option (List UInt16) := do
  let (pieces, compress) ← startPieces chars
  expand pieces compress

section Pieces

variable {pieces : List UInt16} {compress : Option Nat} (group : UInt16)

theorem length_toDigits_group : (Nat.toDigits 16 group.toNat).length ≤ 4 :=
  (Nat.length_toDigits_le_iff (by decide) (by decide)).mpr group.toNat_lt

/-- The digits of a group, in front of anything that is not a digit. -/
theorem takeWhile_take_group (ends : EndsNumber 16 rest) :
    ((Nat.toDigits 16 group.toNat ++ rest).take 4).takeWhile (isDigit 16) =
      Nat.toDigits 16 group.toNat := by
  rw [List.take_append, List.take_of_length_le (length_toDigits_group group)]
  refine takeWhile_toDigits (by decide) (by decide) _ ?_
  intro c found
  refine ends c ?_
  rw [List.head?_take] at found
  obtain ⟨_, found⟩ := Option.ite_none_left_eq_some.mp found
  exact found

theorem ofNat_value_toDigits : UInt16.ofNat (value 16 (Nat.toDigits 16 group.toNat)) = group := by
  rw [value_toDigits (by decide) (by decide), UInt16.ofNat_toNat]

theorem toDigits_group_eq_cons : ∃ c rest, Nat.toDigits 16 group.toNat = c :: rest ∧ c ≠ ':' := by
  cases digits : Nat.toDigits 16 group.toNat with
  | nil => exact absurd digits Nat.toDigits_ne_nil
  | cons c rest =>
    refine ⟨c, rest, rfl, ?_⟩
    rintro rfl
    have digit : isDigit 16 ':' = true :=
      isDigit_of_mem_toDigits (by decide) (by decide) (digits ▸ List.mem_cons_self)
    exact absurd digit (by decide)

/-- One group in front of the colon that ends it. -/
theorem parsePieces_group (fuel : Nat) {later : List Char} (more : later ≠ [])
    (room : pieces.length ≠ 8) :
    parsePieces (fuel + 1) (Nat.toDigits 16 group.toNat ++ ':' :: later) pieces compress =
      parsePieces fuel later (pieces ++ [group]) compress := by
  have taken := takeWhile_take_group group (@endsNumber_cons ':' 16 rfl later)
  have left : (Nat.toDigits 16 group.toNat ++ ':' :: later).drop
      (Nat.toDigits 16 group.toNat).length = ':' :: later := List.drop_left
  have read := ofNat_value_toDigits group
  obtain ⟨c, digits, first, other⟩ := toDigits_group_eq_cons group
  rw [first] at taken read left ⊢
  rw [List.cons_append] at taken left ⊢
  rw [parsePieces, if_neg room, if_neg other]
  dsimp only
  rw [taken, read, left]
  exact if_neg (by rwa [List.isEmpty_iff])

theorem parsePieces_last (fuel : Nat) (room : pieces.length ≠ 8) :
    parsePieces (fuel + 1) (Nat.toDigits 16 group.toNat) pieces compress =
      some (pieces ++ [group], compress) := by
  have taken := takeWhile_take_group group (endsNumber_nil 16)
  have read := ofNat_value_toDigits group
  rw [List.append_nil] at taken
  obtain ⟨c, digits, first, other⟩ := toDigits_group_eq_cons group
  rw [first] at taken read ⊢
  rw [parsePieces, if_neg room, if_neg other]
  dsimp only
  rw [taken, read, List.drop_length]

variable {groups : List UInt16}

theorem groupsText_cons (more : groups ≠ []) :
    groupsText (group :: groups) = Nat.toDigits 16 group.toNat ++ ':' :: groupsText groups := by
  rw [groupsText, List.map_cons, join_cons]
  · rfl
  · rwa [ne_eq, List.map_eq_nil_iff]

theorem groupsText_singleton : groupsText [group] = Nat.toDigits 16 group.toNat :=
  rfl

theorem groupsText_eq_append (groups : List UInt16) :
    ∃ rest, groupsText (group :: groups) = Nat.toDigits 16 group.toNat ++ rest := by
  cases groups with
  | nil => exact ⟨[], (List.append_nil _).symm⟩
  | cons next groups => exact ⟨_, rfl⟩

theorem groupsText_ne_nil (some_ : groups ≠ []) : groupsText groups ≠ [] := by
  obtain ⟨group, groups, rfl⟩ := List.exists_cons_of_ne_nil some_
  obtain ⟨rest, text⟩ := groupsText_eq_append group groups
  rw [text]
  exact List.append_ne_nil_of_left_ne_nil Nat.toDigits_ne_nil _

theorem parsePieces_groups {fuel : Nat} (enough : groups.length ≤ fuel)
    (room : pieces.length + groups.length ≤ 8) :
    parsePieces fuel (groupsText groups) pieces compress = some (pieces ++ groups, compress) := by
  induction groups generalizing fuel pieces with
  | nil =>
    rw [groupsText, List.map_nil, join, parsePieces, List.append_nil]
  | cons group groups inductionHypothesis =>
    rw [List.length_cons] at enough room
    obtain ⟨fuel, rfl⟩ := Nat.exists_eq_add_of_le' (Nat.lt_of_lt_of_le (Nat.succ_pos _) enough)
    by_cases more : groups = []
    · subst more
      exact parsePieces_last group fuel (by omega)
    · rw [groupsText_cons group more,
        parsePieces_group group fuel (groupsText_ne_nil more) (by omega),
        inductionHypothesis (by omega) (by rw [List.length_append, List.length_singleton]; omega),
        List.append_assoc, List.singleton_append]

theorem parsePieces_compress (fuel : Nat) (some_ : groups ≠ [])
    (room : pieces.length + groups.length < 8) (rest : List Char) :
    parsePieces (fuel + 1 + groups.length) (groupsText groups ++ ':' :: ':' :: rest) pieces none =
      parsePieces fuel rest (pieces ++ groups ++ [0])
        (some (pieces.length + groups.length + 1)) := by
  induction groups generalizing pieces with
  | nil => exact absurd rfl some_
  | cons group groups inductionHypothesis =>
    rw [List.length_cons] at room ⊢
    rw [← Nat.add_assoc]
    by_cases more : groups = []
    · subst more
      rw [groupsText_singleton, parsePieces_group group _ (List.cons_ne_nil _ _) (by omega)]
      have full : (pieces ++ [group]).length ≠ 8 := by
        rw [List.length_append, List.length_singleton]
        rw [List.length_nil] at room
        omega
      rw [List.length_nil, Nat.add_zero, parsePieces, if_neg full, if_pos rfl, List.length_append]
      rfl
    · rw [groupsText_cons group more, List.append_assoc, List.cons_append,
        parsePieces_group group _ ?_ (by omega),
        inductionHypothesis more (by rw [List.length_append, List.length_singleton]; omega),
        List.append_assoc pieces, List.singleton_append, List.length_append, List.length_singleton]
      · congr 2
        omega
      · exact List.append_ne_nil_of_left_ne_nil (groupsText_ne_nil more) _

end Pieces

theorem length_le_groupsText (groups : List UInt16) :
    groups.length ≤ (groupsText groups).length := by
  induction groups with
  | nil => exact Nat.le_refl 0
  | cons group groups inductionHypothesis =>
    by_cases more : groups = []
    · subst more
      exact List.length_pos_iff.mpr (groupsText_ne_nil (List.cons_ne_nil _ _))
    · rw [groupsText_cons group more, List.length_append, List.length_cons, List.length_cons]
      omega

theorem parseIpv6_of_head (other : chars.head? ≠ some ':') :
    parseIpv6 chars =
      (parsePieces chars.length chars [] none).bind fun read => expand read.1 read.2 := by
  have start : startPieces chars = parsePieces chars.length chars [] none := by
    unfold startPieces
    split
    · exact absurd rfl other
    · exact absurd rfl other
    · rfl
  rw [parseIpv6, start]
  rfl

theorem expand_compress {front back : List UInt16} (room : front.length + back.length < 8) :
    expand (front ++ [0] ++ back) (some (front.length + 1)) =
      some (front ++ List.replicate (8 - (front.length + back.length)) 0 ++ back) := by
  have before : (front ++ [0]).length = front.length + 1 := List.length_append
  have zeros : 8 - (front.length + back.length) =
      8 - (front ++ [0] ++ back).length + 1 := by
    rw [List.length_append, before]
    omega
  rw [expand, ← before, List.take_left, List.drop_left, zeros, List.replicate_succ,
    List.append_assoc front, List.singleton_append]

theorem head_groupsText {groups : List UInt16} (some_ : groups ≠ []) (rest : List Char) :
    (groupsText groups ++ rest).head? ≠ some ':' := by
  obtain ⟨group, groups, rfl⟩ := List.exists_cons_of_ne_nil some_
  obtain ⟨others, text⟩ := groupsText_eq_append group groups
  obtain ⟨c, digits, first, other⟩ := toDigits_group_eq_cons group
  rw [text, first]
  exact fun same => other (Option.some_inj.mp same)

/-- The groups around a double colon are read with the zeros that it stands for. -/
theorem parseIpv6_compressed {front back : List UInt16} (room : front.length + back.length < 8) :
    parseIpv6 (groupsText front ++ ':' :: ':' :: groupsText back) =
      some (front ++ List.replicate (8 - (front.length + back.length)) 0 ++ back) := by
  have enough := length_le_groupsText back
  have read {fuel : Nat} (enough : back.length ≤ fuel) :
      parsePieces fuel (groupsText back) (front ++ [0]) (some (front.length + 1)) =
        some (front ++ [0] ++ back, some (front.length + 1)) := by
    refine parsePieces_groups enough ?_
    rw [List.length_append, List.length_singleton]
    omega
  rw [← expand_compress room]
  by_cases first : front = []
  · subst first
    have own := read enough
    rw [List.nil_append, List.length_nil, Nat.zero_add] at own
    rw [groupsText, List.map_nil, join, List.nil_append, parseIpv6, startPieces, own]
    rfl
  · have frontEnough := length_le_groupsText front
    have length : (groupsText front ++ ':' :: ':' :: groupsText back).length =
        (groupsText front).length - front.length + 1 + (groupsText back).length + 1 +
          front.length := by
      simp only [List.length_append, List.length_cons]
      omega
    rw [parseIpv6_of_head (head_groupsText first _), length,
      parsePieces_compress _ first (by rw [List.length_nil]; omega), List.nil_append,
      List.length_nil, Nat.zero_add, read (by omega)]
    rfl

theorem parseIpv6_ipv6Text (eight : pieces.length = 8) :
    parseIpv6 (ipv6Text pieces) = some pieces := by
  unfold ipv6Text
  dsimp only
  split
  · rename_i run
    obtain ⟨fits, around⟩ := (zeros_longestZeros pieces).eq_append (by omega)
    have room : (pieces.take (longestZeros pieces).start).length +
        (pieces.drop ((longestZeros pieces).start + (longestZeros pieces).len)).length =
          8 - (longestZeros pieces).len := by
      rw [List.length_take, List.length_drop]
      omega
    rw [parseIpv6_compressed (by omega), room, Nat.sub_sub_self (by omega), ← around]
  · have some_ : pieces ≠ [] := by
      rintro rfl
      cases eight
    have head := head_groupsText some_ []
    rw [List.append_nil] at head
    rw [parseIpv6_of_head head, parsePieces_groups (length_le_groupsText pieces)
      (by rw [List.length_nil]; omega), List.nil_append]
    exact if_pos eight

/-! ### What the texts are made of -/

/-- Pieces that were read, with room for the place of the double colon. -/
theorem length_of_parsePieces {fuel : Nat} {read : List UInt16} {compress place : Option Nat}
    (room : pieces.length ≤ 8) (inside : ∀ k, compress = some k → k ≤ pieces.length)
    (found : parsePieces fuel chars pieces compress = some (read, place)) :
    read.length ≤ 8 ∧ ∀ k, place = some k → k ≤ read.length := by
  have later {pieces : List UInt16} {compress : Option Nat}
      (inside : ∀ k, compress = some k → k ≤ pieces.length) (more : List UInt16) :
      ∀ k, compress = some k → k ≤ (pieces ++ more).length := by
    intro k same
    rw [List.length_append]
    exact Nat.le_add_right_of_le (inside k same)
  revert found
  fun_induction parsePieces fuel chars pieces compress with
  | case1 =>
    rintro ⟨⟩
    exact ⟨room, inside⟩
  | case5 _ _ _ _ _ _ inductionHypothesis =>
    refine inductionHypothesis (by rw [List.length_append, List.length_singleton]; omega) ?_
    rintro _ ⟨⟩
    rw [List.length_append, List.length_singleton]
  | case6 =>
    rintro ⟨⟩
    exact ⟨by rw [List.length_append, List.length_singleton]; omega, later inside _⟩
  | case8 _ _ _ _ _ _ _ _ _ _ few =>
    rintro ⟨⟩
    rw [Bool.or_eq_true, decide_eq_true_eq, not_or] at few
    exact ⟨by rw [List.length_append, List.length_cons, List.length_singleton]; omega,
      later inside _⟩
  | case11 _ _ _ _ _ _ _ _ _ _ _ _ inductionHypothesis =>
    exact inductionHypothesis (by rw [List.length_append, List.length_singleton]; omega)
      (later inside _)
  | _ => rintro ⟨⟩

theorem length_of_parseIpv6 (found : parseIpv6 chars = some pieces) :
    pieces.length = 8 := by
  unfold parseIpv6 at found
  obtain ⟨⟨read, compress⟩, loop, expanded⟩ := Option.bind_eq_some_iff.mp found
  have fits : read.length ≤ 8 ∧ ∀ k, compress = some k → k ≤ read.length := by
    unfold startPieces at loop
    split at loop
    · refine length_of_parsePieces ?_ ?_ loop
      · exact (by decide : 1 ≤ 8)
      · intro k same
        cases same
        exact Nat.le_refl 1
    · cases loop
    · refine length_of_parsePieces ?_ ?_ loop
      · exact Nat.zero_le 8
      · intro k same
        cases same
  dsimp only [expand] at expanded
  split at expanded
  · rename_i place
    cases expanded
    have := fits.2 place rfl
    rw [List.length_append, List.length_append, List.length_take, List.length_replicate,
      List.length_drop]
    omega
  · obtain ⟨_, ⟨⟩⟩ := Option.ite_none_right_eq_some.mp expanded
    assumption

theorem mem_ipv4Text (member : c ∈ ipv4Text octets) :
    isDigit 10 c = true ∨ c = '.' := by
  rcases mem_join member with same | ⟨text, present, inside⟩
  · exact .inr same
  · obtain ⟨octet, _, rfl⟩ := List.mem_map.mp present
    exact .inl (isDigit_of_mem_toDigits (by decide) (by decide) inside)

theorem mem_groupsText {groups : List UInt16} (member : c ∈ groupsText groups) :
    isDigit 16 c = true ∨ c = ':' := by
  rcases mem_join member with same | ⟨text, present, inside⟩
  · exact .inr same
  · obtain ⟨group, _, rfl⟩ := List.mem_map.mp present
    exact .inl (isDigit_of_mem_toDigits (by decide) (by decide) inside)

theorem mem_ipv6Text (member : c ∈ ipv6Text pieces) :
    isDigit 16 c = true ∨ c = ':' := by
  unfold ipv6Text at member
  dsimp only at member
  split at member
  · rw [List.mem_append, List.mem_cons, List.mem_cons] at member
    rcases member with front | same | same | back
    · exact mem_groupsText front
    · exact .inr same
    · exact .inr same
    · exact mem_groupsText back
  · exact mem_groupsText member

theorem mem_displayIpv6 (member : c ∈ displayIpv6 pieces) :
    isDigit 16 c = true ∨ c = ':' ∨ c = '.' := by
  unfold displayIpv6 at member
  split at member
  · have mapped : ∀ c ∈ "::ffff:".toList, isDigit 16 c = true ∨ c = ':' ∨ c = '.' :=
      List.all_iff_forall_prop.mp (by decide)
    rcases List.mem_append.mp member with own | octets
    · exact mapped c own
    · exact (mem_ipv4Text octets).imp (isDigit_of_isDigit (by decide)) .inr
  · exact (mem_ipv6Text member).imp_right .inl

theorem colon_mem_displayIpv6 (eight : pieces.length = 8) :
    ':' ∈ displayIpv6 pieces := by
  unfold displayIpv6
  split
  · exact List.mem_append_left _ (by decide)
  · unfold ipv6Text
    dsimp only
    split
    · exact List.mem_append_right _ List.mem_cons_self
    · match pieces, eight with
      | first :: second :: rest, _ =>
        rw [groupsText_cons first (List.cons_ne_nil _ _)]
        exact List.mem_append_right _ List.mem_cons_self

end IpText
