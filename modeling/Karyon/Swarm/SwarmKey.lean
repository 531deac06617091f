/-
This file is about the keys of `swarm/src/swarm_key.rs`: when two joins have the same key, and what
a join does to the other swarms.

A key is the digest of a text: the protocol id, or the protocol id, a colon and the name of the
instance. So a protocol whose id has a colon shares its key with an instance of another protocol,
and joining the one replaces the other (`swarm_keys_collide`). That is the only way in which two
joins share a key, as long as the digest tells the texts apart (`swarm_keys_distinct_iff`).
-/

import Karyon.Lib.Utf8
import Karyon.Swarm.Membership

namespace Karyon

open P2p

/-! ### The digested text -/

/-- The text whose digest is the key of a join. -/
def keyText (protocolId : ProtocolID) : Option String → String
  | none => protocolId
  | some instanceName => protocolId ++ ":" ++ instanceName

theorem joinKey_eq (sha256 : Bytes → SwarmKey) (protocolId : ProtocolID)
    (instanceName : Option String) :
    joinKey sha256 protocolId instanceName =
      sha256 (Utf8.bytes (keyText protocolId instanceName)) := by
  cases instanceName with
  | none => rfl
  | some instanceName =>
    rw [keyText, Utf8.bytes_append, Utf8.bytes_append]
    rfl

theorem toList_keyText_some (protocolId : ProtocolID) (instanceName : String) :
    (keyText protocolId (some instanceName)).toList =
      protocolId.toList ++ ':' :: instanceName.toList := by
  rw [keyText, String.toList_append, String.toList_append, List.append_assoc]
  rfl

/-- The id of one protocol goes on behind a colon where the instance of the other begins. -/
def Continues (protocolId : ProtocolID) (instanceName : Option String) (other : ProtocolID)
    (otherName : Option String) : Prop :=
  ∃ rest, other = protocolId ++ ":" ++ rest ∧ instanceName = some (keyText rest otherName)

variable {protocolId other : ProtocolID} {instanceName otherName : Option String}

section

variable (continues : Continues protocolId instanceName other otherName)

include continues

theorem Continues.ne :
    protocolId ≠ other := by
  obtain ⟨rest, rfl, _⟩ := continues
  intro same
  have length := congrArg (List.length ∘ String.toList) same
  simp only [Function.comp_apply, String.toList_append, List.length_append] at length
  have colon : ":".toList.length = 1 := rfl
  omega

theorem Continues.keyText_eq :
    keyText protocolId instanceName = keyText other otherName := by
  obtain ⟨rest, rfl, rfl⟩ := continues
  cases otherName with
  | none => rfl
  | some otherName => simp only [keyText, String.append_assoc]

/-- Only protocol ids with a colon go on like that. -/
theorem Continues.colon :
    ':' ∈ other.toList := by
  obtain ⟨rest, rfl, _⟩ := continues
  rw [String.toList_append, String.toList_append]
  exact List.mem_append_left _ List.mem_concat_self

end

/-- An instance whose text begins with that of another one is the same, or continues it. -/
theorem continues_of_append {instanceName otherName : String} {part : List Char}
    (ids : other.toList = protocolId.toList ++ part)
    (names : ':' :: instanceName.toList = part ++ ':' :: otherName.toList) :
    (protocolId = other ∧ some instanceName = some otherName) ∨
      Continues protocolId (some instanceName) other (some otherName) := by
  cases part with
  | nil =>
    left
    rw [List.append_nil] at ids
    exact ⟨String.toList_injective ids.symm,
      congrArg some (String.toList_injective (List.cons.inj names).2)⟩
  | cons first rest =>
    right
    obtain ⟨rfl, behind⟩ := List.cons.inj names
    have text : (String.ofList rest).toList = rest := String.toList_ofList
    refine ⟨String.ofList rest, String.toList_injective ?_, congrArg some ?_⟩
    · rw [ids, String.toList_append, String.toList_append, text, List.append_assoc]
      rfl
    · apply String.toList_injective
      rw [behind, toList_keyText_some, text]
      rfl

/-- Two joins have the same text if they are the same or the one continues the other. -/
theorem keyText_eq_iff :
    keyText protocolId instanceName = keyText other otherName ↔
      (protocolId = other ∧ instanceName = otherName) ∨
        Continues protocolId instanceName other otherName ∨
        Continues other otherName protocolId instanceName := by
  constructor
  · intro same
    cases instanceName with
    | none =>
      cases otherName with
      | none => exact Or.inl ⟨same, rfl⟩
      | some otherName => exact Or.inr (Or.inr ⟨otherName, same, rfl⟩)
    | some instanceName =>
      cases otherName with
      | none => exact Or.inr (Or.inl ⟨instanceName, same.symm, rfl⟩)
      | some otherName =>
        have lists := congrArg String.toList same
        rw [toList_keyText_some, toList_keyText_some] at lists
        rcases List.append_eq_append_iff.mp lists with ⟨part, ids, names⟩ | ⟨part, ids, names⟩
        · exact (continues_of_append ids names).imp_right Or.inl
        · refine (continues_of_append ids names).imp (fun both => ?_) Or.inr
          exact ⟨both.1.symm, both.2.symm⟩
  · rintro (⟨rfl, rfl⟩ | continues | continues)
    · rfl
    · exact continues.keyText_eq
    · exact continues.keyText_eq.symm

/-! ### The other swarms at a join -/

namespace Swarm

theorem lookup_scanPeer_ne {pool : ConnectedPeers} {key other : SwarmKey} {swarm : Swarm}
    (different : other ≠ key) (pid : PeerID) :
    (swarm.scanPeer pool key protocolId pid).swarms.lookup other = swarm.swarms.lookup other := by
  by_cases speaks : pool.Speaks pid protocolId
  · rw [scanPeer_of_speaks speaks, file, list, HashMap.lookup_modify, if_neg different]
  · rw [scanPeer_of_not_speaks speaks]

theorem lookup_joinInner_ne {pool : ConnectedPeers} {key other returned : SwarmKey}
    {swarm next : Swarm} {attached : Except Error Unit}
    (joined : swarm.joinInner pool attached protocolId key = .ok (next, returned))
    (different : other ≠ key) : next.swarms.lookup other = swarm.swarms.lookup other := by
  have scanned (pids : List PeerID) (swarm : Swarm) :
      (pids.foldl (scanPeer pool key protocolId) swarm).swarms.lookup other =
        swarm.swarms.lookup other := by
    induction pids generalizing swarm with
    | nil => rfl
    | cons pid rest inductionHypothesis =>
      exact (inductionHypothesis _).trans (lookup_scanPeer_ne different pid)
  obtain ⟨_, rfl⟩ := joinInner_eq_ok joined
  exact (scanned _ _).trans (AList.lookup_insert_ne different)

end Swarm

/-! ### Keys of different swarms -/

/-- Where the digest tells their texts apart, two joins have the same key only if they are for the
same protocol and the same instance, and otherwise the one leaves the swarm of the other as it is,
if and only if neither of them continues the other. -/
theorem swarm_keys_distinct_iff {sha256 : Bytes → SwarmKey} {protocolId other : ProtocolID}
    {instanceName otherName : Option String}
    (collisionFree : sha256 (Utf8.bytes (keyText protocolId instanceName)) =
        sha256 (Utf8.bytes (keyText other otherName)) →
      Utf8.bytes (keyText protocolId instanceName) = Utf8.bytes (keyText other otherName)) :
    ((joinKey sha256 protocolId instanceName = joinKey sha256 other otherName →
        protocolId = other ∧ instanceName = otherName) ∧
      ∀ (pool : ConnectedPeers) (swarm next : Swarm) (attached : Except Error Unit)
        (returned : SwarmKey),
        swarm.joinInner pool attached protocolId (joinKey sha256 protocolId instanceName) =
          .ok (next, returned) →
        (protocolId, instanceName) ≠ (other, otherName) →
        next.swarms.lookup (joinKey sha256 other otherName) =
          swarm.swarms.lookup (joinKey sha256 other otherName)) ↔
    ¬Continues protocolId instanceName other otherName ∧
      ¬Continues other otherName protocolId instanceName := by
  constructor
  · rintro ⟨distinct, _⟩
    refine ⟨fun continues => ?_, fun continues => ?_⟩
    · refine continues.ne (distinct ?_).1
      rw [joinKey_eq, joinKey_eq, continues.keyText_eq]
    · refine continues.ne (distinct ?_).1.symm
      rw [joinKey_eq, joinKey_eq, continues.keyText_eq]
  · rintro ⟨forth, back⟩
    have distinct : joinKey sha256 protocolId instanceName = joinKey sha256 other otherName →
        protocolId = other ∧ instanceName = otherName := by
      intro same
      rw [joinKey_eq, joinKey_eq] at same
      have texts := Utf8.bytes_injective (collisionFree same)
      exact (keyText_eq_iff.mp texts).resolve_right fun either => either.elim forth back
    refine ⟨distinct, fun pool swarm next attached returned joined different => ?_⟩
    refine Swarm.lookup_joinInner_ne joined fun same => different ?_
    obtain ⟨rfl, rfl⟩ := distinct same.symm
    rfl

/-- The last byte of a text tells the two texts below apart. -/
def lastByte (bytes : Bytes) : SwarmKey :=
  Vector.replicate 32 (bytes.getLastD 0)

/-- Two rooms of a protocol whose id has no colon. -/
theorem swarm_keys_distinct_rooms :
    joinKey lastByte "chat" (some "a") ≠ joinKey lastByte "chat" (some "b") := by
  intro same
  have texts : lastByte (Utf8.bytes (keyText "chat" (some "a"))) ≠
      lastByte (Utf8.bytes (keyText "chat" (some "b"))) := by
    decide +kernel
  have plain : ':' ∉ "chat".toList := by decide
  have both := ((swarm_keys_distinct_iff fun same => absurd same texts).mpr
    ⟨fun continues => plain continues.colon, fun continues => plain continues.colon⟩).1 same
  exact absurd both.2 (by decide)

/-- The protocol `a:b` and the instance `b` of the protocol `a` have one key, whatever the digest.
Joining the second replaces the first. -/
theorem swarm_keys_collide :
    keyText "a:b" none = keyText "a" (some "b") ∧
      ∀ sha256 : Bytes → SwarmKey,
        joinKey sha256 "a:b" none = joinKey sha256 "a" (some "b") ∧
        ∃ first second key, Swarm.new.joinInner ∅ (.ok ()) "a:b" (joinKey sha256 "a:b" none) =
            .ok (first, key) ∧
          first.joinInner ∅ (.ok ()) "a" (joinKey sha256 "a" (some "b")) = .ok (second, key) ∧
          first.protocol key = some "a:b" ∧ second.protocol key = some "a" := by
  have texts : keyText "a:b" none = keyText "a" (some "b") := by decide
  refine ⟨texts, fun sha256 => ?_⟩
  have same : joinKey sha256 "a:b" none = joinKey sha256 "a" (some "b") := by
    rw [joinKey_eq, joinKey_eq, texts]
  refine ⟨same, ?_⟩
  rw [← same]
  generalize joinKey sha256 "a:b" none = key
  have own {swarm next : Swarm} {protocolId : ProtocolID}
      (joined : swarm.joinInner ∅ (.ok ()) protocolId key = .ok (next, key)) :
      next.protocol key = some protocolId := by
    rw [(Swarm.joinInner_spec joined).1, if_pos rfl]
  exact ⟨_, _, key, rfl, rfl, own rfl, own rfl⟩

end Karyon
