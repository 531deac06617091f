/-
This file is about the swarms of a node when their operations overlap, section by section.

The two indexes of the swarms may be left apart when all calls have returned: a leave takes a swarm
out of the reverse index that was joined again in the meantime, and a removal takes a peer off the
list of a swarm under which a scan has just filed it (`swarm_indexes_diverge`). They agree when a
swarm is only joined when it is not joined yet, a join overlaps neither with a join or leave of the
same swarm nor with a removal, the events are handled one after the other, and an addition does not
replace the entry of a swarm that it has not found (`swarm_indexes_agree`).
-/

import Karyon.Swarm.LockSections

namespace Karyon

open P2p Transition

section Beside

open Indexed (Beside)

variable {calls : List SwarmCall} {index : Nat} {call after : SwarmCall} {swarm : Swarm}

/-! ### One section of a call -/

variable {own : SwarmKey} {peer : PeerID}

/-- A join goes on and has no peer in the list that it has not filed. -/
theorem Quiet.join {protocolId : ProtocolID} {phase later : JoinPhase}
    (awaits : ∀ key, (SwarmCall.join protocolId own later).Awaits key →
      (SwarmCall.join protocolId own phase).Awaits key)
    (pins : ∀ key, (SwarmCall.join protocolId own later).Pins key →
      (swarm.protocol key).isSome = true) (before : ∀ peer pids, phase ≠ .filing peer pids)
    (after : ∀ peer pids, later ≠ .filing peer pids) :
    Quiet swarm (.join protocolId own phase) (.join protocolId own later) where
  awaits := awaits
  pins := pins
  lists key pid claims := by
    cases later with
    | filing peer pids => exact absurd rfl (after peer pids)
    | _ => exact claims.elim
  empties _ := False.elim
  owed key pid owes := by
    cases phase with
    | filing peer pids => exact absurd rfl (before peer pids)
    | _ => exact owes.elim False.elim False.elim
  unfiles _ := False.elim

variable {pool : ConnectedPeers} {guarded : Bool} {next : Swarm}

theorem Agrees.join {protocolId : ProtocolID} {phase later : JoinPhase}
    (agrees : Agrees swarm (Around calls index (.join protocolId own phase)))
    (clear : Clear calls index (.join protocolId own phase))
    (taken : phase.next pool swarm guarded protocolId own = some (next, later)) :
    Agrees next (Around calls index (.join protocolId own later)) := by
  cases phase with
  | attaching =>
    cases taken
    exact agrees.quiet (.join (fun _ => id) (fun _ => False.elim) (by rintro _ _ ⟨⟩)
      (by rintro _ _ ⟨⟩))
  | registering =>
    obtain ⟨_, ⟨⟩⟩ := Option.ite_none_left_eq_some.mp taken
    exact agrees.register clear
  | registered | inbound =>
    cases taken
    exact agrees.quiet (.join (fun _ => False.elim) (fun _ => False.elim) (by rintro _ _ ⟨⟩)
      (by rintro _ _ ⟨⟩))
  | collected =>
    simp only [JoinPhase.next] at taken
    split at taken
    · rename_i info found
      cases taken
      refine agrees.quiet (.join (fun _ => False.elim) ?_ (by rintro _ _ ⟨⟩) (by rintro _ _ ⟨⟩))
      rintro _ rfl
      rw [Swarm.protocol, found]
      rfl
    · cases taken
      exact agrees.quiet (.join (fun _ => False.elim) (fun _ => False.elim) (by rintro _ _ ⟨⟩)
        (by rintro _ _ ⟨⟩))
  | scanning pids =>
    have pinned : (swarm.protocol own).isSome = true := agrees.pins own (Or.inl rfl)
    have goes {rest : JoinPhase} (awaits : ∀ key, ¬(SwarmCall.join protocolId own rest).Awaits key)
        (pins : ∀ key, (SwarmCall.join protocolId own rest).Pins key → own = key)
        (early : ∀ peer pids, rest ≠ .filing peer pids) :
        Agrees swarm (Around calls index (.join protocolId own rest)) := by
      refine agrees.quiet (.join (fun key claims => absurd claims (awaits key))
        (fun key claims => ?_) (by rintro _ _ ⟨⟩) early)
      rw [← pins key claims]
      exact pinned
    cases pids with
    | nil =>
      cases taken
      exact goes (fun _ => id) (fun _ => False.elim) (by rintro _ _ ⟨⟩)
    | cons pid pids =>
      simp only [JoinPhase.next] at taken
      split at taken
      · split at taken
        · cases taken
          exact goes (fun _ => id) (fun _ => id) (by rintro _ _ ⟨⟩)
        · cases taken
          exact goes (fun _ => id) (fun _ => id) (by rintro _ _ ⟨⟩)
      · cases taken
        exact goes (fun _ => id) (fun _ => id) (by rintro _ _ ⟨⟩)
  | listing peer pids =>
    cases taken
    have pinned : (swarm.protocol own).isSome = true := agrees.pins own (Or.inl rfl)
    refine agrees.list pinned (fun _ => id) ?_ (fun key pid => ?_) (fun _ => id) (fun _ _ => id)
      fun _ => id
    · rintro _ rfl
      exact pinned
    · exact ⟨fun claims => Or.inr ⟨claims.1.symm, claims.2.symm⟩,
        fun new => new.elim False.elim fun same => ⟨same.1.symm, same.2.symm⟩⟩
  | filing peer pids =>
    cases taken
    exact agrees.file clear
  | returned => cases taken

theorem Agrees.leave {phase later : LeavePhase}
    (agrees : Agrees swarm (Around calls index (.leave own phase)))
    (unguarded : guarded = false → ¬Beside calls index fun other => other.reads = true)
    (taken : phase.next swarm guarded own = some (next, later)) :
    Agrees next (Around calls index (.leave own later)) := by
  cases phase with
  | removing =>
    obtain ⟨free, ⟨⟩⟩ := Option.ite_none_left_eq_some.mp taken
    exact agrees.remove (unguarded (Bool.eq_false_iff.mpr free))
  | unfiling =>
    cases taken
    exact agrees.unfile
  | returned => cases taken

/-- The handler of an addition goes on with the same peers in the lists. -/
theorem Quiet.added {phase later : AddedPhase}
    (lists : ∀ key pid, (SwarmCall.added peer later).Lists key pid ↔
      (SwarmCall.added peer phase).Lists key pid) :
    Quiet swarm (.added peer phase) (.added peer later) where
  awaits _ := False.elim
  pins _ := False.elim
  lists key pid := (lists key pid).mp
  empties _ := False.elim
  owed key pid owes := owes.imp (lists key pid).mpr False.elim
  unfiles _ := False.elim

theorem Agrees.added {phase later : AddedPhase}
    (agrees : Agrees swarm (Around calls index (.added peer phase)))
    (clear : Clear calls index (.added peer phase)) (kept : ∀ keys, phase = .filing keys →
      ∀ key, (swarm.protocol key).isSome = true → swarm.Filed peer key → key ∈ keys)
    (taken : phase.next pool swarm peer = some (next, later)) :
    Agrees next (Around calls index (.added peer later)) := by
  cases phase with
  | asking =>
    simp only [AddedPhase.next] at taken
    split at taken <;> cases taken <;> exact agrees.quiet (.added fun _ _ => Iff.rfl)
  | asked protos =>
    cases taken
    refine agrees.quiet (.added fun key pid => ⟨fun claims => ?_, False.elim⟩)
    exact absurd claims.2 (AList.notMem_empty key)
  | listing protos keys joined =>
    cases keys with
    | nil =>
      simp only [AddedPhase.next] at taken
      split at taken
      · rename_i none
        cases taken
        refine agrees.quiet (.added fun key pid => ⟨False.elim, fun claims => ?_⟩)
        have member := AList.mem_keys.mp claims.2
        rw [List.isEmpty_iff.mp none] at member
        cases member
      · cases taken
        exact agrees.quiet (.added fun _ _ => Iff.rfl)
    | cons own keys =>
      simp only [AddedPhase.next] at taken
      split at taken
      · rename_i info found
        have pinned : (swarm.protocol own).isSome = true := by
          rw [Swarm.protocol, found]
          rfl
        split at taken
        · cases taken
          refine agrees.list pinned (fun _ => id) (fun _ => False.elim) (fun key pid => ?_)
            (fun _ => id) (fun _ _ => id) fun _ => id
          constructor
          · rintro ⟨rfl, member⟩
            exact ((AList.mem_insert _).mp member).symm.imp (And.intro rfl) fun same => ⟨same, rfl⟩
          · rintro (⟨rfl, before⟩ | ⟨rfl, rfl⟩)
            · exact ⟨rfl, (AList.mem_insert _).mpr (Or.inr before)⟩
            · exact ⟨rfl, (AList.mem_insert _).mpr (Or.inl rfl)⟩
        · cases taken
          exact agrees.quiet (.added fun _ _ => Iff.rfl)
      · cases taken
        exact agrees.quiet (.added fun _ _ => Iff.rfl)
  | filing keys =>
    cases taken
    exact agrees.refile clear (kept keys rfl)
  | returned => cases taken

/-- The handler of a removal goes on with the same lists to do. -/
theorem Quiet.removed {phase later : RemovedPhase}
    (empties : ∀ pid, (SwarmCall.removed peer later).Empties pid →
      (SwarmCall.removed peer phase).Empties pid)
    (drops : ∀ key pid, (SwarmCall.removed peer phase).Drops key pid →
      (SwarmCall.removed peer later).Drops key pid) :
    Quiet swarm (.removed peer phase) (.removed peer later) where
  awaits _ := False.elim
  pins _ := False.elim
  lists _ _ := False.elim
  empties := empties
  owed key pid owes := owes.imp False.elim (drops key pid)
  unfiles _ := False.elim

theorem Agrees.removed {phase later : RemovedPhase}
    (agrees : Agrees swarm (Around calls index (.removed peer phase)))
    (clear : Clear calls index (.removed peer phase))
    (taken : phase.next swarm peer = some (next, later)) :
    Agrees next (Around calls index (.removed peer later)) := by
  cases phase with
  | taking =>
    simp only [RemovedPhase.next] at taken
    split at taken
    · rename_i keys found
      cases taken
      refine agrees.take fun key filed => ⟨rfl, ?_⟩
      obtain ⟨_, same, member⟩ := filed
      cases found.symm.trans same
      exact member
    · rename_i absent
      cases taken
      refine agrees.take fun key filed => ?_
      obtain ⟨_, same, _⟩ := filed
      cases absent.symm.trans same
  | taken keys =>
    cases taken
    exact agrees.quiet (.removed (fun _ => id) fun _ _ => And.imp_right AList.mem_keys.mp)
  | dropping keys =>
    cases keys with
    | nil =>
      cases taken
      exact agrees.quiet (.removed (fun _ => False.elim) fun _ _ claims => by cases claims.2)
    | cons own keys =>
      cases taken
      exact agrees.drop clear
  | returned => cases taken

end Beside

/-! ### Calls that keep each other out -/

variable {key : SwarmKey}

namespace SwarmCall

variable {call after other : SwarmCall}

theorem Apart.calmer (apart : call.Apart other) (calmer : after.Calmer call) :
    after.Apart other where
  joins key joins := apart.joins key (calmer.joins key joins)
  removes removes := apart.removes (calmer.removes removes)
  handles handles := apart.handles (calmer.handles handles)

theorem Apart.beside_calmer (apart : other.Apart call) (calmer : after.Calmer call) :
    other.Apart after where
  joins key joins := by
    obtain ⟨joined, left⟩ := apart.joins key joins
    exact ⟨Bool.eq_false_iff.mpr fun does => Bool.eq_false_iff.mp joined (calmer.joins key does),
      Bool.eq_false_iff.mpr fun does => Bool.eq_false_iff.mp left (calmer.leaves key does)⟩
  removes removes := Bool.eq_false_iff.mpr fun does =>
    Bool.eq_false_iff.mp (apart.removes removes) (calmer.joining does)
  handles handles := Bool.eq_false_iff.mpr fun does =>
    Bool.eq_false_iff.mp (apart.handles handles) (calmer.handles does)

/-- A new join, and a call that it may overlap with. -/
theorem Apart.of_join {protocolId : ProtocolID} (joins : other.joins key = false)
    (leaves : other.leaves key = false) (removes : other.removes = false) :
    (SwarmCall.join protocolId key .attaching).Apart other ∧
      other.Apart (.join protocolId key .attaching) := by
  constructor
  · refine ⟨fun its same => ?_, by rintro ⟨⟩, by rintro ⟨⟩⟩
    cases of_decide_eq_true same
    exact ⟨joins, leaves⟩
  · refine ⟨fun its does => ⟨decide_eq_false ?_, rfl⟩, fun does => ?_, fun _ => rfl⟩
    · rintro rfl
      cases joins.symm.trans does
    · cases removes.symm.trans does

theorem Apart.of_leave (joins : other.joins key = false) :
    (SwarmCall.leave key .removing).Apart other ∧ other.Apart (.leave key .removing) := by
  refine ⟨⟨by rintro _ ⟨⟩, by rintro ⟨⟩, by rintro ⟨⟩⟩, fun its does => ⟨rfl, decide_eq_false ?_⟩,
    fun _ => rfl, fun _ => rfl⟩
  rintro rfl
  cases joins.symm.trans does

variable {pid : PeerID}

theorem Apart.of_added (handles : other.handles = false) :
    (SwarmCall.added pid .asking).Apart other ∧ other.Apart (.added pid .asking) := by
  refine ⟨⟨by rintro _ ⟨⟩, by rintro ⟨⟩, fun _ => handles⟩, fun _ _ => ⟨rfl, rfl⟩, fun _ => rfl,
    fun does => ?_⟩
  cases handles.symm.trans does

theorem Apart.of_removed (handles : other.handles = false) (joining : other.joining = false) :
    (SwarmCall.removed pid .taking).Apart other ∧ other.Apart (.removed pid .taking) := by
  refine ⟨⟨by rintro _ ⟨⟩, fun _ => joining, fun _ => handles⟩, fun _ _ => ⟨rfl, rfl⟩,
    fun _ => rfl, fun does => ?_⟩
  cases handles.symm.trans does

theorem Calmer.join {protocolId : ProtocolID} {own : SwarmKey} {phase later : JoinPhase}
    (early : phase ≠ .returned) :
    (SwarmCall.join protocolId own later).Calmer (.join protocolId own phase) where
  joins key joins := by
    have same : own = key := by
      cases later with
      | returned => cases joins
      | _ => exact of_decide_eq_true joins
    cases phase with
    | returned => exact absurd rfl early
    | _ => exact decide_eq_true same
  joining _ := by
    cases phase with
    | returned => exact absurd rfl early
    | _ => rfl
  leaves _ := id
  removes := id
  handles := id

theorem Calmer.leave {own : SwarmKey} {phase later : LeavePhase} (early : phase ≠ .returned) :
    (SwarmCall.leave own later).Calmer (.leave own phase) where
  joins _ := id
  joining := id
  leaves key leaves := by
    have same : own = key := by
      cases later with
      | returned => cases leaves
      | _ => exact of_decide_eq_true leaves
    cases phase with
    | returned => exact absurd rfl early
    | _ => exact decide_eq_true same
  removes := id
  handles := id

theorem Calmer.added {phase later : AddedPhase} (early : phase ≠ .returned) :
    (SwarmCall.added pid later).Calmer (.added pid phase) where
  joins _ := id
  joining := id
  leaves _ := id
  removes := id
  handles _ := by
    cases phase with
    | returned => exact absurd rfl early
    | _ => rfl

theorem Calmer.removed {phase later : RemovedPhase} (early : phase ≠ .returned) :
    (SwarmCall.removed pid later).Calmer (.removed pid phase) where
  joins _ := id
  joining := id
  leaves _ := id
  removes _ := by
    cases phase with
    | returned => exact absurd rfl early
    | _ => rfl
  handles _ := by
    cases phase with
    | returned => exact absurd rfl early
    | _ => rfl

end SwarmCall

/-! ### Runs -/

namespace SwarmTasks

/-- A swarm is joined only if it is not joined, a join overlaps neither with a join or leave of the
same swarm nor with a removal, the events are handled one after the other, and an addition
replaces no entry of a joined swarm that it has not found. -/
def orderly (state : SwarmTasks) : TaskAction → Bool
  | .join _ key =>
    (state.swarm.protocol key).isNone && state.calls.all fun call =>
      !call.joins key && !call.leaves key && !call.removes
  | .leave key => state.calls.all fun call => !call.joins key
  | .added _ => state.calls.all fun call => !call.handles
  | .removed _ => state.calls.all fun call => !call.handles && !call.joining
  | .advance index =>
    match state.calls[index]? with
    | some (.added pid (.filing joined)) =>
      match state.swarm.peerSwarms.lookup pid with
      | some filed =>
        filed.keys.all fun key => (state.swarm.protocol key).isNone || decide (key ∈ joined)
      | none => true
    | _ => true
  | _ => true

/-- The indexes agree up to what the calls will do, and the calls keep each other out. -/
structure Consistent (state : SwarmTasks) : Prop where
  agrees : Agrees state.swarm fun claim => ∃ call ∈ state.calls, claim call
  apart : ∀ (first second : Nat) (call other : SwarmCall), first ≠ second →
    state.calls[first]? = some call → state.calls[second]? = some other → call.Apart other

theorem Consistent.new : Consistent .new where
  agrees :=
    { awaits := by rintro _ ⟨_, ⟨⟩, _⟩
      pins := by rintro _ ⟨_, ⟨⟩, _⟩
      lists := by rintro _ _ ⟨_, ⟨⟩, _⟩
      empties := by rintro _ _ ⟨_, ⟨⟩, _⟩
      listed := by rintro _ _ ⟨⟩
      owed := fun _ pid member => absurd member (AList.notMem_empty pid)
      stale := by rintro _ _ ⟨_, ⟨⟩, _⟩ }
  apart := by rintro _ _ _ _ _ ⟨⟩

variable {state next : SwarmTasks} {index : Nat} {call after : SwarmCall} {events : List Empty}

section

variable (consistent : Consistent state)

include consistent

section

variable (found : state.calls[index]? = some call)

include found

theorem Consistent.around :
    Agrees state.swarm (Around state.calls index call) := by
  have same : (fun claim : SwarmCall → Prop => ∃ call ∈ state.calls, claim call) =
      Around state.calls index call := by
    funext claim
    exact propext (Indexed.exists_mem_iff found)
  rw [← same]
  exact consistent.agrees

theorem Consistent.clear :
    Clear state.calls index call where
  ahead place other different its :=
    consistent.apart index place call other (Ne.symm different) found its
  behind place other different its := consistent.apart place index other call different its found

theorem Consistent.set {swarm : Swarm} (agrees : Agrees swarm (Around state.calls index after))
    (calmer : after.Calmer call) :
    Consistent { state with swarm, calls := state.calls.set index after } := by
  have same : (fun claim : SwarmCall → Prop => ∃ call ∈ state.calls.set index after, claim call) =
      Around state.calls index after := by
    funext claim
    exact propext (Indexed.exists_mem_set_iff found)
  refine ⟨?_, fun first second one other different its others => ?_⟩
  · rw [same]
    exact agrees
  · rcases (Indexed.set_eq_some found).mp its with ⟨rfl, rfl⟩ | ⟨_, was⟩ <;>
      rcases (Indexed.set_eq_some found).mp others with ⟨rfl, rfl⟩ | ⟨_, itsWas⟩
    · exact absurd rfl different
    · exact (consistent.apart first second call other different found itsWas).calmer calmer
    · exact (consistent.apart first second one call different was found).beside_calmer calmer
    · exact consistent.apart first second one other different was itsWas

end

/-- A call is made that needs at most that its swarm is not joined. -/
theorem Consistent.concat
    (awaits : ∀ key, call.Awaits key → (state.swarm.protocol key).isSome = false)
    (pins : ∀ key, ¬call.Pins key) (lists : ∀ key pid, ¬call.Lists key pid)
    (empties : ∀ pid, ¬call.Empties pid)
    (apart : ∀ other ∈ state.calls, call.Apart other ∧ other.Apart call) :
    Consistent { state with calls := state.calls ++ [call] } := by
  obtain ⟨agrees, between⟩ := consistent
  have either {claim : SwarmCall → Prop} (claims : ∃ other ∈ state.calls ++ [call], claim other) :
      claim call ∨ ∃ other ∈ state.calls, claim other := by
    obtain ⟨other, member, claims⟩ := claims
    rcases mem_concat.mp member with before | rfl
    · exact Or.inr ⟨other, before, claims⟩
    · exact Or.inl claims
  have still {claim : SwarmCall → Prop} (claims : ∃ other ∈ state.calls, claim other) :
      ∃ other ∈ state.calls ++ [call], claim other :=
    claims.imp fun _ => And.imp_left (List.mem_append_left _)
  constructor
  · exact
      { awaits := fun key claims => (either claims).elim (awaits key) (agrees.awaits key)
        pins := fun key claims => agrees.pins key ((either claims).resolve_left (pins key))
        lists := fun key pid claims =>
          agrees.lists key pid ((either claims).resolve_left (lists key pid))
        empties := fun key pid claims =>
          agrees.empties key pid ((either claims).resolve_left (empties pid))
        listed := agrees.listed
        owed := fun key pid member => (agrees.owed key pid member).imp_right still
        stale := fun key pid filed => (agrees.stale key pid filed).imp_right still }
  · intro first second one other different its others
    rcases Indexed.concat_eq_some.mp its with was | ⟨rfl, rfl⟩ <;>
      rcases Indexed.concat_eq_some.mp others with itsWas | ⟨rfl, rfl⟩
    · exact between first second one other different was itsWas
    · exact (apart one (List.mem_of_getElem? was)).2
    · exact (apart other (List.mem_of_getElem? itsWas)).1
    · exact absurd rfl different

end

theorem Consistent.advance (consistent : Consistent state)
    (orderly : state.orderly (.advance index) = true) (found : state.calls[index]? = some call)
    {swarm : Swarm} (taken : call.next state.pool state.swarm
      (state.calls.any SwarmCall.reads) = some (swarm, after)) :
    Consistent { state with swarm, calls := state.calls.set index after } := by
  have around := consistent.around found
  have clear := consistent.clear found
  cases call with
  | join protocolId key phase =>
    obtain ⟨⟨_, later⟩, its, ⟨⟩⟩ := Option.map_eq_some_iff.mp taken
    refine consistent.set found (around.join clear its) (.join ?_)
    rintro rfl
    cases its
  | leave key phase =>
    obtain ⟨⟨_, later⟩, its, ⟨⟩⟩ := Option.map_eq_some_iff.mp taken
    refine consistent.set found (around.leave ?_ its) (.leave ?_)
    · rintro free ⟨place, other, _, there, reads⟩
      exact absurd reads (List.any_eq_false.mp free other (List.mem_of_getElem? there))
    · rintro rfl
      cases its
  | added pid phase =>
    obtain ⟨⟨_, later⟩, its, ⟨⟩⟩ := Option.map_eq_some_iff.mp taken
    refine consistent.set found (around.added clear ?_ its) (.added ?_)
    · rintro keys rfl key joined ⟨filed, entry, member⟩
      simp only [SwarmTasks.orderly, found, entry] at orderly
      have kept := List.all_eq_true.mp orderly key (AList.mem_keys.mp member)
      rcases Bool.or_eq_true_iff.mp kept with absent | named
      · rw [Option.isNone_iff_eq_none.mp absent] at joined
        cases joined
      · exact of_decide_eq_true named
    · rintro rfl
      cases its
  | removed pid phase =>
    obtain ⟨⟨_, later⟩, its, ⟨⟩⟩ := Option.map_eq_some_iff.mp taken
    refine consistent.set found (around.removed clear its) (.removed ?_)
    rintro rfl
    cases its

theorem Consistent.step {action : TaskAction} (consistent : Consistent state)
    (orderly : state.orderly action = true) (taken : state.step action = some (next, events)) :
    Consistent next := by
  cases action with
  | pool pool =>
    cases taken
    exact ⟨consistent.agrees, consistent.apart⟩
  | join protocolId key =>
    cases taken
    obtain ⟨absent, others⟩ := Bool.and_eq_true_iff.mp orderly
    refine consistent.concat ?_ (fun _ => id) (fun _ _ => id) (fun _ => id) fun other member => ?_
    · rintro _ rfl
      rw [Option.isNone_iff_eq_none.mp absent]
      rfl
    · have free := List.all_eq_true.mp others other member
      simp only [Bool.and_eq_true_iff, Bool.not_eq_true'] at free
      obtain ⟨⟨joins, leaves⟩, removes⟩ := free
      exact SwarmCall.Apart.of_join joins leaves removes
  | leave key =>
    cases taken
    refine consistent.concat (fun _ => False.elim) (fun _ => id) (fun _ _ => id) (fun _ => id)
      fun other member => SwarmCall.Apart.of_leave ?_
    exact Bool.not_eq_true' _ ▸ List.all_eq_true.mp orderly other member
  | added pid =>
    cases taken
    refine consistent.concat (fun _ => False.elim) (fun _ => id) (fun _ _ => id) (fun _ => id)
      fun other member => SwarmCall.Apart.of_added ?_
    exact Bool.not_eq_true' _ ▸ List.all_eq_true.mp orderly other member
  | removed pid =>
    cases taken
    refine consistent.concat (fun _ => False.elim) (fun _ => id) (fun _ _ => id) (fun _ => id)
      fun other member => ?_
    have free := List.all_eq_true.mp orderly other member
    simp only [Bool.and_eq_true_iff, Bool.not_eq_true'] at free
    exact SwarmCall.Apart.of_removed free.1 free.2
  | refused index =>
    simp only [SwarmTasks.step] at taken
    split at taken
    · rename_i protocolId key found
      cases taken
      refine consistent.set found ((consistent.around found).quiet ?_) (.join (by rintro ⟨⟩))
      exact .join (fun _ => False.elim) (fun _ => False.elim) (by rintro _ _ ⟨⟩)
        (by rintro _ _ ⟨⟩)
    · cases taken
  | advance index =>
    simp only [SwarmTasks.step] at taken
    split at taken
    · rename_i call found
      split at taken
      · rename_i swarm after its
        cases taken
        exact consistent.advance orderly found its
      · cases taken
    · cases taken

end SwarmTasks

theorem SwarmCall.no_claims {call : SwarmCall} {pid : PeerID} (returned : call.returned = true) :
    ¬(call.Lists key pid ∨ call.Drops key pid) := by
  unfold SwarmCall.returned at returned
  split at returned
  · exact fun claims => claims.elim id id
  · exact fun claims => claims.elim id id
  · exact fun claims => claims.elim id id
  · exact fun claims => claims.elim id id
  · cases returned

/-- When all calls of an orderly run have returned, a joined swarm lists a peer if and only if it is
filed for it, and the removal of a peer takes it off every list. -/
theorem swarm_indexes_agree {history : List Empty} {state : SwarmTasks}
    (run : swarmTaskMachine.Run (fun state action => state.orderly action = true) history state)
    (returned : ∀ call ∈ state.calls, call.returned = true) :
    (∀ key pid, (state.swarm.protocol key).isSome = true →
      (pid ∈ state.swarm.peers key ↔ state.swarm.Filed pid key)) ∧
    ∀ key pid, pid ∉ (state.swarm.onPeerRemoved pid).peers key := by
  have consistent : state.Consistent := by
    refine run.invariant (fun _ state => state.Consistent) .new ?_
    intro _ _ _ _ _ consistent orderly taken
    exact consistent.step orderly taken
  have filed {key : SwarmKey} {pid : PeerID} (member : pid ∈ state.swarm.peers key) :
      state.swarm.Filed pid key := by
    refine (consistent.agrees.owed key pid member).resolve_right ?_
    rintro ⟨call, made, claims⟩
    exact SwarmCall.no_claims (returned call made) claims
  refine ⟨fun key pid joined => ⟨filed, consistent.agrees.listed key pid joined⟩, ?_⟩
  intro key pid member
  obtain ⟨before, other⟩ := (Swarm.onPeerRemoved_spec.2.1 key pid).mp member
  exact other ⟨rfl, filed before⟩

/-! ### Calls that overlap -/

def chatKey : SwarmKey :=
  swarmKeyFromProtocol firstByte "chat"

def chatPool : ConnectedPeers :=
  AList.singleton somePeer (speaking "chat")

/-- The call takes so many sections, one after the other. -/
def advances (index count : Nat) : List TaskAction :=
  List.replicate count (.advance index)

/-- Whether all calls have returned and the swarm is joined, whether it lists the peer, and whether
it is filed for it. -/
def observedIndexes (reached : List Empty × SwarmTasks) : Bool × Bool × Bool :=
  (reached.2.calls.all SwarmCall.returned && (reached.2.swarm.protocol chatKey).isSome,
    decide (somePeer ∈ reached.2.swarm.peers chatKey),
    match reached.2.swarm.peerSwarms.lookup somePeer with
    | some keys => decide (chatKey ∈ keys)
    | none => false)

theorem observedIndexes_eq {history : List Empty} {state : SwarmTasks} {lists files : Bool}
    (observed : observedIndexes (history, state) = (true, lists, files)) :
    (∀ call ∈ state.calls, call.returned = true) ∧
      (state.swarm.protocol chatKey).isSome = true ∧
      (somePeer ∈ state.swarm.peers chatKey ↔ lists = true) ∧
      (state.swarm.Filed somePeer chatKey ↔ files = true) := by
  obtain ⟨ended, rest⟩ := Prod.mk.inj observed
  obtain ⟨listed, filed⟩ := Prod.mk.inj rest
  obtain ⟨returned, joined⟩ := Bool.and_eq_true_iff.mp ended
  refine ⟨List.all_eq_true.mp returned, joined, by rw [← listed, decide_eq_true_eq], ?_⟩
  rw [← filed]
  unfold Swarm.Filed
  split
  · rename_i keys found
    rw [decide_eq_true_eq]
    refine ⟨?_, fun member => ⟨keys, found, member⟩⟩
    rintro ⟨_, same, member⟩
    cases found.symm.trans same
    exact member
  · rename_i absent
    refine ⟨?_, by rintro ⟨⟩⟩
    rintro ⟨_, same, _⟩
    cases absent.symm.trans same

/-- An addition is handled while a join scans the peers. -/
theorem swarm_indexes_agree_chat :
    ∃ history state, swarmTaskMachine.Run (fun state action => state.orderly action = true)
        history state ∧
      (∀ call ∈ state.calls, call.returned = true) ∧ somePeer ∈ state.swarm.peers chatKey ∧
      state.swarm.Filed somePeer chatKey := by
  refine Machine.reach_run
    (fun history state => observedIndexes (history, state) = (true, true, true))
    ([.pool chatPool, .join "chat" chatKey] ++ advances 0 5 ++ [.added somePeer] ++
      advances 1 5 ++ advances 0 4) (by decide +kernel) fun _ state run observed => ?_
  obtain ⟨returned, joined, listed, _⟩ := observedIndexes_eq observed
  have agree := (swarm_indexes_agree run returned).1 chatKey somePeer joined
  exact ⟨returned, listed.mpr rfl, agree.mp (listed.mpr rfl)⟩

/-- A swarm is joined again between the two sections of a leave, which then takes it out of the
reverse index: the peer stays in the list when it is removed. A peer is removed while a join scans
it: the join files it, and then it is taken off the list. -/
theorem swarm_indexes_diverge :
    (∃ history state, swarmTaskMachine.Run (fun _ _ => True) history state ∧
      (∀ call ∈ state.calls, call.returned = true) ∧ somePeer ∈ state.swarm.peers chatKey ∧
      ¬state.swarm.Filed somePeer chatKey ∧
      somePeer ∈ (state.swarm.onPeerRemoved somePeer).peers chatKey) ∧
    ∃ history state, swarmTaskMachine.Run (fun _ _ => True) history state ∧
      (∀ call ∈ state.calls, call.returned = true) ∧
      (state.swarm.protocol chatKey).isSome = true ∧ somePeer ∉ state.swarm.peers chatKey ∧
      state.swarm.Filed somePeer chatKey := by
  constructor
  · refine Machine.trace_run
      (fun history state => observedIndexes (history, state) = (true, true, false))
      ([.pool chatPool, .join "chat" chatKey] ++ advances 0 9 ++
        [.leave chatKey, .advance 1, .join "chat" chatKey] ++ advances 2 9 ++ [.advance 1])
      (by decide +kernel) fun _ state _ observed => ?_
    obtain ⟨returned, _, listed, filed⟩ := observedIndexes_eq observed
    have unfiled : ¬state.swarm.Filed somePeer chatKey := fun is => by cases filed.mp is
    refine ⟨returned, listed.mpr rfl, unfiled, ?_⟩
    exact (Swarm.onPeerRemoved_spec.2.1 chatKey somePeer).mpr
      ⟨listed.mpr rfl, fun both => unfiled both.2⟩
  · refine Machine.trace_run
      (fun history state => observedIndexes (history, state) = (true, false, true))
      ([.pool chatPool, .join "chat" chatKey] ++ advances 0 5 ++ [.added somePeer] ++
        advances 1 5 ++ [.advance 0, .pool ∅, .removed somePeer, .advance 2] ++
        advances 0 3 ++ advances 2 3) (by decide +kernel) fun _ state _ observed => ?_
    obtain ⟨returned, joined, listed, filed⟩ := observedIndexes_eq observed
    have unlisted : somePeer ∉ state.swarm.peers chatKey := fun is => by cases listed.mp is
    exact ⟨returned, joined, unlisted, filed.mpr rfl⟩

end Karyon
