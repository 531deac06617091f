/-
This file proves when the lifecycle events of the peer pool agree with its map.

Every run keeps the map and the spawned peers in step (`PeerPool.WellFormed`). In a
run whose emissions wait for each other, moreover, every peer id has at most one
open peer, one that has been announced and whose removal has not, and it has one
exactly when its last event was an addition (`Agreement`).
-/

import Karyon.Lib.Indexed
import Karyon.P2p.PeerPool

namespace Karyon.P2p

open Transition

namespace PeerPool

/-! ### The map and the spawned peers -/

variable {pool next : PeerPool} {peer other : Nat} {phase : PeerPhase} {task : PeerTask}
  {pid : PeerID} {events history : List PeerEvent}

theorem setPhase_task :
    (pool.setPhase peer phase).spawned[other]? = some task ↔
      ∃ before, pool.spawned[other]? = some before ∧
        task = if peer = other then { before with phase } else before := by
  rw [setPhase, List.getElem?_modify, Option.map_eq_map, Option.map_eq_some_iff]
  refine exists_congr fun before => and_congr_right fun _ => ?_
  by_cases same : peer = other
  · simp only [same, if_true]
    exact eq_comm
  · simp only [same, if_false]
    exact eq_comm

theorem setPhase_eq_some {its : PeerTask} (found : pool.spawned[peer]? = some task) :
    (pool.setPhase peer phase).spawned[other]? = some its ↔
      other = peer ∧ { task with phase } = its ∨
        other ≠ peer ∧ pool.spawned[other]? = some its := by
  rw [setPhase, Indexed.modify_eq_set found, Indexed.set_eq_some found]

/-- A peer of an id in a phase of some kind is one still when a phase was set to one of the same
kind. -/
theorem exists_setPhase_iff (kind : PeerPhase → Prop) (found : pool.spawned[peer]? = some task)
    (same : kind phase ↔ kind task.phase) :
    (∃ its, (pool.setPhase peer phase).spawned[other]? = some its ∧ its.pid = pid ∧
      kind its.phase) ↔ ∃ its, pool.spawned[other]? = some its ∧ its.pid = pid ∧
        kind its.phase := by
  rw [setPhase, Indexed.modify_eq_set found]
  constructor
  · rintro ⟨its, itsFound, owner, holds⟩
    rcases (Indexed.set_eq_some found).mp itsFound with ⟨rfl, rfl⟩ | ⟨_, before⟩
    · exact ⟨task, found, owner, same.mp holds⟩
    · exact ⟨its, before, owner, holds⟩
  · rintro ⟨its, itsFound, owner, holds⟩
    by_cases equal : other = peer
    · subst equal
      cases found.symm.trans itsFound
      exact ⟨_, (Indexed.set_eq_some found).mpr (.inl ⟨rfl, rfl⟩), owner, same.mpr holds⟩
    · exact ⟨its, (Indexed.set_eq_some found).mpr (.inr ⟨equal, itsFound⟩), owner, holds⟩

/-- The map holds the spawned peers that have not left it, a peer that is being admitted is not
in the map, and a peer that is being announced has no other of its id in the map. -/
structure WellFormed (pool : PeerPool) : Prop where
  listed : ∀ pid peer, pool.peers.lookup pid = some peer ↔
    ∃ task, pool.spawned[peer]? = some task ∧ task.pid = pid ∧ task.phase.listed = true
  absent : ∀ pid, pool.runPhase = .building pid ∨ pool.runPhase = .inserting pid →
    pool.peers.lookup pid = none
  announced : ∀ pid peer, pool.runPhase.announcing = some (pid, peer) →
    (∃ task, pool.spawned[peer]? = some task ∧ task.pid = pid) ∧
      ∀ other task, pool.spawned[other]? = some task → task.pid = pid → other ≠ peer →
        task.phase.listed = false

theorem new_wellFormed : WellFormed .new where
  listed pid peer := by
    constructor
    · intro found
      cases found
    · rintro ⟨task, found, _⟩
      cases found
  absent pid admitted := by
    rcases admitted with building | inserting
    · cases building
    · cases inserting
  announced pid peer announcing := by cases announcing

theorem WellFormed.goes (wellFormed : WellFormed pool) {phase : RunPhase}
    (absent : ∀ pid, phase = .building pid ∨ phase = .inserting pid →
      pool.peers.lookup pid = none)
    (announcing : ∀ announced, phase.announcing = some announced →
      pool.runPhase.announcing = some announced) :
    WellFormed { pool with runPhase := phase } where
  listed := wellFormed.listed
  absent := absent
  announced pid peer announced := wellFormed.announced pid peer (announcing _ announced)

section

variable (wellFormed : WellFormed pool)

include wellFormed

theorem WellFormed.inserts (inserting : pool.runPhase = .inserting pid) :
    WellFormed (pool.inserted pid) := by
  have missing := wellFormed.absent pid (Or.inr inserting)
  have unlisted (peer : Nat) (task : PeerTask) (found : pool.spawned[peer]? = some task)
      (same : task.pid = pid) : task.phase.listed = false := by
    rw [← Bool.not_eq_true]
    intro listed
    have present := (wellFormed.listed pid peer).mpr ⟨task, found, same, listed⟩
    rw [missing] at present
    cases present
  refine ⟨fun id peer => ?_, ?_, fun id peer announcing => ?_⟩
  · simp only [inserted, Indexed.concat_eq_some]
    by_cases same : id = pid
    · subst same
      rw [AList.lookup_insert]
      constructor
      · rintro found
        cases found
        exact ⟨_, Or.inr ⟨rfl, rfl⟩, rfl, rfl⟩
      · rintro ⟨task, old | ⟨rfl, rfl⟩, owner, listed⟩
        · rw [unlisted peer task old owner] at listed
          cases listed
        · rfl
    · rw [AList.lookup_insert_ne same, wellFormed.listed]
      refine exists_congr fun task => ⟨?_, ?_⟩
      · rintro ⟨found, rest⟩
        exact ⟨Or.inl found, rest⟩
      · rintro ⟨old | ⟨rfl, rfl⟩, owner, listed⟩
        · exact ⟨old, owner, listed⟩
        · exact absurd owner.symm same
  · rintro id (building | inserting)
    · cases building
    · cases inserting
  · cases announcing
    simp only [inserted, Indexed.concat_eq_some]
    refine ⟨⟨_, Or.inr ⟨trivial, rfl⟩, rfl⟩, ?_⟩
    rintro other task (old | ⟨rfl, _⟩) owner different
    · exact unlisted other task old owner
    · exact absurd rfl different

section

variable (found : pool.spawned[peer]? = some task)

include found

theorem WellFormed.announced_setPhase (stays : phase.listed = true → task.phase.listed = true)
    (pid : PeerID) (announced : Nat)
    (announcing : pool.runPhase.announcing = some (pid, announced)) :
    (∃ task, (pool.setPhase peer phase).spawned[announced]? = some task ∧ task.pid = pid) ∧
      ∀ other task, (pool.setPhase peer phase).spawned[other]? = some task → task.pid = pid →
        other ≠ announced → task.phase.listed = false := by
  obtain ⟨⟨its, itsFound, owner⟩, others⟩ := wellFormed.announced pid announced announcing
  constructor
  · refine ⟨_, setPhase_task.mpr ⟨its, itsFound, rfl⟩, ?_⟩
    split
    · exact owner
    · exact owner
  · intro other after afterFound afterOwner different
    rcases (setPhase_eq_some found).mp afterFound with ⟨rfl, rfl⟩ | ⟨_, before⟩
    · have gone := others other task found afterOwner different
      rw [← Bool.not_eq_true]
      intro listed
      rw [stays listed] at gone
      cases gone
    · exact others other after before afterOwner different

theorem WellFormed.works (listed : phase.listed = task.phase.listed) :
    WellFormed (pool.setPhase peer phase) where
  listed pid other := by
    refine (wellFormed.listed pid other).trans
      (exists_setPhase_iff (fun phase => phase.listed = true) found ?_).symm
    rw [listed]
  absent := wellFormed.absent
  announced := wellFormed.announced_setPhase found fun present => listed.symm.trans present

theorem WellFormed.leaves (removing : task.phase = .removing) :
    WellFormed { pool.setPhase peer .shuttingDown with peers := pool.peers.erase task.pid } := by
  have present : pool.peers.lookup task.pid = some peer :=
    (wellFormed.listed task.pid peer).mpr ⟨task, found, rfl, by rw [removing]; rfl⟩
  refine ⟨fun pid other => ?_, fun pid admitted => ?_,
    wellFormed.announced_setPhase found nofun⟩
  · by_cases same : pid = task.pid
    · subst same
      rw [AList.lookup_erase]
      refine iff_of_false nofun ?_
      rintro ⟨after, afterFound, owner, listed⟩
      rcases (setPhase_eq_some found).mp afterFound with ⟨rfl, rfl⟩ | ⟨different, before⟩
      · cases listed
      · have twice := (wellFormed.listed task.pid other).mpr ⟨after, before, owner, listed⟩
        rw [present] at twice
        cases twice
        exact different rfl
    · rw [AList.lookup_erase_ne same, wellFormed.listed]
      constructor
      · rintro ⟨before, beforeFound, owner, listed⟩
        refine ⟨before, (setPhase_eq_some found).mpr (Or.inr ⟨?_, beforeFound⟩), owner, listed⟩
        rintro rfl
        cases found.symm.trans beforeFound
        exact same owner.symm
      · rintro ⟨after, afterFound, owner, listed⟩
        rcases (setPhase_eq_some found).mp afterFound with ⟨rfl, rfl⟩ | ⟨_, before⟩
        · cases listed
        · exact ⟨after, before, owner, listed⟩
  · have missing := wellFormed.absent pid admitted
    by_cases same : pid = task.pid
    · subst same
      exact AList.lookup_erase _ _
    · rw [AList.lookup_erase_ne same]
      exact missing

end

end

theorem Effect.wellFormed {action : PoolAction} (effect : Effect pool action next events)
    (wellFormed : WellFormed pool) :
    WellFormed next := by
  cases effect with
  | goes _ absent built announcing =>
    refine wellFormed.goes (fun pid admitted => ?_) fun announced known => announcing ▸ known
    rcases admitted with building | inserting
    · exact absent pid building
    · exact wellFormed.absent pid (Or.inl (built pid inserting))
  | inserts inserting => exact wellFormed.inserts inserting
  | announces =>
    refine wellFormed.goes (fun pid admitted => ?_) nofun
    rcases admitted with building | inserting
    · cases building
    · cases inserting
  | works found listed => exact wellFormed.works found listed
  | leaves found removing => exact wellFormed.leaves found removing
  | vanishes found removing absent =>
    have present := (wellFormed.listed _ _).mpr ⟨_, found, rfl, by rw [removing]; rfl⟩
    rw [absent] at present
    cases present
  | departs found emitting => exact wellFormed.works found (by rw [emitting]; rfl)

/-! ### Open peers and the events of their ids -/

/-- The peer was announced and its removal was not. -/
def Open (pool : PeerPool) (pid : PeerID) (peer : Nat) : Prop :=
  (∃ task, pool.spawned[peer]? = some task ∧ task.pid = pid ∧ task.phase ≠ .finished) ∧
    pool.runPhase.announcing ≠ some (pid, peer)

theorem open_works (found : pool.spawned[peer]? = some task) (unfinished : task.phase ≠ .finished)
    (remains : phase ≠ .finished) (pid : PeerID) (other : Nat) :
    Open (pool.setPhase peer phase) pid other ↔ Open pool pid other := by
  exact and_congr_left fun _ =>
    exists_setPhase_iff (· ≠ .finished) found ⟨fun _ => unfinished, fun _ => remains⟩

/-- A peer that has finished is not open; the others are as before. -/
theorem open_finished (pid : PeerID) (other : Nat) :
    Open (pool.setPhase peer .finished) pid other ↔ Open pool pid other ∧ other ≠ peer := by
  constructor
  · rintro ⟨⟨after, afterFound, owner, active⟩, announced⟩
    obtain ⟨before, beforeFound, rfl⟩ := setPhase_task.mp afterFound
    by_cases same : peer = other
    · simp only [same, if_true] at active
      exact absurd rfl active
    · simp only [same, if_false] at owner active
      exact ⟨⟨⟨before, beforeFound, owner, active⟩, announced⟩, fun equal => same equal.symm⟩
  · rintro ⟨⟨⟨before, beforeFound, owner, active⟩, announced⟩, different⟩
    refine ⟨⟨before, setPhase_task.mpr ⟨before, beforeFound, ?_⟩, owner, active⟩, announced⟩
    rw [if_neg (Ne.symm different)]

theorem alternates_concat {events : List Bool} {event : Bool} (alternates : Alternates events)
    (next : event = (events.length % 2 == 0)) : Alternates (events ++ [event]) := by
  intro index other found
  rcases Indexed.concat_eq_some.mp found with old | ⟨rfl, rfl⟩
  · exact alternates index other old
  · exact next

/-- The last of alternating events is an addition when their number is odd. -/
theorem getLast?_of_alternates {events : List Bool} (alternates : Alternates events) :
    events.getLast? = some true ↔ events.length % 2 = 1 := by
  rw [List.getLast?_eq_getElem?]
  constructor
  · intro last
    have nonempty : events.length - 1 < events.length := (List.getElem?_eq_some_iff.mp last).1
    have parity := alternates _ _ last
    rw [eq_comm, beq_iff_eq] at parity
    omega
  · intro odd
    have bound : events.length - 1 < events.length := by omega
    rw [List.getElem?_eq_getElem bound]
    have parity := alternates _ _ (List.getElem?_eq_getElem bound)
    rw [parity, Option.some.injEq, beq_iff_eq]
    omega

theorem lifecycle_append (pid : PeerID) (history events : List PeerEvent) :
    lifecycle pid (history ++ events) = lifecycle pid history ++ lifecycle pid events :=
  List.filterMap_append

/-- Events and map agree: the events of every id alternate, an id has at most one open peer and
has one when its last event was an addition, and a peer that is being announced is not finished
already. -/
structure Agreement (history : List PeerEvent) (pool : PeerPool) : Prop where
  wellFormed : WellFormed pool
  alternates : ∀ pid, Alternates (lifecycle pid history)
  opened : ∀ pid, (lifecycle pid history).length % 2 = 1 ↔ ∃ peer, Open pool pid peer
  unique : ∀ pid first second, Open pool pid first → Open pool pid second → first = second
  pending : ∀ pid peer task, pool.runPhase.announcing = some (pid, peer) →
    pool.spawned[peer]? = some task → task.phase ≠ .finished

/-- A step that emits no addition or removal and leaves the same peers open keeps the
agreement. -/
theorem Agreement.silent (agreement : Agreement history pool) (wellFormed : WellFormed next)
    (quiet : ∀ pid, lifecycle pid events = [])
    (same : ∀ pid peer, Open next pid peer ↔ Open pool pid peer)
    (pending : ∀ pid peer task, next.runPhase.announcing = some (pid, peer) →
      next.spawned[peer]? = some task → task.phase ≠ .finished) :
    Agreement (history ++ events) next where
  wellFormed := wellFormed
  alternates pid := by
    rw [lifecycle_append, quiet, List.append_nil]
    exact agreement.alternates pid
  opened pid := by
    rw [lifecycle_append, quiet, List.append_nil, agreement.opened]
    exact exists_congr fun peer => (same pid peer).symm
  unique pid first second firstOpen secondOpen :=
    agreement.unique pid first second ((same pid first).mp firstOpen)
      ((same pid second).mp secondOpen)
  pending := pending

theorem lifecycle_added (pid id : PeerID) :
    lifecycle pid [.added id] = if id = pid then [true] else [] := by
  unfold lifecycle
  split <;> simp [*]

theorem lifecycle_removed (pid id : PeerID) :
    lifecycle pid [.removed id] = if id = pid then [false] else [] := by
  unfold lifecycle
  split <;> simp [*]

/-- A peer that is inserted is not open until it is announced. -/
theorem open_inserts (inserting : pool.runPhase = .inserting pid) (id : PeerID) (peer : Nat) :
    Open (pool.inserted pid) id peer ↔ Open pool id peer := by
  have nobody : pool.runPhase.announcing = none := by
    rw [inserting]
    rfl
  unfold Open
  simp only [inserted, Indexed.concat_eq_some, nobody]
  constructor
  · rintro ⟨⟨task, old | ⟨rfl, rfl⟩, owner, active⟩, announced⟩
    · exact ⟨⟨task, old, owner, active⟩, nofun⟩
    · rw [← owner] at announced
      exact absurd rfl announced
  · rintro ⟨⟨task, found, owner, active⟩, _⟩
    refine ⟨⟨task, Or.inl found, owner, active⟩, fun announced => ?_⟩
    cases announced
    rw [List.getElem?_eq_none (Nat.le_refl _)] at found
    cases found

theorem Agreement.inserts (agreement : Agreement history pool)
    (inserting : pool.runPhase = .inserting pid) :
    Agreement (history ++ []) (pool.inserted pid) := by
  refine agreement.silent (agreement.wellFormed.inserts inserting) (fun _ => rfl)
    (open_inserts inserting) fun id peer task announcing found => ?_
  cases announcing
  rcases Indexed.concat_eq_some.mp found with old | ⟨_, rfl⟩
  · rw [List.getElem?_eq_none (Nat.le_refl _)] at old
    cases old
  · exact nofun

theorem eq_finished (unlisted : phase.listed = false) (announced : phase.unannounced = false) :
    phase = .finished := by
  cases phase with
  | finished => rfl
  | running | removing => cases unlisted
  | shuttingDown | notifying | emitting => cases announced

theorem unannounced_of_inOrder (emitting : pool.runPhase = .emitting pid peer)
    (ordered : pool.inOrder .advance = true) (found : pool.spawned[other]? = some task)
    (owner : task.pid = pid) (different : other ≠ peer) : task.phase.unannounced = false := by
  obtain ⟨bound, rfl⟩ := List.getElem?_eq_some_iff.mp found
  unfold inOrder at ordered
  rw [emitting] at ordered
  exact of_decide_eq_true ordered ⟨other, bound⟩ owner different

theorem announcing_of_inOrder (found : pool.spawned[peer]? = some task)
    (emitting : task.phase = .emitting) (ordered : pool.inOrder (.callback peer) = true) :
    pool.runPhase.announcing ≠ some (task.pid, peer) := by
  obtain ⟨pid, phase⟩ := task
  subst emitting
  unfold inOrder at ordered
  simp only [found] at ordered
  exact of_decide_eq_true ordered

section

variable (agreement : Agreement history pool)

include agreement

section

variable (emitting : pool.runPhase = .emitting pid peer)

include emitting

/-- When the run loop announces a peer in its turn, no peer of the id is open. -/
theorem Agreement.not_open (ordered : pool.inOrder .advance = true) (other : Nat) :
    ¬ Open pool pid other := by
  have announcing : pool.runPhase.announcing = some (pid, peer) := by
    rw [emitting]
    rfl
  rintro ⟨⟨its, found, owner, active⟩, announced⟩
  have different : other ≠ peer := by
    rintro rfl
    exact announced announcing
  have unlisted := (agreement.wellFormed.announced pid peer announcing).2 other its found owner
    different
  have announcedAll := unannounced_of_inOrder emitting ordered found owner different
  exact active (eq_finished unlisted announcedAll)

theorem Agreement.open_announced (id : PeerID) (other : Nat) :
    Open { pool with runPhase := .idle } id other ↔
      Open pool id other ∨ (id = pid ∧ other = peer) := by
  have announcing : pool.runPhase.announcing = some (pid, peer) := by
    rw [emitting]
    rfl
  obtain ⟨⟨task, found, owner⟩, _⟩ := agreement.wellFormed.announced pid peer announcing
  constructor
  · rintro ⟨active, _⟩
    by_cases announced : pool.runPhase.announcing = some (id, other)
    · rw [announcing] at announced
      cases announced
      exact Or.inr ⟨rfl, rfl⟩
    · exact Or.inl ⟨active, announced⟩
  · rintro (⟨active, _⟩ | ⟨rfl, rfl⟩)
    · exact ⟨active, nofun⟩
    · exact ⟨⟨task, found, owner, agreement.pending _ _ task announcing found⟩, nofun⟩

theorem Agreement.announces (ordered : pool.inOrder .advance = true) :
    Agreement (history ++ [.added pid]) { pool with runPhase := .idle } := by
  have closed := agreement.not_open emitting ordered
  have open_iff := agreement.open_announced emitting
  have even : (lifecycle pid history).length % 2 = 0 := by
    by_contra odd
    obtain ⟨other, isOpen⟩ := (agreement.opened pid).mp (by omega)
    exact closed other isOpen
  refine ⟨(Effect.announces emitting).wellFormed agreement.wellFormed, fun id => ?_, fun id => ?_,
    fun id first second firstOpen secondOpen => ?_,
    fun id other its announced => by cases announced⟩
  · rw [lifecycle_append, lifecycle_added]
    split
    · rename_i same
      subst same
      exact alternates_concat (agreement.alternates pid) (by rw [even]; rfl)
    · rw [List.append_nil]
      exact agreement.alternates id
  · rw [lifecycle_append, lifecycle_added]
    simp only [open_iff]
    split
    · rename_i same
      subst same
      refine iff_of_true ?_ ⟨peer, Or.inr ⟨rfl, rfl⟩⟩
      rw [List.length_append, List.length_singleton]
      omega
    · rename_i different
      rw [List.append_nil, agreement.opened]
      refine exists_congr fun other => ⟨Or.inl, ?_⟩
      rintro (isOpen | ⟨rfl, _⟩)
      · exact isOpen
      · exact absurd rfl different
  · rcases (open_iff id first).mp firstOpen with firstOld | ⟨rfl, rfl⟩
    · rcases (open_iff id second).mp secondOpen with secondOld | ⟨rfl, rfl⟩
      · exact agreement.unique id first second firstOld secondOld
      · exact absurd firstOld (closed first)
    · rcases (open_iff id second).mp secondOpen with secondOld | ⟨_, rfl⟩
      · exact absurd secondOld (closed second)
      · rfl

end

theorem Agreement.departs (found : pool.spawned[peer]? = some task)
    (emitting : task.phase = .emitting) (ordered : pool.inOrder (.callback peer) = true) :
    Agreement (history ++ [.removed task.pid]) (pool.setPhase peer .finished) := by
  have announced := announcing_of_inOrder found emitting ordered
  have isOpen : Open pool task.pid peer :=
    ⟨⟨task, found, rfl, by rw [emitting]; nofun⟩, announced⟩
  have odd := (agreement.opened task.pid).mpr ⟨peer, isOpen⟩
  refine ⟨(Effect.departs found emitting).wellFormed agreement.wellFormed, fun id => ?_,
    fun id => ?_, fun id first second firstOpen secondOpen => ?_,
    fun id other its announcing itsFound => ?_⟩
  · rw [lifecycle_append, lifecycle_removed]
    split
    · rename_i same
      subst same
      exact alternates_concat (agreement.alternates task.pid) (by rw [odd]; rfl)
    · rw [List.append_nil]
      exact agreement.alternates id
  · rw [lifecycle_append, lifecycle_removed]
    simp only [open_finished]
    split
    · rename_i same
      subst same
      refine iff_of_false ?_ ?_
      · rw [List.length_append, List.length_singleton]
        omega
      · rintro ⟨other, otherOpen, different⟩
        exact different (agreement.unique task.pid other peer otherOpen isOpen)
    · rename_i different
      rw [List.append_nil, agreement.opened]
      refine exists_congr fun other => ⟨fun otherOpen => ⟨otherOpen, ?_⟩, And.left⟩
      rintro rfl
      obtain ⟨⟨its, itsFound, owner, _⟩, _⟩ := otherOpen
      rw [found] at itsFound
      cases itsFound
      exact different owner
  · exact agreement.unique id first second ((open_finished id first).mp firstOpen).1
      ((open_finished id second).mp secondOpen).1
  · rcases (setPhase_eq_some found).mp itsFound with ⟨rfl, rfl⟩ | ⟨_, before⟩
    · obtain ⟨⟨owned, ownedFound, rfl⟩, _⟩ := agreement.wellFormed.announced id other announcing
      cases found.symm.trans ownedFound
      exact absurd announcing announced
    · exact agreement.pending id other _ announcing before

/-- A peer that is being announced is not finished by a step of its task that does not
finish. -/
theorem Agreement.pending_setPhase (remains : phase ≠ .finished) (pid : PeerID) (other : Nat)
    (task : PeerTask) (announcing : pool.runPhase.announcing = some (pid, other))
    (found : (pool.setPhase peer phase).spawned[other]? = some task) :
    task.phase ≠ .finished := by
  obtain ⟨before, beforeFound, rfl⟩ := setPhase_task.mp found
  by_cases same : peer = other
  · rw [if_pos same]
    exact remains
  · rw [if_neg same]
    exact agreement.pending pid other before announcing beforeFound

end

theorem Effect.agreement {action : PoolAction} (effect : Effect pool action next events)
    (agreement : Agreement history pool) (ordered : pool.inOrder action = true) :
    Agreement (history ++ events) next := by
  have wellFormed := effect.wellFormed agreement.wellFormed
  cases effect with
  | goes silent _ _ announcing =>
    exact agreement.silent wellFormed silent (fun _ _ => by rw [Open, Open, announcing])
      fun pid peer task known => agreement.pending pid peer task (announcing ▸ known)
  | inserts inserting => exact agreement.inserts inserting
  | announces emitting => exact agreement.announces emitting ordered
  | works found _ unfinished remains =>
    exact agreement.silent wellFormed (fun _ => rfl) (open_works found unfinished remains)
      (agreement.pending_setPhase remains)
  | leaves found removing =>
    exact agreement.silent wellFormed (fun _ => rfl)
      (open_works found (by rw [removing]; nofun) nofun) (agreement.pending_setPhase nofun)
  | vanishes found removing absent =>
    have present := (agreement.wellFormed.listed _ _).mpr ⟨_, found, rfl, by rw [removing]; rfl⟩
    rw [absent] at present
    cases present
  | departs found emitting => exact agreement.departs found emitting ordered

theorem new_agreement : Agreement [] .new where
  wellFormed := new_wellFormed
  alternates pid index event found := by cases found
  opened pid := by
    refine iff_of_false nofun ?_
    rintro ⟨peer, ⟨task, found, _⟩, _⟩
    cases found
  unique pid first second firstOpen := by
    obtain ⟨⟨task, found, _⟩, _⟩ := firstOpen
    cases found
  pending pid peer task announcing := by cases announcing

theorem announcing_eq_none {phase : RunPhase} (idle : phase.admitting = false) :
    phase.announcing = none := by
  cases phase with
  | notifying pid peer | emitting pid peer => cases idle
  | _ => rfl

theorem listed_of_settled (settled : phase.leaving = false) (active : phase ≠ .finished) :
    phase.listed = true := by
  cases phase with
  | running => rfl
  | finished => exact absurd rfl active
  | _ => cases settled

/-- When nothing is in progress, the open peers are those in the map. -/
theorem Agreement.open_iff_listed (agreement : Agreement history pool) (quiescent : pool.Quiescent)
    (pid : PeerID) (peer : Nat) :
    Open pool pid peer ↔ pool.peers.lookup pid = some peer := by
  obtain ⟨idle, settled⟩ := quiescent
  rw [agreement.wellFormed.listed, Open, announcing_eq_none idle]
  constructor
  · rintro ⟨⟨task, found, owner, active⟩, _⟩
    exact ⟨task, found, owner,
      listed_of_settled (settled task (List.mem_of_getElem? found)) active⟩
  · rintro ⟨task, found, owner, listed⟩
    refine ⟨⟨task, found, owner, fun finished => ?_⟩, nofun⟩
    rw [finished] at listed
    cases listed

end PeerPool

/-- Lifecycle events and the map of peers. In every run whose emissions wait for each other, the
additions and removals of each peer id alternate and begin with an addition; and whenever no
admission and no removal is in progress, the last event of an id is an addition if and only if
the id is in the map. -/
theorem peerPool_lifecycle (history : List PeerEvent) (pool : PeerPool)
    (run : poolMachine.Run (fun pool action => pool.inOrder action = true) history pool)
    (pid : PeerID) :
    Alternates (lifecycle pid history) ∧
      (pool.Quiescent → ((lifecycle pid history).getLast? = some true ↔
        (pool.peers.lookup pid).isSome = true)) := by
  have agreement := run.invariant PeerPool.Agreement PeerPool.new_agreement
    fun history state action next events agreement ordered step =>
      (PeerPool.step_effect step).agreement agreement ordered
  refine ⟨agreement.alternates pid, fun quiescent => ?_⟩
  rw [PeerPool.getLast?_of_alternates (agreement.alternates pid), agreement.opened,
    Option.isSome_iff_exists]
  exact exists_congr (agreement.open_iff_listed quiescent pid)

def carolId : PeerID := ⟨.replicate 32 3⟩

/-- A peer comes, goes and comes again, every emission in its turn. -/
theorem peerPool_lifecycle_reconnect :
    ∃ history pool, poolMachine.Run (fun pool action => pool.inOrder action = true) history pool ∧
      history = [.added carolId, .removed carolId, .added carolId] ∧
      Alternates (lifecycle carolId history) ∧ (pool.peers.lookup carolId).isSome = true := by
  refine Machine.reach_run (fun history pool =>
      history = [.added carolId, .removed carolId, .added carolId] ∧ pool =
        ⟨.singleton carolId 1, .idle, [⟨carolId, .finished⟩, ⟨carolId, .running⟩]⟩)
    [.handshake (.ok carolId), .advance, .setup true, .advance, .advance, .advance,
      .disconnect 0, .callback 0, .callback 0, .callback 0, .callback 0,
      .handshake (.ok carolId), .advance, .setup true, .advance, .advance, .advance]
    ⟨_, rfl, rfl, rfl⟩ ?_
  rintro _ _ run ⟨rfl, rfl⟩
  obtain ⟨alternates, agrees⟩ := peerPool_lifecycle _ _ run carolId
  exact ⟨rfl, alternates, (agrees ⟨rfl, by decide⟩).mp rfl⟩

/-- The removal of a peer that disconnects at once is emitted before its addition; and a peer
that reconnects while the callback of its former connection still waits is announced twice in a
row, and last reported as removed although it is in the map. -/
theorem peerPool_lifecycle_race :
    (∃ history pool, poolMachine.Run (fun _ _ => True) history pool ∧
      history = [.removed carolId, .added carolId] ∧ ¬ Alternates (lifecycle carolId history)) ∧
    ∃ history pool, poolMachine.Run (fun _ _ => True) history pool ∧
      history = [.added carolId, .added carolId, .removed carolId] ∧
      ¬ Alternates (lifecycle carolId history) ∧ pool.Quiescent ∧
      (lifecycle carolId history).getLast? = some false ∧
      (pool.peers.lookup carolId).isSome = true := by
  constructor
  · refine Machine.trace_holds
      [.handshake (.ok carolId), .advance, .setup true, .advance, .disconnect 0,
        .callback 0, .callback 0, .callback 0, .callback 0, .advance, .advance]
      ⟨_, rfl, rfl, fun alternates => ?_⟩
    have first := alternates 0 false rfl
    cases first
  · refine Machine.trace_holds
      [.handshake (.ok carolId), .advance, .setup true, .advance, .advance, .advance,
        .disconnect 0, .callback 0, .handshake (.ok carolId), .advance, .setup true, .advance,
        .advance, .advance, .callback 0, .callback 0, .callback 0]
      ⟨_, rfl, rfl, fun alternates => ?_, ⟨rfl, by decide⟩, rfl, rfl⟩
    have second := alternates 1 true rfl
    cases second

end Karyon.P2p
