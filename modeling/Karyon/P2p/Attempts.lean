/-
This file proves when discovery hands a peer to the node at most once per attempt.

An attempt begins when the connect loop picks an entry and ends when discovery has processed a
report of the node that the peer is gone or could not be reached. Meanwhile its entry has to stay
marked as connected, or the loop may pick it again. The verdicts of the refresh and of failed
lookups do not look at the entry they are written to, so they can break this
(`connectLoop_hands_twice`), and an entry may be gone before it is marked; in a run that spares the
connected entries and the one that is about to be marked nothing else does
(`connectLoop_hands_once`).
-/

import Karyon.P2p.Discovery

namespace Karyon.P2p

open Transition

/-! ### Attempts -/

/-- How an event changes whether an attempt for the key is under way. -/
def attempt (key : Key) (underWay : Bool) : DiscoveryEvent → Bool
  | .picked picked => underWay || picked == key
  | .settled settled => underWay && settled != key
  | .queued _ => underWay

/-- The key was picked, and no report about it has been processed since. -/
def outstanding (key : Key) (history : List DiscoveryEvent) : Bool :=
  history.foldl (attempt key) false

theorem outstanding_concat (key : Key) (history : List DiscoveryEvent) (event : DiscoveryEvent) :
    outstanding key (history ++ [event]) = attempt key (outstanding key history) event := by
  rw [outstanding, List.foldl_append]
  rfl

/-- No verdict is written to an entry that is marked as connected, and an entry is marked while it
is in the table. -/
def Discovery.sparesConnected (self : Discovery) (action : DiscoveryAction) : Bool :=
  (match self.verdict action with
    | some key => decide (¬ self.table.Connected key)
    | none => true) &&
  match action, self.connectPhase with
  | .mark _, .marking entry => (self.table.status entry.key).isSome
  | _, _ => true

/-! ### Connected entries -/

namespace RoutingTable

variable {table : RoutingTable} {key localKey : Key}

theorem connected_updateEntry_other {other : Key} (entryFlag : EntryStatusFlag) (now : Int)
    (different : other ≠ key) :
    (table.updateEntry key entryFlag now).Connected other ↔ table.Connected other := by
  rw [RoutingTable.Connected, status_updateEntry_other _ _ _ different]
  exact Iff.rfl

theorem connected_updateEntry_self {flag : EntryStatusFlag} (now : Int)
    (present : table.status key = some flag) :
    (table.updateEntry key CONNECTED_ENTRY now).Connected key := by
  rw [RoutingTable.Connected, status_updateEntry_self, present]
  rfl

theorem Connected.updateEntry {other : Key} (now : Int) (connected : table.Connected other) :
    (table.updateEntry key CONNECTED_ENTRY now).Connected other := by
  by_cases same : other = key
  · subst same
    exact connected_updateEntry_self now connected
  · exact (connected_updateEntry_other _ now same).mpr connected

variable (wellFormed : table.WellFormed localKey)

include wellFormed

theorem addEntries_wellFormed (entries : List Entry) (now : Int) :
    (table.addEntries entries now).WellFormed localKey := by
  unfold RoutingTable.addEntries
  induction entries generalizing table with
  | nil => exact wellFormed
  | cons entry rest inductionHypothesis =>
    exact inductionHypothesis (addEntry_wellFormed wellFormed entry now)

theorem connected_addEntries (entries : List Entry) (now : Int) (key : Key) :
    (table.addEntries entries now).Connected key ↔ table.Connected key := by
  unfold RoutingTable.addEntries
  induction entries generalizing table with
  | nil => exact Iff.rfl
  | cons entry rest inductionHypothesis =>
    exact (inductionHypothesis (addEntry_wellFormed wellFormed entry now)).trans
      (connected_addEntry wellFormed entry now key)

/-- A verdict keeps the table well-formed and leaves the other keys alone. -/
theorem WellFormed.judged {next : RoutingTable} (change : next = table.removeEntry key ∨
      ∃ flag now, flag ≠ CONNECTED_ENTRY ∧ next = table.updateEntry key flag now) :
    next.WellFormed localKey ∧ ∀ other, other ≠ key → (next.Connected other ↔
      table.Connected other) := by
  rcases change with rfl | ⟨flag, now, _, rfl⟩
  · refine ⟨removeEntry_wellFormed wellFormed key, fun other different => ?_⟩
    rw [RoutingTable.Connected, status_removeEntry_other _ different]
    exact Iff.rfl
  · exact ⟨updateEntry_wellFormed wellFormed key flag now,
      fun other different => connected_updateEntry_other flag now different⟩

end RoutingTable

/-! ### What every step keeps -/

/-- The entries of the attempts that are under way are connected, no entry was picked while an
attempt for it was under way, nor is one about to be, and every picked entry went into the queue
once, except the one that is about to. -/
structure HandsOnce (config : DiscoveryConfig) (history : List DiscoveryEvent)
    (state : Discovery) : Prop where
  wellFormed : state.table.WellFormed config.localKey
  connected : ∀ key, outstanding key history = true → state.table.Connected key
  once : ∀ before key, before ++ [.picked key] <+: history → outstanding key before = false
  marking : ∀ entry, state.connectPhase = .marking entry → outstanding entry.key history = false
  queued : ∀ key : Key, history.count (.queued (some ⟨key⟩)) +
    (if state.connectPhase.handing = some ⟨key⟩ then 1 else 0) = history.count (.picked key)

namespace HandsOnce

variable {config : DiscoveryConfig} {history : List DiscoveryEvent} {self : Discovery}

theorem new (config : DiscoveryConfig) : HandsOnce config [] (.new config) where
  wellFormed := RoutingTable.new_wellFormed config.localKey
  connected key underWay := by cases underWay
  once before key start := by
    have empty := List.prefix_nil.mp start
    cases before <;> cases empty
  marking entry phase := by cases phase
  queued key := rfl

section

variable (handsOnce : HandsOnce config history self)

include handsOnce

variable {entry : Entry}

/-- An entry that is found is pending, so no attempt for it is under way. -/
theorem not_outstanding {localBloom : LocalBloom} {draw : Draw}
    (found : self.table.randomEntryFiltered PENDING_ENTRY localBloom draw = some entry) :
    outstanding entry.key history = false := by
  obtain ⟨flag, status, pending⟩ :=
    RoutingTable.randomEntryFiltered_status handsOnce.wellFormed found
  refine Bool.eq_false_of_not_eq_true fun underWay => ?_
  have connected := handsOnce.connected entry.key underWay
  rw [RoutingTable.Connected, status, Option.some_inj] at connected
  rw [connected] at pending
  exact pending (by decide)

theorem picks {now : Int} (found : self.connectPhase = .marking entry)
    (present : (self.table.status entry.key).isSome = true) :
    HandsOnce config (history ++ [.picked entry.key])
      { self with
        table := self.table.updateEntry entry.key CONNECTED_ENTRY now
        connectPhase := .pushing (.ofEntry entry) } where
  wellFormed := RoutingTable.updateEntry_wellFormed handsOnce.wellFormed _ _ _
  connected key underWay := by
    by_cases same : key = entry.key
    · obtain ⟨flag, status⟩ := Option.isSome_iff_exists.mp present
      rw [same]
      exact RoutingTable.connected_updateEntry_self now status
    · rw [outstanding_concat, attempt, beq_eq_false_iff_ne.mpr (Ne.symm same),
        Bool.or_false] at underWay
      exact (handsOnce.connected key underWay).updateEntry now
  once before key start := by
    rcases List.prefix_concat_iff.mp start with whole | earlier
    · obtain ⟨rfl, last⟩ := List.append_inj' whole rfl
      cases last
      exact handsOnce.marking entry found
    · exact handsOnce.once before key earlier
  marking other phase := by cases phase
  queued key := by
    have before := handsOnce.queued key
    rw [found, if_neg nofun, Nat.add_zero] at before
    have handing : ConnectPhase.handing (.pushing (.ofEntry entry)) = some ⟨entry.key⟩ := rfl
    rw [List.count_append, List.count_append, before, handing, List.count_singleton,
      List.count_singleton]
    by_cases same : entry.key = key
    · simp [same]
    · have apart : (⟨entry.key⟩ : PeerID) ≠ ⟨key⟩ := fun equal => same (PeerID.mk.inj equal)
      simp [same, apart]

theorem queues {peer : DiscoveredPeer} {phase : ConnectPhase}
    (handing : self.connectPhase.handing = peer.peerId) (idle : phase.handing = none)
    (searches : ∀ entry, phase ≠ .marking entry) :
    HandsOnce config (history ++ [.queued peer.peerId])
      { self with peerQueue := self.peerQueue ++ [peer], connectPhase := phase } where
  wellFormed := handsOnce.wellFormed
  connected key underWay := by
    rw [outstanding_concat] at underWay
    exact handsOnce.connected key underWay
  once before key start := by
    rcases List.prefix_concat_iff.mp start with whole | earlier
    · cases (List.append_inj' whole rfl).2
    · exact handsOnce.once before key earlier
  marking entry phase := absurd phase (searches entry)
  queued key := by
    have before := handsOnce.queued key
    rw [handing] at before
    rw [idle, if_neg nofun, Nat.add_zero, List.count_append, List.count_append, ← before,
      List.count_singleton, List.count_singleton]
    by_cases same : peer.peerId = some ⟨key⟩
    · simp [same]
    · simp [same]

/-- A step that emits nothing and connects and disconnects no entry of an attempt. -/
theorem silent {next : Discovery} (wellFormed : next.table.WellFormed config.localKey)
    (connected : ∀ key, outstanding key history = true → self.table.Connected key →
      next.table.Connected key)
    (handing : next.connectPhase.handing = self.connectPhase.handing)
    (marking : ∀ entry, next.connectPhase = .marking entry →
      outstanding entry.key history = false) :
    HandsOnce config (history ++ []) next := by
  rw [List.append_nil]
  refine ⟨wellFormed, fun key underWay => ?_, handsOnce.once, marking, fun key => ?_⟩
  · exact connected key underWay (handsOnce.connected key underWay)
  · rw [handing]
    exact handsOnce.queued key

/-- A step that leaves the connect loop as it is or moves it on without a pick. -/
theorem follows {next : Discovery} (wellFormed : next.table.WellFormed config.localKey)
    (connected : ∀ key, outstanding key history = true → self.table.Connected key →
      next.table.Connected key) (follows : next.connectPhase.Follows self.connectPhase) :
    HandsOnce config (history ++ []) next :=
  handsOnce.silent wellFormed connected follows.handing
    fun entry phase => handsOnce.marking entry (follows.marking entry phase)

theorem settles {pid : PeerID} {flag : EntryStatusFlag} {now : Int} :
    HandsOnce config (history ++ [.settled pid.bytes])
      { self with table := self.table.updateEntry pid.bytes flag now } where
  wellFormed := RoutingTable.updateEntry_wellFormed handsOnce.wellFormed _ _ _
  connected key underWay := by
    rw [outstanding_concat] at underWay
    obtain ⟨before, different⟩ := Bool.and_eq_true_iff.mp underWay
    exact (RoutingTable.connected_updateEntry_other flag now (bne_iff_ne.mp different).symm).mpr
      (handsOnce.connected key before)
  once before key start := by
    rcases List.prefix_concat_iff.mp start with whole | earlier
    · cases (List.append_inj' whole rfl).2
    · exact handsOnce.once before key earlier
  marking entry phase := by
    rw [outstanding_concat, handsOnce.marking entry phase]
    rfl
  queued key := by
    have before := handsOnce.queued key
    rw [List.count_append, List.count_append, List.count_singleton, List.count_singleton]
    simpa using before

end

end HandsOnce

/-- A step that spares the connected entries keeps what was handed over as it is. -/
theorem Discovery.Effect.handsOnce {config : DiscoveryConfig} {history events : List DiscoveryEvent}
    {self next : Discovery} {action : DiscoveryAction}
    (effect : Discovery.Effect self action next events)
    (spares : self.sparesConnected action = true) (handsOnce : HandsOnce config history self) :
    HandsOnce config (history ++ events) next := by
  obtain ⟨judged, marked⟩ := Bool.and_eq_true_iff.mp spares
  cases effect with
  | finds idle found =>
    refine handsOnce.silent handsOnce.wellFormed (fun _ _ => id) idle.symm fun entry phase => ?_
    cases phase
    exact handsOnce.not_outstanding found
  | picks found marks =>
    subst marks
    simp only [found] at marked
    exact handsOnce.picks found marked
  | queues handing idle searches => exact handsOnce.queues handing idle searches
  | adds follows =>
    exact handsOnce.follows (RoutingTable.addEntries_wellFormed handsOnce.wellFormed _ _)
      (fun key _ => (RoutingTable.connected_addEntries handsOnce.wellFormed _ _ key).mpr) follows
  | judges written change follows =>
    obtain ⟨wellFormed, others⟩ := handsOnce.wellFormed.judged change
    refine handsOnce.follows wellFormed (fun key _ connected => (others key ?_).mpr connected)
      follows
    rintro rfl
    rw [written, decide_eq_true_iff] at judged
    exact judged connected
  | takes => exact handsOnce.follows handsOnce.wellFormed (fun _ _ => id) (.refl _)
  | settles => exact handsOnce.settles
  | connects =>
    exact handsOnce.follows (RoutingTable.updateEntry_wellFormed handsOnce.wellFormed _ _ _)
      (fun _ _ connected => connected.updateEntry _) (.refl _)
  | goes follows => exact handsOnce.follows handsOnce.wellFormed (fun _ _ => id) follows

/-- In every run in which no verdict of the refresh or of a failed lookup is written to an entry
that is marked as connected, and every entry that is found is in the table when it is marked, a
discovered peer is handed over once per attempt. As long as the attempt for a key is under way its
entry stays in the table and stays connected. The connect loop picks a key only when no attempt for
it is under way, and it puts a peer into the queue once for each time it picked it. -/
theorem connectLoop_hands_once (config : DiscoveryConfig) {history : List DiscoveryEvent}
    {state : Discovery}
    (run : (discoveryMachine config).Run
      (fun discovery action => discovery.sparesConnected action = true) history state) :
    (∀ key, outstanding key history = true → state.table.status key = some CONNECTED_ENTRY) ∧
    (∀ before key, before ++ [.picked key] <+: history → outstanding key before = false) ∧
    ∀ key : Key, history.count (.queued (some ⟨key⟩)) +
      (if state.connectPhase.handing = some ⟨key⟩ then 1 else 0) =
        history.count (.picked key) := by
  have handsOnce : HandsOnce config history state :=
    run.invariant (HandsOnce config) (.new config)
      fun _ _ _ _ _ before spares step => (Discovery.step_effect step).handsOnce spares before
  exact ⟨handsOnce.connected, handsOnce.once, handsOnce.queued⟩

/-! ### A verdict about an old entry -/

def sampleDiscovery : DiscoveryConfig where
  localKey := Vector.replicate KEY_SIZE 0
  dialPeers := []
  bootstrapPeers := []

/-- A peer that answers pings. -/
def sampleEntry : Entry where
  key := Vector.replicate KEY_SIZE 2
  addrs := [⟨.ip (.v4 #v[203, 0, 113, 7]), 9000, .tcp, 0⟩]
  discoveryAddrs := [⟨.ip (.v4 #v[203, 0, 113, 7]), 9001, .udp, 0⟩]
  protocols := .default

/-- The peer is added, picked and handed over, the node reports that it is gone, and it is picked
again after a refresh that found it pending. -/
def pickedAfterReport : List DiscoveryAction :=
  [.inbound sampleEntry 0, .push, .search .default .inOrder, .mark 1, .push,
    .onEvent (.disconnected ⟨sampleEntry.key⟩) 2, .refresh, .sweep, .sweep, .ping 0 true 3,
    .search .default .inOrder, .mark 4]

/-- The refresh takes the pending peer into its list, and its ping is answered after the peer was
picked and handed over. -/
def pickedDuringPing : List DiscoveryAction :=
  [.inbound sampleEntry 0, .push, .refresh, .sweep, .sweep, .search .default .inOrder, .mark 1,
    .push, .ping 0 true 2, .search .default .inOrder, .mark 3]

theorem connectLoop_hands_once_afterReport :
    ∃ state, (discoveryMachine sampleDiscovery).Run
      (fun discovery action => discovery.sparesConnected action = true)
      [.picked sampleEntry.key, .queued (some ⟨sampleEntry.key⟩), .settled sampleEntry.key,
        .picked sampleEntry.key] state ∧
      state.table.status sampleEntry.key = some CONNECTED_ENTRY := by
  have taken : ((discoveryMachine sampleDiscovery).reach Discovery.sparesConnected
      pickedAfterReport).map Prod.fst =
      some [.picked sampleEntry.key, .queued (some ⟨sampleEntry.key⟩), .settled sampleEntry.key,
        .picked sampleEntry.key] := by decide +kernel
  obtain ⟨_, state, run, rfl⟩ := Machine.reach_observed taken
  exact ⟨state, run, (connectLoop_hands_once sampleDiscovery run).1 sampleEntry.key (by decide)⟩

/-- Without the condition the peer is picked twice in one attempt. -/
theorem connectLoop_hands_twice :
    ∃ state, (discoveryMachine sampleDiscovery).Run (fun _ _ => True)
      [.picked sampleEntry.key, .queued (some ⟨sampleEntry.key⟩), .picked sampleEntry.key] state ∧
      outstanding sampleEntry.key
        [.picked sampleEntry.key, .queued (some ⟨sampleEntry.key⟩)] = true := by
  have taken : ((discoveryMachine sampleDiscovery).trace pickedDuringPing).map Prod.fst =
      some [.picked sampleEntry.key, .queued (some ⟨sampleEntry.key⟩),
        .picked sampleEntry.key] := by decide +kernel
  obtain ⟨_, state, run, rfl⟩ := Machine.trace_observed taken
  exact ⟨state, run, by decide⟩

end Karyon.P2p
