/-
This file models how what a node advertises reaches the routing table of another node. The
advertiser adds items to its bloom (`bloom.rs`) and sends peer messages (`lookup.rs`); the other
node handles them in order, and its table changes in other ways in between. A search for an item is
a search over the blooms of the stored entries.

A peer message does not change the entry of a peer that is stored already, so the stored bloom may
lack what was advertised later. As long as it does not, a search finds the advertiser
(`findPeersWith_advertised`).
-/

import Karyon.P2p.Lookup

namespace Karyon.P2p

open Karyon.Net Transition

/-- The peers whose advertised bloom may contain the item. -/
def RoutingTable.findPeersWith (siphash : Bytes → UInt64) (table : RoutingTable) (item : Bytes) :
    List DiscoveredPeer :=
  (table.entriesWithItem siphash item).map DiscoveredPeer.ofEntry

variable {table : RoutingTable}

theorem RoutingTable.mem_findPeersWith {siphash : Bytes → UInt64} {item : Bytes} {e : BucketEntry}
    (stored : e ∈ table.stored) (reachable : e.isUnreachable = false)
    (stable : e.isUnstable = false) (contained : e.entry.protocols.mayContain siphash item = true) :
    DiscoveredPeer.ofEntry e.entry ∈ table.findPeersWith siphash item := by
  refine List.mem_map_of_mem ?_
  obtain ⟨bucket, present, member⟩ := List.mem_flatMap.mp stored
  refine List.mem_flatMap.mpr ⟨bucket, present, List.mem_map_of_mem (List.mem_filter.mpr ?_)⟩
  exact ⟨member, by rw [reachable, stable, contained]; rfl⟩

/-! ### The advertiser and the table -/

/-- The bloom of the advertiser, its peer messages on their way, what it advertised in the latest
one, and the table of the other node. -/
structure Advertising where
  bloom : LocalBloom
  wire : List PeerMsg
  latest : Bloom
  table : RoutingTable

/-- What matters to a search: an item was advertised, a peer message was sent or accepted. -/
inductive AdvertEvent where
  | advertised (item : Bytes) (flags : ProtocolFlags)
  | sent (peer : PeerMsg)
  | accepted (peer : PeerMsg)
  deriving DecidableEq

/-- What can happen next: the advertiser adds an item or sends its peer message; the other node
handles the next message, or the message is lost; the other node learns an entry elsewhere,
changes a status or removes an entry. -/
inductive AdvertAction where
  | add (item : Bytes) (flags : ProtocolFlags)
  | send
  | receive (now : Int)
  | lose
  | learn (entry : Entry) (now : Int)
  | updateEntry (key : Key) (entryFlag : EntryStatusFlag) (now : Int)
  | removeEntry (key : Key)

namespace Advertising

variable {semver : Semver} (siphash : Bytes → UInt64) (service : LookupService semver)
  (state : Advertising)

/-- The next peer message is handled. One that fails the checks changes nothing. -/
def receive (now : Int) : Option (Advertising × List AdvertEvent) :=
  match state.wire with
  | [] => none
  | peer :: wire =>
    match LookupService.handlePeer state.table now peer with
    | .ok table => some ({ state with wire, table }, [.accepted peer])
    | .error _ => some ({ state with wire }, [])

def step : AdvertAction → Option (Advertising × List AdvertEvent)
  | .add item flags =>
    some ({ state with bloom := state.bloom.add siphash item flags }, [.advertised item flags])
  | .send =>
    match service.sendPeerMsg state.bloom with
    | some (.peer peer) => some ({ state with
        wire := state.wire ++ [peer], latest := peer.protocols }, [.sent peer])
    | _ => none
  | .receive now => state.receive now
  | .lose => some ({ state with wire := state.wire.tail }, [])
  | .learn entry now => some ({ state with table := (state.table.addEntry entry now).1 }, [])
  | .updateEntry key entryFlag now =>
    some ({ state with table := state.table.updateEntry key entryFlag now }, [])
  | .removeEntry key => some ({ state with table := state.table.removeEntry key }, [])

/-- When a message of the advertiser is handled, a stored entry of the advertiser has all that
the message advertises; an entry of the advertiser that is learned elsewhere has all that its
latest message advertised. -/
def fresh : AdvertAction → Bool
  | .receive _ =>
    match state.wire with
    | [] => true
    | peer :: _ => state.table.stored.all fun e =>
        e.entry.key != service.id.bytes || e.entry.protocols.covers peer.protocols
  | .learn entry _ => entry.key != service.id.bytes || entry.protocols.covers state.latest
  | _ => true

end Advertising

/-- An advertiser that has advertised nothing, and the empty table of the node with the key. -/
def advertMachine {semver : Semver} (siphash : Bytes → UInt64) (service : LookupService semver)
    (localKey : Key) : Machine Advertising AdvertAction AdvertEvent where
  start := { bloom := .default, wire := [], latest := .default, table := .new localKey }
  step := Advertising.step siphash service

/-! ### What the messages and the table have -/

/-- The entry, if it is the one of the advertiser, has all that the filter has. -/
def HasAll (key : Key) (filter : Bloom) (entry : Entry) : Prop :=
  entry.key = key → entry.protocols.covers filter = true

/-- What was advertised is in the bloom, and in the messages sent after it; messages advertise
more and more; the stored entry of the advertiser has all that its accepted messages advertise. -/
structure Advertising.Reflects {semver : Semver} (siphash : Bytes → UInt64)
    (service : LookupService semver) (history : List AdvertEvent) (state : Advertising) : Prop where
  known : ∀ item flags, .advertised item flags ∈ history → flags ≠ .empty →
    state.bloom.advertised.mayContain siphash item = true
  carried : ∀ before peer after, history = before ++ .sent peer :: after →
    ∀ item flags, .advertised item flags ∈ before → flags ≠ .empty →
      peer.protocols.mayContain siphash item = true
  current : state.bloom.advertised.covers state.latest = true
  sender : ∀ peer ∈ state.wire, peer.peerId = service.id
  covered : ∀ peer ∈ state.wire, state.latest.covers peer.protocols = true
  growing : state.wire.Pairwise fun first second => second.protocols.covers first.protocols = true
  accepted : ∀ peer, .accepted peer ∈ history → state.latest.covers peer.protocols = true ∧
    ∀ later ∈ state.wire, later.protocols.covers peer.protocols = true
  stored : ∀ peer, .accepted peer ∈ history →
    state.table.AllEntries (HasAll service.id.bytes peer.protocols)

theorem concat_eq_append_cons {Item : Type} {items before after : List Item} {last split : Item}
    (same : items ++ [last] = before ++ split :: after) :
    split = last ∧ before = items ∨ ∃ rest, items = before ++ split :: rest := by
  rcases List.eq_nil_or_concat after with rfl | ⟨rest, final, rfl⟩
  · obtain ⟨rfl, own⟩ := List.append_inj' same rfl
    exact Or.inl ⟨(List.cons.inj own).1.symm, rfl⟩
  · rw [List.concat_eq_append, ← List.cons_append, ← List.append_assoc] at same
    exact Or.inr ⟨rest, (List.append_inj' same rfl).1⟩

namespace Advertising.Reflects

variable {semver : Semver} {siphash : Bytes → UInt64} {service : LookupService semver}
  {history : List AdvertEvent} {state : Advertising}

theorem start (localKey : Key) :
    Reflects siphash service [] (advertMachine siphash service localKey).start where
  known _ _ member := absurd member List.not_mem_nil
  carried before _ after same := by cases before <;> cases same
  current := Bloom.covers_refl _
  sender _ member := absurd member List.not_mem_nil
  covered _ member := absurd member List.not_mem_nil
  growing := .nil
  accepted _ member := absurd member List.not_mem_nil
  stored _ member := absurd member List.not_mem_nil

section

variable (reflects : Reflects siphash service history state)

include reflects

theorem add (item : Bytes) (flags : ProtocolFlags) :
    Reflects siphash service (history ++ [.advertised item flags])
      { state with bloom := state.bloom.add siphash item flags } where
  known other others member nonempty := by
    rcases mem_concat.mp member with before | ⟨⟨⟩⟩
    · exact Bloom.mayContain_of_covers (state.bloom.covers_add item flags)
        (reflects.known other others before nonempty)
    · exact state.bloom.mayContain_add item nonempty
  carried before peer after same := by
    rcases concat_eq_append_cons same with ⟨impossible, _⟩ | ⟨rest, split⟩
    · cases impossible
    · exact reflects.carried before peer rest split
  current := Bloom.covers_trans (state.bloom.covers_add item flags) reflects.current
  sender := reflects.sender
  covered := reflects.covered
  growing := reflects.growing
  accepted peer member := reflects.accepted peer (by simpa using member)
  stored peer member := reflects.stored peer (by simpa using member)

/-- The message that is sent advertises what the node advertises. -/
theorem send :
    Reflects siphash service (history ++ [.sent (service.selfMsg state.bloom)])
      { state with
        wire := state.wire ++ [service.selfMsg state.bloom]
        latest := state.bloom.advertised } where
  known item flags member := reflects.known item flags (by simpa using member)
  carried before peer after same := by
    rcases concat_eq_append_cons same with ⟨own, rfl⟩ | ⟨rest, split⟩
    · cases own
      exact reflects.known
    · exact reflects.carried before peer rest split
  current := Bloom.covers_refl _
  sender peer member := by
    rcases mem_concat.mp member with before | rfl
    · exact reflects.sender peer before
    · rfl
  covered peer member := by
    rcases mem_concat.mp member with before | rfl
    · exact Bloom.covers_trans reflects.current (reflects.covered peer before)
    · exact Bloom.covers_refl _
  growing := by
    refine List.pairwise_append.mpr ⟨reflects.growing, List.pairwise_singleton _ _, ?_⟩
    intro peer before later new
    rw [List.mem_singleton.mp new]
    exact Bloom.covers_trans reflects.current (reflects.covered peer before)
  accepted peer member := by
    obtain ⟨latest, waiting⟩ := reflects.accepted peer (by simpa using member)
    have own := Bloom.covers_trans reflects.current latest
    refine ⟨own, fun later present => ?_⟩
    rcases mem_concat.mp present with before | rfl
    · exact waiting later before
    · exact own
  stored peer member := reflects.stored peer (by simpa using member)

theorem lose :
    Reflects siphash service history { state with wire := state.wire.tail } where
  known := reflects.known
  carried := reflects.carried
  current := reflects.current
  sender peer member := reflects.sender peer (List.mem_of_mem_tail member)
  covered peer member := reflects.covered peer (List.mem_of_mem_tail member)
  growing := reflects.growing.sublist (List.tail_sublist _)
  accepted peer member :=
    ⟨(reflects.accepted peer member).1, fun later present =>
      (reflects.accepted peer member).2 later (List.mem_of_mem_tail present)⟩
  stored := reflects.stored

/-- The table may change if its entries keep what they have. -/
theorem retable (kept : ∀ peer, .accepted peer ∈ history →
      table.AllEntries (HasAll service.id.bytes peer.protocols)) :
    Reflects siphash service history { state with table } :=
  { reflects with stored := kept }

/-- A message that is accepted is one that the stored entry does not fall behind. -/
theorem accept {peer : PeerMsg} {wire : List PeerMsg} {now : Int} (next : state.wire = peer :: wire)
    (upToDate : state.table.AllEntries (HasAll service.id.bytes peer.protocols))
    (handled : LookupService.handlePeer state.table now peer = .ok table) :
    Reflects siphash service (history ++ [.accepted peer]) { state with wire, table } := by
  have tail : state.wire.tail = wire := by
    rw [next]
    rfl
  have head : peer ∈ state.wire := by
    rw [next]
    exact List.mem_cons_self
  -- what the table keeps of a filter that the message covers
  have kept {filter : Bloom} (before : state.table.AllEntries (HasAll service.id.bytes filter))
      (own : peer.protocols.covers filter = true) :
      table.AllEntries (HasAll service.id.bytes filter) := by
    rcases LookupService.handlePeer_eq_ok handled with rfl | ⟨checked, validated, _, rfl⟩
    · exact before
    · refine before.addEntry (fun _ => ?_) now
      show checked.protocols.covers filter = true
      rw [(PeerMsg.Admissible.same_of_validated validated).2]
      exact own
  have lost := tail ▸ reflects.lose
  refine { lost with
    known := fun item flags member => reflects.known item flags (by simpa using member)
    carried := fun before other after same => ?_
    accepted := fun other member => ?_
    stored := fun other member => ?_ }
  · rcases concat_eq_append_cons same with ⟨impossible, _⟩ | ⟨rest, split⟩
    · cases impossible
    · exact reflects.carried before other rest split
  · rcases mem_concat.mp member with before | ⟨⟨⟩⟩
    · exact lost.accepted other before
    · refine ⟨reflects.covered peer head, fun later present => ?_⟩
      have growing := reflects.growing
      rw [next] at growing
      exact List.rel_of_pairwise_cons growing present
  · rcases mem_concat.mp member with before | ⟨⟨⟩⟩
    · exact kept (reflects.stored other before) ((reflects.accepted other before).2 peer head)
    · exact kept upToDate (Bloom.covers_refl _)

theorem step {action : AdvertAction}
    {next : Advertising} {events : List AdvertEvent} (allowed : state.fresh service action = true)
    (taken : state.step siphash service action = some (next, events)) :
    Reflects siphash service (history ++ events) next := by
  cases action with
  | add item flags =>
    cases taken
    exact reflects.add item flags
  | send =>
    simp only [Advertising.step, LookupService.sendPeerMsg] at taken
    split at taken
    · rename_i peer sent
      split at sent
      · cases sent
        cases taken
        exact reflects.send
      · cases sent
    · cases taken
  | receive now =>
    simp only [Advertising.step, Advertising.receive] at taken
    split at taken
    · cases taken
    · rename_i peer wire waiting
      split at taken
      · rename_i table handled
        cases taken
        refine reflects.accept waiting (fun e member own => ?_) handled
        simp only [Advertising.fresh, waiting, List.all_eq_true] at allowed
        exact (Bool.or_eq_true_iff.mp (allowed e member)).resolve_left
          fun different => bne_iff_ne.mp different own
      · cases taken
        have lost := reflects.lose
        rw [waiting] at lost
        rw [List.append_nil]
        exact lost
  | lose =>
    cases taken
    rw [List.append_nil]
    exact reflects.lose
  | learn entry now =>
    cases taken
    rw [List.append_nil]
    refine reflects.retable fun peer member =>
      (reflects.stored peer member).addEntry (fun own => ?_) now
    have current := (Bool.or_eq_true_iff.mp allowed).resolve_left
      fun different => bne_iff_ne.mp different own
    exact Bloom.covers_trans current (reflects.accepted peer member).1
  | updateEntry key entryFlag now =>
    cases taken
    rw [List.append_nil]
    exact reflects.retable fun peer member =>
      (reflects.stored peer member).updateEntry key entryFlag now
  | removeEntry key =>
    cases taken
    rw [List.append_nil]
    exact reflects.retable fun peer member => (reflects.stored peer member).removeEntry key

end

end Advertising.Reflects

/-! ### A search finds the advertiser -/

/-- A search for an item finds the advertiser when a peer message that it sent after it had
advertised the item was accepted and its entry is stored and in good state, if no stored entry of
the advertiser ever falls behind a message of it that is handled. -/
theorem findPeersWith_advertised {semver : Semver} {siphash : Bytes → UInt64}
    {service : LookupService semver} {localKey : Key} {history before after : List AdvertEvent}
    {state : Advertising} {peer : PeerMsg} {item : Bytes} {flags : ProtocolFlags}
    {e : BucketEntry}
    (run : (advertMachine siphash service localKey).Run
      (fun state action => state.fresh service action = true) history state)
    (sent : history = before ++ .sent peer :: after) (accepted : .accepted peer ∈ after)
    (advertised : .advertised item flags ∈ before) (nonempty : flags ≠ .empty)
    (stored : e ∈ state.table.stored) (own : e.entry.key = service.id.bytes)
    (reachable : e.isUnreachable = false) (stable : e.isUnstable = false) :
    ∃ found ∈ state.table.findPeersWith siphash item, found.peerId = some service.id := by
  have reflects : state.Reflects siphash service history :=
    run.invariant (fun history state => state.Reflects siphash service history) (.start localKey)
      fun _ _ _ _ _ reflects allowed taken => reflects.step allowed taken
  have carried := reflects.carried before peer after sent item flags advertised nonempty
  have known : .accepted peer ∈ history := by
    rw [sent]
    exact List.mem_append_right _ (List.mem_cons_of_mem _ accepted)
  have contained := Bloom.mayContain_of_covers (reflects.stored peer known e stored own) carried
  refine ⟨_, RoutingTable.mem_findPeersWith stored reachable stable contained, ?_⟩
  show some (PeerID.mk e.entry.key) = some service.id
  rw [own]

/-- A hash for the runs below. -/
def firstByteHash (item : Bytes) : UInt64 :=
  (item.headD 0).toUInt64

/-- What a run did, which entries are stored in which state, and what a search finds. -/
def observedSearch (item : Bytes) (reached : List AdvertEvent × Advertising) :
    List AdvertEvent × List BucketEntry × List DiscoveredPeer :=
  (reached.1, reached.2.table.stored, reached.2.table.findPeersWith firstByteHash item)

/-- The message of the advertiser before and after it has advertised the item. -/
def introduction : PeerMsg :=
  (listening 2 [8000]).selfMsg .default

def advertisement : PeerMsg :=
  (listening 2 [8000]).selfMsg (LocalBloom.default.add firstByteHash [5] .PREFERRED)

/-- The advertiser introduces itself after it has advertised an item, and is found. -/
theorem findPeersWith_advertised_once :
    ∃ (history : List AdvertEvent) (state : Advertising),
      (advertMachine firstByteHash (listening 2 [8000]) (Vector.replicate 32 1)).Run
        (fun state action => state.fresh (listening 2 [8000]) action = true) history state ∧
      history = [.advertised [5] .PREFERRED, .sent advertisement, .accepted advertisement] ∧
      ∃ found ∈ state.table.findPeersWith firstByteHash [5],
        found.peerId = some (listening 2 [8000]).id := by
  refine Machine.reach_run (fun history state => observedSearch [5] (history, state) =
      ([.advertised [5] .PREFERRED, .sent advertisement, .accepted advertisement],
        [⟨PENDING_ENTRY, advertisement.toEntry, 0, 0⟩], [.ofEntry advertisement.toEntry]))
    [.add [5] .PREFERRED, .send, .receive 0] (by decide +kernel)
    fun history state run observed => ?_
  have done : history =
      [.advertised [5] .PREFERRED] ++ .sent advertisement :: [.accepted advertisement] :=
    congrArg Prod.fst observed
  have stored : (⟨PENDING_ENTRY, advertisement.toEntry, 0, 0⟩ : BucketEntry) ∈
      state.table.stored := by
    rw [show state.table.stored = _ from congrArg (fun image => image.2.1) observed]
    exact List.mem_cons_self
  exact ⟨done, findPeersWith_advertised run done List.mem_cons_self
    List.mem_cons_self (by decide) stored rfl rfl rfl⟩

/-- The advertiser introduces itself first and advertises the item afterwards. Its second message
is accepted, but the stored entry keeps the bloom of the first one, and a search for the item
finds nothing. -/
theorem findPeersWith_misses_advertised :
    ∃ (history : List AdvertEvent) (state : Advertising) (e : BucketEntry),
      (advertMachine firstByteHash (listening 2 [8000]) (Vector.replicate 32 1)).Run
        (fun _ _ => True) history state ∧
      history = [.sent introduction, .accepted introduction, .advertised [5] .PREFERRED,
        .sent advertisement, .accepted advertisement] ∧
      e ∈ state.table.stored ∧ e.entry.key = (listening 2 [8000]).id.bytes ∧
      e.isUnreachable = false ∧ e.isUnstable = false ∧
      state.table.findPeersWith firstByteHash [5] = [] := by
  have taken : ((advertMachine firstByteHash (listening 2 [8000]) (Vector.replicate 32 1)).trace
      [.send, .receive 0, .add [5] .PREFERRED, .send, .receive 1]).map (observedSearch [5]) =
      some ([.sent introduction, .accepted introduction, .advertised [5] .PREFERRED,
        .sent advertisement, .accepted advertisement],
        [⟨PENDING_ENTRY, introduction.toEntry, 0, 0⟩], []) := by
    decide +kernel
  obtain ⟨history, state, run, observed⟩ := Machine.trace_observed taken
  have stored : (⟨PENDING_ENTRY, introduction.toEntry, 0, 0⟩ : BucketEntry) ∈
      state.table.stored := by
    rw [show state.table.stored = _ from congrArg (fun image => image.2.1) observed]
    exact List.mem_cons_self
  exact ⟨history, state, _, run, congrArg Prod.fst observed, stored, rfl,
    rfl, rfl, congrArg (fun image => image.2.2) observed⟩

end Karyon.P2p
