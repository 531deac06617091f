/-
This file proves that access control mediates: no peer, lookup or ping without a question to the
policy that was answered with yes before.

For lookups and pings this holds of the endpoint that the node dials or answers. For peers the
endpoint that the policy is asked about before the handshake has to be the one that the stream
reports afterwards (`AccessState.reportsAsked`). A TLS endpoint becomes a TCP one and a domain the
address it resolves to, so a policy that refuses an address does not stop a peer that is reached
through its domain (`refused_endpoint_joins`).
-/

import Karyon.P2p.AccessControl

namespace Karyon.P2p

open Karyon.Net Transition

/-! ### What one step of the connections does -/

/-- The task of a connection later on: it has its direction and does not go back to the accept or
the dial. -/
structure ConnTask.Later (before after : ConnTask) : Prop where
  direction : after.direction = before.direction
  opening : after.phase = .opening → before.phase = .opening

variable {succeeds : Bool} {pid : PeerID}

namespace ConnSlots

variable {state next : ConnSlots} {events : List ConnEvent} {conn : Nat} {before after : ConnPhase}
  {task : ConnTask} {other : Nat}

theorem later_set {before after : ConnTask} (found : state.conns[conn]? = some before)
    (later : before.Later after) (itsFound : state.conns[other]? = some task) :
    ∃ result, (state.conns.set conn after)[other]? = some result ∧ task.Later result := by
  by_cases same : other = conn
  · subst same
    cases found.symm.trans itsFound
    exact ⟨after, (Indexed.set_eq_some found).mpr (.inl ⟨rfl, rfl⟩), later⟩
  · exact ⟨task, (Indexed.set_eq_some found).mpr (.inr ⟨same, itsFound⟩), rfl, id⟩

theorem later_move (moved : state.move conn before after = some next)
    (notOpening : after ≠ .opening) (found : state.conns[other]? = some task) :
    ∃ result, next.conns[other]? = some result ∧ task.Later result := by
  obtain ⟨its, itsFound, -, rfl⟩ := move_eq_some moved
  exact later_set itsFound ⟨rfl, fun opening => absurd opening notOpening⟩ found

theorem later_release (released : state.release conn = some next)
    (found : state.conns[other]? = some task) :
    ∃ result, next.conns[other]? = some result ∧ task.Later result := by
  revert released
  fun_cases ConnSlots.release <;> rintro ⟨⟩
  rename_i itsFound _
  exact later_set itsFound ⟨rfl, by rintro ⟨⟩⟩ found

section

variable {action : ConnAction} (taken : state.step action = some (next, events))

include taken

theorem step_later (found : state.conns[other]? = some task) :
    ∃ result, next.conns[other]? = some result ∧ task.Later result := by
  cases steps_of_step taken with
  | acquires free => exact ⟨task, Indexed.concat_eq_some.mpr (.inl found), rfl, id⟩
  | moves moved _ later => exact later_move moved later.1 found
  | upgrades moved =>
    obtain ⟨result, itsFound, later⟩ := later_move moved (by decide) found
    exact ⟨result, itsFound, later⟩
  | takes => exact ⟨task, found, rfl, id⟩
  | pools taken =>
    obtain ⟨_, taken⟩ := Option.ite_none_right_eq_some.mp taken
    split at taken
    · cases taken
      exact ⟨task, found, rfl, id⟩
    · cases taken
  | releases released => exact later_release released found

/-- A step apart from the pool leaves the peers and the turn of the run loop alone. -/
theorem step_apart (apart : ∀ poolAction, action ≠ .pool poolAction) :
    next.pool = state.pool ∧ next.owners = state.owners ∧
      ∀ conn, state.current = some conn → next.current = some conn := by
  cases steps_of_step taken with
  | acquires free => exact ⟨rfl, rfl, fun _ same => same⟩
  | moves moved | upgrades moved =>
    obtain ⟨task, -, -, rfl⟩ := move_eq_some moved
    exact ⟨rfl, rfl, fun _ same => same⟩
  | takes free =>
    refine ⟨rfl, rfl, fun conn same => ?_⟩
    rw [free] at same
    cases same
  | pools => exact absurd rfl (apart _)
  | releases released =>
    revert released
    fun_cases ConnSlots.release <;> rintro ⟨⟩
    exact ⟨rfl, rfl, fun _ same => same⟩

end

/-- A step of the pool is one of the pool's own, and moves the turn and the owners along. -/
theorem step_pool {action : PoolAction}
    (taken : state.step (.pool action) = some (next, events)) :
    ∃ pool emitted, state.pool.step action = some (pool, emitted) ∧ next.pool = pool ∧
      next.current = state.currentAfter action ∧ next.owners = state.ownersAfter action := by
  obtain ⟨_, taken⟩ := Option.ite_none_right_eq_some.mp taken
  split at taken
  · rename_i pool emitted stepped
    cases taken
    exact ⟨pool, emitted, stepped, rfl, rfl, rfl⟩
  · cases taken

theorem move_found (moved : state.move conn before after = some next) :
    ∃ task : ConnTask, next.conns[conn]? = some task ∧ task.phase = after := by
  obtain ⟨task, found, -, rfl⟩ := move_eq_some moved
  exact ⟨_, (Indexed.set_eq_some found).mpr (.inl ⟨rfl, rfl⟩), rfl⟩

/-- A connection whose handshake ends was accepted or dialled before. -/
theorem upgraded_found (taken : state.step (.upgraded conn succeeds) = some (next, events)) :
    ∃ task : ConnTask, next.conns[conn]? = some task ∧ task.phase ≠ .opening := by
  cases succeeds with
  | true | false =>
    obtain ⟨after, moved, ⟨⟩⟩ := Option.map_eq_some_iff.mp taken
    obtain ⟨task, found, phase⟩ := move_found moved
    exact ⟨task, found, by rw [phase]; nofun⟩

end ConnSlots

/-- The id of the peer that the policy let through and that is not inserted yet. -/
def RunPhase.joining : RunPhase → Option PeerID
  | .checking pid | .building pid | .inserting pid => some pid
  | _ => none

namespace PeerPool

variable {pool next : PeerPool} {events : List PeerEvent}

/-- A peer joins after a handshake that let it through. -/
theorem step_joining {action : PoolAction} (step : pool.step action = some (next, events))
    (joining : next.runPhase.joining = some pid) :
    pool.runPhase.joining = some pid ∨ action = .handshake (.ok pid) := by
  cases steps_of_step step with
  | inserts inserting => cases joining
  | loops phase turn =>
    rw [phase]
    cases turn with
    | succeeds id =>
      cases joining
      exact .inr rfl
    | unknown id absent | built id => exact .inl joining
    | _ => cases joining
  | works found phase turn | leaves found removing | vanishes found removing absent =>
    exact .inl joining

/-- The setup of a peer and the handshakes happen when the run loop is at them. -/
theorem setup_joining (step : pool.step (.setup succeeds) = some (next, events)) :
    ∃ pid, pool.runPhase.joining = some pid := by
  cases steps_of_step step with
  | loops phase turn =>
    rw [phase]
    cases turn with
    | built pid | unbuilt pid => exact ⟨pid, rfl⟩
  | works found phase turn => cases turn

theorem handshake_idle {outcome : Except (Option PeerID) PeerID}
    (step : pool.step (.handshake outcome) = some (next, events)) : pool.runPhase = .idle := by
  cases steps_of_step step with
  | loops phase turn =>
    rw [phase]
    cases turn <;> rfl
  | works found phase turn => cases turn

end PeerPool

/-! ### What was asked before -/

/-- What justifies an event: the policy answers by its predicate, and what needs its consent was
asked for before, with the answer yes. -/
def AccessControl.Justifies (accessControl : AccessControl) (before : List AccessEvent) :
    AccessEvent → Prop
  | .checked subject action allowed => accessControl.allow subject action = allowed
  | .exchanged _ => True
  | .setUp peer =>
    .checked (.endpoint peer.candidate.remoteEndpoint) (.connect peer.direction) true ∈ before ∧
      .checked (.peer peer.candidate) (.connect peer.direction) true ∈ before
  | .lookedUp direction endpoint => .checked (.endpoint endpoint) (.lookup direction) true ∈ before
  | .replied endpoint _ => .checked (.endpoint endpoint) (.lookup .inbound) true ∈ before
  | .pinged endpoint => .checked (.endpoint endpoint) (.probe .outbound) true ∈ before
  | .ponged endpoint _ => .checked (.endpoint endpoint) (.probe .inbound) true ∈ before

variable (history : List AccessEvent)

/-- The endpoint was let through before any byte was exchanged on the connection. -/
def ClearedFirst (conn : Nat) (endpoint : Endpoint) (direction : ConnDirection) : Prop :=
  ∃ before after, history =
      before ++ .checked (.endpoint endpoint) (.connect direction) true :: after ∧
    .exchanged conn ∉ before

/-- The endpoint of the peer was let through before any byte was exchanged on its connection, and
the peer itself after that. -/
def Admitted (conn : Nat) (peer : PeerRecord) : Prop :=
  ∃ before middle after, history =
      before ++ .checked (.endpoint peer.candidate.remoteEndpoint) (.connect peer.direction) true ::
        (middle ++ .checked (.peer peer.candidate) (.connect peer.direction) true :: after) ∧
    .exchanged conn ∉ before

section Order

variable {history : List AccessEvent} {conn : Nat} {endpoint : Endpoint}
  {direction : ConnDirection} {peer : PeerRecord}

theorem ClearedFirst.append (cleared : ClearedFirst history conn endpoint direction)
    (events : List AccessEvent) : ClearedFirst (history ++ events) conn endpoint direction := by
  obtain ⟨before, after, rfl, silent⟩ := cleared
  exact ⟨before, after ++ events, by rw [List.append_assoc, List.cons_append], silent⟩

/-- What was let through before a connection began was let through before its first byte. -/
theorem ClearedFirst.of_mem
    (member : .checked (.endpoint endpoint) (.connect direction) true ∈ history)
    (silent : .exchanged conn ∉ history) : ClearedFirst history conn endpoint direction := by
  obtain ⟨before, after, rfl⟩ := List.append_of_mem member
  exact ⟨before, after, rfl, fun exchanged => silent (List.mem_append_left _ exchanged)⟩

theorem Admitted.append (admitted : Admitted history conn peer) (events : List AccessEvent) :
    Admitted (history ++ events) conn peer := by
  obtain ⟨before, middle, after, rfl, silent⟩ := admitted
  refine ⟨before, middle, after ++ events, ?_, silent⟩
  simp only [List.append_assoc, List.cons_append]

/-- The policy lets a peer through whose endpoint it let through first. -/
theorem ClearedFirst.admitted
    (cleared : ClearedFirst history conn peer.candidate.remoteEndpoint peer.direction) :
    Admitted (history ++ [.exchanged conn,
      .checked (.peer peer.candidate) (.connect peer.direction) true]) conn peer := by
  obtain ⟨before, after, rfl, silent⟩ := cleared
  refine ⟨before, after ++ [.exchanged conn], [], ?_, silent⟩
  simp only [List.append_assoc, List.cons_append, List.nil_append]

theorem Admitted.checked (admitted : Admitted history conn peer) :
    .checked (.endpoint peer.candidate.remoteEndpoint) (.connect peer.direction) true ∈ history ∧
      .checked (.peer peer.candidate) (.connect peer.direction) true ∈ history := by
  obtain ⟨before, middle, after, rfl, -⟩ := admitted
  refine ⟨List.mem_append_right _ List.mem_cons_self, List.mem_append_right _ ?_⟩
  exact List.mem_cons_of_mem _ (List.mem_append_right _ List.mem_cons_self)

end Order

/-! ### The peers of the pool -/

/-- Every spawned peer is known, under the id it was spawned with, and was let through. -/
structure Known (history : List AccessEvent) (owners : List Nat) (spawned : List PeerTask)
    (peers : HashMap Nat PeerRecord) : Prop where
  recorded : ∀ (peer : Nat) (task : PeerTask), spawned[peer]? = some task →
    ∃ record, peers.lookup peer = some record
  admitted : ∀ (peer : Nat) (record : PeerRecord), peers.lookup peer = some record →
    ∃ (conn : Nat) (task : PeerTask), owners[peer]? = some conn ∧ spawned[peer]? = some task ∧
      task.pid = record.candidate.peerId ∧ Admitted history conn record

namespace Known

variable {history : List AccessEvent} {owners : List Nat} {spawned : List PeerTask}
  {peers : HashMap Nat PeerRecord}

theorem append (known : Known history owners spawned peers) (events : List AccessEvent) :
    Known (history ++ events) owners spawned peers where
  recorded := known.recorded
  admitted peer record found := by
    obtain ⟨conn, task, owner, itsTask, same, admitted⟩ := known.admitted peer record found
    exact ⟨conn, task, owner, itsTask, same, admitted.append events⟩

theorem setPhase {pool : PeerPool} (known : Known history owners pool.spawned peers) (peer : Nat)
    (phase : PeerPhase) : Known history owners (pool.setPhase peer phase).spawned peers where
  recorded other task found := by
    obtain ⟨before, itsFound, -⟩ := PeerPool.setPhase_task.mp found
    exact known.recorded other before itsFound
  admitted other record found := by
    obtain ⟨conn, task, owner, itsTask, same, admitted⟩ := known.admitted other record found
    refine ⟨conn, _, owner, PeerPool.setPhase_task.mpr ⟨task, itsTask, rfl⟩, ?_, admitted⟩
    split
    · exact same
    · exact same

variable {conn : Nat}

/-- A peer that was let through is inserted, with its connection. -/
theorem insert {record : PeerRecord} (known : Known history owners spawned peers)
    (numbered : owners.length = spawned.length) (admitted : Admitted history conn record) :
    Known history (owners ++ [conn]) (spawned ++ [⟨record.candidate.peerId, .running⟩])
      (peers.insert spawned.length record) where
  recorded peer task found := by
    rcases Indexed.concat_eq_some.mp found with before | ⟨rfl, -⟩
    · obtain ⟨old, itsRecord⟩ := known.recorded peer task before
      have inside := (List.getElem?_eq_some_iff.mp before).1
      exact ⟨old, by rw [AList.lookup_insert_ne (Nat.ne_of_lt inside)]; exact itsRecord⟩
    · exact ⟨record, AList.lookup_insert peers⟩
  admitted peer found isFound := by
    rcases HashMap.lookup_insert_eq_some.mp isFound with ⟨rfl, rfl⟩ | ⟨_, before⟩
    · refine ⟨conn, ⟨record.candidate.peerId, .running⟩, ?_, List.getElem?_concat_length, rfl,
        admitted⟩
      rw [← numbered]
      exact List.getElem?_concat_length
    · obtain ⟨itsConn, task, owner, itsTask, same, itsAdmitted⟩ :=
        known.admitted peer found before
      exact ⟨itsConn, task, Indexed.concat_eq_some.mpr (.inl owner),
        Indexed.concat_eq_some.mpr (.inl itsTask), same, itsAdmitted⟩

end Known

/-! ### What holds in every run -/

/-- The stream of a connection has the endpoint that the policy was asked about: a dial that
succeeds has opened a stream to the endpoint that was dialled, and an accepted connection has stayed
at its own. -/
def AccessState.reportsAsked (state : AccessState) : AccessAction → Bool
  | .dial answer reported true =>
    match state.dialPhase with
    | .dialing endpoint _ _ => (streamEndpoint endpoint answer reported).all (· = endpoint)
    | _ => true
  | .moved conn reported => state.endpoints.lookup conn = some (.newQuicAddr reported)
  | _ => true

/-- Everything was asked for: the peers and the one that joins, the endpoints of the streams, of
the dial, of the lookups and of the pings. Bytes were exchanged only on connections that were
accepted or are dialled. -/
structure Mediated {semver : Semver} (config : AccessConfig semver) (history : List AccessEvent)
    (state : AccessState) : Prop where
  slotted : ∃ connHistory, state.slots.Slotted config.slots connHistory
  justified : Justified config.accessControl.Justifies history
  opened : ∀ conn, .exchanged conn ∈ history →
    ∃ task : ConnTask, state.slots.conns[conn]? = some task ∧
      (task.phase = .opening → task.direction = .outbound)
  cleared : ∀ endpoint, state.dialPhase = .cleared endpoint →
    .checked (.endpoint endpoint) (.connect .outbound) true ∈ history
  dialed : ∀ endpoint conn retry, state.dialPhase = .dialing endpoint conn retry →
    ClearedFirst history conn endpoint .outbound ∧
      ∃ task : ConnTask, state.slots.conns[conn]? = some task ∧ task.direction = .outbound
  streams : ∀ conn endpoint, state.endpoints.lookup conn = some endpoint →
    ∃ task : ConnTask, state.slots.conns[conn]? = some task ∧
      ClearedFirst history conn endpoint task.direction
  joining : ∀ pid, state.slots.pool.runPhase.joining = some pid →
    ∃ conn peer, state.slots.current = some conn ∧ state.joining = some peer ∧
      peer.candidate.peerId = pid ∧ Admitted history conn peer
  known : Known history state.slots.owners state.slots.pool.spawned state.peers
  lookups : ∀ lookup ∈ state.lookups,
    .checked (.endpoint lookup.endpoint) (.lookup lookup.direction) true ∈ history
  probes : ∀ probe ∈ state.probes,
    .checked (.endpoint probe.endpoint) (.probe .outbound) true ∈ history

namespace Mediated

variable {semver : Semver} {config : AccessConfig semver} {history : List AccessEvent}
  {state next : AccessState} {events : List AccessEvent}

theorem new : Mediated config [] (.new config) where
  slotted := ⟨[], .new⟩
  justified := .nil
  opened _ member := nomatch member
  cleared _ phase := nomatch phase
  dialed _ _ _ phase := nomatch phase
  streams _ _ found := nomatch found
  joining _ phase := nomatch phase
  known := ⟨fun _ _ found => (nomatch found), fun _ _ found => (nomatch found)⟩
  lookups _ member := nomatch member
  probes _ member := nomatch member

variable {action : ConnAction} {observed : List ConnEvent} {emitted : List PeerEvent}

theorem currentAfter_of_joining {action : PoolAction} {pool : PeerPool}
    (stepped : state.slots.pool.step action = some (pool, emitted))
    (joining : pool.runPhase.joining = some pid) :
    state.slots.currentAfter action = state.slots.current := by
  cases PeerPool.step_move stepped with
  | @goes _ phase isHandshake within other announcing =>
    exact (ConnSlots.poolStep_goes within other).1
  | closes closing | @inserts pid inserting | announces emitting => cases joining
  | @disconnects peer task found running | @calls peer task phase peers found holding signalling =>
    rfl
  | @vanishes peer task found removing absent => rfl

theorem withSlots_eq_some {observed : List AccessEvent}
    (taken : state.withSlots action observed = some (next, events)) :
    ∃ slots emitted, state.slots.step action = some (slots, emitted) ∧
      next = { state with slots } ∧ events = observed := by
  obtain ⟨⟨slots, emitted⟩, stepped, ⟨⟩⟩ := Option.map_eq_some_iff.mp taken
  exact ⟨slots, emitted, stepped, rfl, rfl⟩

section

variable (mediated : Mediated config history state)

include mediated

theorem concat {event : AccessEvent} (justified : config.accessControl.Justifies history event)
    (opened : ∀ conn, event = .exchanged conn →
      ∃ task : ConnTask, state.slots.conns[conn]? = some task ∧
        (task.phase = .opening → task.direction = .outbound)) :
    Mediated config (history ++ [event]) state where
  slotted := mediated.slotted
  justified := mediated.justified.concat justified
  opened conn member := by
    rcases mem_concat.mp member with old | new
    · exact mediated.opened conn old
    · exact opened conn new.symm
  cleared endpoint phase := List.mem_append_left _ (mediated.cleared endpoint phase)
  dialed endpoint conn retry phase := by
    obtain ⟨cleared, direction⟩ := mediated.dialed endpoint conn retry phase
    exact ⟨cleared.append _, direction⟩
  streams conn endpoint found := by
    obtain ⟨task, itsTask, cleared⟩ := mediated.streams conn endpoint found
    exact ⟨task, itsTask, cleared.append _⟩
  joining pid phase := by
    obtain ⟨conn, peer, current, joining, same, admitted⟩ := mediated.joining pid phase
    exact ⟨conn, peer, current, joining, same, admitted.append _⟩
  known := mediated.known.append _
  lookups lookup member := List.mem_append_left _ (mediated.lookups lookup member)
  probes probe member := List.mem_append_left _ (mediated.probes probe member)

theorem checks {subject : Subject} {action : AccessControl.Action} {allowed : Bool}
    (answer : config.accessControl.allow subject action = allowed) :
    Mediated config (history ++ [.checked subject action allowed]) state :=
  mediated.concat answer nofun

/-- Nothing was exchanged on a connection that waits for its accept. -/
theorem silent (found : state.slots.conns[conn]? = some ⟨.inbound, .opening⟩) :
    .exchanged conn ∉ history := by
  intro member
  obtain ⟨task, itsTask, outbound⟩ := mediated.opened conn member
  cases found.symm.trans itsTask
  cases outbound rfl

section

variable {slots : ConnSlots} (taken : state.slots.step action = some (slots, observed))

include taken

theorem conns_later :
    (∀ conn, .exchanged conn ∈ history → ∃ task : ConnTask, slots.conns[conn]? = some task ∧
      (task.phase = .opening → task.direction = .outbound)) ∧
    (∀ endpoint conn retry, state.dialPhase = .dialing endpoint conn retry →
      ClearedFirst history conn endpoint .outbound ∧
        ∃ task : ConnTask, slots.conns[conn]? = some task ∧ task.direction = .outbound) ∧
    ∀ conn endpoint, state.endpoints.lookup conn = some endpoint →
      ∃ task : ConnTask, slots.conns[conn]? = some task ∧
        ClearedFirst history conn endpoint task.direction := by
  refine ⟨fun conn member => ?_, fun endpoint conn retry phase => ?_,
    fun conn endpoint found => ?_⟩
  · obtain ⟨task, found, outbound⟩ := mediated.opened conn member
    obtain ⟨result, itsFound, later⟩ := ConnSlots.step_later taken found
    refine ⟨result, itsFound, fun opening => ?_⟩
    rw [later.direction]
    exact outbound (later.opening opening)
  · obtain ⟨cleared, task, found, outbound⟩ := mediated.dialed endpoint conn retry phase
    obtain ⟨result, itsFound, later⟩ := ConnSlots.step_later taken found
    exact ⟨cleared, result, itsFound, later.direction.trans outbound⟩
  · obtain ⟨task, itsTask, cleared⟩ := mediated.streams conn endpoint found
    obtain ⟨result, itsFound, later⟩ := ConnSlots.step_later taken itsTask
    exact ⟨result, itsFound, later.direction ▸ cleared⟩

theorem apart (apart : ∀ poolAction, action ≠ .pool poolAction) :
    Mediated config history { state with slots } := by
  obtain ⟨connHistory, slotted⟩ := mediated.slotted
  obtain ⟨pool, owners, current⟩ := ConnSlots.step_apart taken apart
  obtain ⟨opened, dialed, streams⟩ := mediated.conns_later taken
  refine { mediated with
    slotted := ⟨_, slotted.step taken⟩, opened, dialed, streams, joining := ?_, known := ?_ }
  · intro pid phase
    obtain ⟨conn, peer, itsCurrent, rest⟩ := mediated.joining pid (pool ▸ phase)
    exact ⟨conn, peer, current conn itsCurrent, rest⟩
  · rw [pool, owners]
    exact mediated.known

end

theorem known_pool {action : PoolAction} {pool : PeerPool}
    (stepped : state.slots.pool.step action = some (pool, emitted)) :
    Known history (state.slots.ownersAfter action) pool.spawned
      (state.peersAfter (.pool action)) := by
  obtain ⟨connHistory, slotted⟩ := mediated.slotted
  have known := mediated.known
  cases PeerPool.step_move stepped with
  | @goes _ phase isHandshake within other announcing =>
    obtain ⟨-, owners, -⟩ := ConnSlots.poolStep_goes within other
    rw [owners]
    have peers : state.peersAfter (.pool action) = state.peers := by
      unfold AccessState.peersAfter
      split
      · rename_i advances
        cases advances
        split
        · rename_i pid peer inserting joining
          exact absurd inserting ((within rfl).2.1 pid)
        · rfl
      · rfl
    rw [peers]
    exact known
  | closes closing =>
    simp only [ConnSlots.ownersAfter, AccessState.peersAfter, closing]
    exact known
  | @inserts pid inserting =>
    obtain ⟨conn, peer, current, joining, rfl, admitted⟩ :=
      mediated.joining pid (by rw [inserting]; rfl)
    simp only [ConnSlots.ownersAfter, AccessState.peersAfter, inserting, joining, current]
    exact known.insert slotted.numbered admitted
  | announces emitting =>
    simp only [ConnSlots.ownersAfter, AccessState.peersAfter, emitting]
    exact known
  | @disconnects peer task found running => exact known.setPhase peer .removing
  | @calls peer task phase peers found holding signalling => exact known.setPhase peer phase
  | @vanishes peer task found removing absent => exact known.setPhase peer .finished

/-- A step of the pool. After a handshake that succeeded, the peer that joins was let through. -/
theorem pool {action : PoolAction} {slots : ConnSlots}
    (taken : state.slots.step (.pool action) = some (slots, observed))
    (handshakes : ∀ pid, action = .handshake (.ok pid) →
      ∃ conn peer, state.slots.current = some conn ∧ state.joining = some peer ∧
        peer.candidate.peerId = pid ∧ Admitted history conn peer) :
    Mediated config history
      { state with slots, peers := state.peersAfter (.pool action) } := by
  obtain ⟨connHistory, slotted⟩ := mediated.slotted
  obtain ⟨pool, emitted, stepped, samePool, current, owners⟩ := ConnSlots.step_pool taken
  obtain ⟨opened, dialed, streams⟩ := mediated.conns_later taken
  refine { mediated with
    slotted := ⟨_, slotted.step taken⟩, opened, dialed, streams, joining := ?_, known := ?_ }
  · intro pid phase
    rw [samePool] at phase
    have stays := currentAfter_of_joining stepped phase
    rw [current, stays]
    rcases PeerPool.step_joining stepped phase with before | handshake
    · exact mediated.joining pid before
    · exact handshakes pid handshake
  · rw [samePool, owners]
    exact mediated.known_pool stepped

/-- The stream of a connection has an endpoint that was let through first. -/
theorem stream {endpoint : Endpoint} {task : ConnTask}
    (found : state.slots.conns[conn]? = some task)
    (cleared : ClearedFirst history conn endpoint task.direction) :
    Mediated config history
      { state with endpoints := state.endpoints.insert conn endpoint } := by
  refine { mediated with streams := fun other itsEndpoint itsFound => ?_ }
  rcases HashMap.lookup_insert_eq_some.mp itsFound with ⟨rfl, rfl⟩ | ⟨_, before⟩
  · exact ⟨task, found, cleared⟩
  · exact mediated.streams other itsEndpoint before

theorem accepted {endpoint : Option Endpoint}
    (taken : state.accepted config conn endpoint = some (next, events)) :
    Mediated config (history ++ events) next := by
  unfold AccessState.accepted at taken
  split at taken
  · obtain ⟨slots, emitted, stepped, rfl, rfl⟩ := withSlots_eq_some taken
    rw [List.append_nil]
    exact mediated.apart stepped nofun
  · rename_i endpoint found
    split at taken
    · rename_i allowed
      obtain ⟨slots, emitted, stepped, rfl, rfl⟩ := withSlots_eq_some taken
      have cleared : ClearedFirst
          (history ++ [.checked (.endpoint endpoint) (.connect .inbound) true]) conn endpoint
          .inbound := ⟨history, [], rfl, mediated.silent found⟩
      exact ((mediated.checks allowed).stream found cleared).apart stepped nofun
    · rename_i refused
      obtain ⟨slots, emitted, stepped, rfl, rfl⟩ := withSlots_eq_some taken
      exact (mediated.checks (Bool.eq_false_iff.mpr refused)).apart stepped nofun
  · cases taken

/-- A connection that has stayed at its endpoint is as it was. -/
theorem moved {reported : SocketAddr} (asked : state.reportsAsked (.moved conn reported) = true)
    (taken : state.moved conn reported = some (next, events)) :
    Mediated config (history ++ events) next := by
  have stays : state.endpoints.lookup conn = some (.newQuicAddr reported) :=
    of_decide_eq_true asked
  obtain ⟨task, found, cleared⟩ := mediated.streams conn _ stays
  revert taken
  fun_cases AccessState.moved <;> rintro ⟨⟩
  rw [List.append_nil]
  exact mediated.stream found cleared

theorem discovered {addrs : List PeerAddr}
    (taken : state.discovered config addrs = some (next, events)) :
    Mediated config (history ++ events) next := by
  unfold AccessState.discovered at taken
  split at taken
  · cases taken
    rw [List.append_nil]
    exact mediated
  · rename_i endpoint phase picked
    split at taken
    · rename_i allowed
      cases taken
      refine { mediated.checks allowed with cleared := fun other same => ?_, dialed := nofun }
      cases same
      exact List.mem_concat_self
    · rename_i refused
      cases taken
      exact mediated.checks (Bool.eq_false_iff.mpr refused)
  · cases taken

theorem dialSlot (taken : state.dialSlot = some (next, events)) :
    Mediated config (history ++ events) next := by
  unfold AccessState.dialSlot at taken
  split at taken
  · rename_i endpoint phase
    obtain ⟨slots, emitted, stepped, rfl, rfl⟩ := withSlots_eq_some taken
    have silent : .exchanged state.slots.conns.length ∉ history := by
      intro member
      obtain ⟨task, itsTask, -⟩ := mediated.opened _ member
      rw [List.getElem?_eq_none (Nat.le_refl _)] at itsTask
      cases itsTask
    rw [List.append_nil]
    refine { mediated.apart stepped nofun with cleared := nofun, dialed := ?_ }
    rintro other conn retry same
    cases same
    refine ⟨.of_mem (mediated.cleared endpoint phase) silent, ?_⟩
    obtain ⟨_, ⟨⟩⟩ := Option.ite_none_right_eq_some.mp stepped
    exact ⟨⟨.outbound, .opening⟩, List.getElem?_concat_length, rfl⟩
  · cases taken

theorem exchanges {task : ConnTask} (found : state.slots.conns[conn]? = some task)
    (outbound : task.phase = .opening → task.direction = .outbound) :
    Mediated config (history ++ [.exchanged conn]) state := by
  refine mediated.concat trivial fun other same => ?_
  cases same
  exact ⟨task, found, outbound⟩

theorem dial {answer : List SocketAddr} {reported : SocketAddr}
    (asked : state.reportsAsked (.dial answer reported succeeds) = true)
    (taken : state.dial config answer reported succeeds = some (next, events)) :
    Mediated config (history ++ events) next := by
  have idle : Mediated config history { state with dialPhase := .idle } :=
    { mediated with cleared := nofun, dialed := nofun }
  unfold AccessState.dial at taken
  split at taken
  · rename_i endpoint conn retry phase
    obtain ⟨cleared, task, found, outbound⟩ := mediated.dialed endpoint conn retry phase
    split at taken
    · split at taken
      · rename_i remote opened
        obtain ⟨slots, emitted, stepped, rfl, rfl⟩ := withSlots_eq_some taken
        have same : remote = endpoint := by
          simpa [AccessState.reportsAsked, phase, opened] using asked
        subst same
        exact ((idle.stream found (outbound ▸ cleared)).exchanges found fun _ => outbound).apart
          stepped nofun
      · cases taken
        refine { mediated.exchanges found fun _ => outbound with cleared := nofun, dialed := ?_ }
        rintro _ _ _ ⟨⟩
        exact ⟨cleared.append _, task, found, outbound⟩
      · cases taken
        rw [List.append_nil]
        refine { mediated with cleared := nofun, dialed := ?_ }
        rintro _ _ _ ⟨⟩
        exact ⟨cleared, task, found, outbound⟩
    · obtain ⟨slots, emitted, stepped, rfl, rfl⟩ := withSlots_eq_some taken
      rw [List.append_nil]
      exact idle.apart stepped nofun
  · cases taken

theorem exchanges_current (current : state.slots.current = some conn) :
    Mediated config (history ++ [.exchanged conn]) state := by
  obtain ⟨connHistory, slotted⟩ := mediated.slotted
  obtain ⟨task, found, notEarly⟩ := slotted.begun conn (.inr (.inl current))
  refine mediated.exchanges found fun opening => ?_
  rw [opening] at notEarly
  cases notEarly

theorem record_eq_some {negotiated : List ProtocolID} {peer : PeerRecord}
    (recorded : state.record conn pid negotiated = some peer) :
    peer.candidate.peerId = pid ∧
      ClearedFirst history conn peer.candidate.remoteEndpoint peer.direction := by
  revert recorded
  fun_cases AccessState.record <;> rintro ⟨⟩
  rename_i endpoint _ itsTask itsEndpoint
  obtain ⟨other, found, cleared⟩ := mediated.streams conn endpoint itsEndpoint
  cases itsTask.symm.trans found
  exact ⟨rfl, cleared⟩

theorem handshake {outcome : Except (Option PeerID) (PeerID × List ProtocolID)}
    (taken : state.handshake config outcome = some (next, events)) :
    Mediated config (history ++ events) next := by
  unfold AccessState.handshake at taken
  split at taken
  · rename_i conn pid current
    obtain ⟨slots, emitted, stepped, rfl, rfl⟩ := withSlots_eq_some taken
    exact (mediated.exchanges_current current).pool stepped nofun
  · rename_i conn pid negotiated current
    have exchanged := mediated.exchanges_current current
    split at taken
    · rename_i peer recorded
      obtain ⟨same, cleared⟩ := mediated.record_eq_some recorded
      split at taken
      · rename_i allowed
        obtain ⟨slots, emitted, stepped, rfl, rfl⟩ := withSlots_eq_some taken
        have checked := exchanged.checks allowed
        rw [List.append_assoc] at checked
        obtain ⟨pool, emitted, itsStep, -⟩ := ConnSlots.step_pool stepped
        have joins : Mediated config _ { state with joining := some peer } :=
          { checked with
            joining := fun id joining => by
              rw [show state.slots.pool.runPhase = .idle from PeerPool.handshake_idle itsStep]
                at joining
              cases joining }
        refine joins.pool stepped fun id ok => ⟨conn, peer, current, rfl, ?_, cleared.admitted⟩
        cases ok
        exact same
      · rename_i refused
        obtain ⟨slots, emitted, stepped, rfl, rfl⟩ := withSlots_eq_some taken
        have checked := exchanged.checks (Bool.eq_false_iff.mpr refused)
        rw [List.append_assoc] at checked
        exact checked.pool stepped nofun
    · cases taken
  · cases taken

theorem passing {slots : ConnSlots} {emitted : List ConnEvent}
    (passes : AccessState.passes action = true)
    (stepped : state.slots.step action = some (slots, emitted)) :
    Mediated config history { state with slots, peers := state.peersAfter action } := by
  cases action with
  | pool action =>
    refine mediated.pool stepped fun pid handshake => ?_
    subst handshake
    cases passes
  | acquire direction | opened conn succeeds | upgraded conn succeeds =>
    exact mediated.apart stepped nofun
  | next | wake conn | release conn => exact mediated.apart stepped nofun

theorem slots (taken : state.step config (.slots action) = some (next, events)) :
    Mediated config (history ++ events) next := by
  obtain ⟨passes, taken⟩ := Option.ite_none_right_eq_some.mp taken
  obtain ⟨slots, emitted, stepped, rfl, rfl⟩ := withSlots_eq_some taken
  have passed := mediated.passing passes stepped
  unfold AccessState.observes
  split
  · rename_i conn succeeds
    obtain ⟨task, found, notOpening⟩ := ConnSlots.upgraded_found stepped
    exact passed.exchanges found fun opening => absurd opening notOpening
  · rename_i succeeds
    obtain ⟨pool, itsEvents, itsStep, -⟩ := ConnSlots.step_pool stepped
    obtain ⟨pid, joining⟩ := PeerPool.setup_joining itsStep
    obtain ⟨conn, peer, -, itsPeer, -, admitted⟩ := mediated.joining pid joining
    have observed : state.joining.toList.map AccessEvent.setUp = [.setUp peer] := by
      rw [itsPeer]
      rfl
    rw [observed]
    exact passed.concat admitted.checked nofun
  · rw [List.append_nil]
    exact passed

theorem openLookup {direction : ConnDirection} {endpoint : Endpoint}
    (opened : state.openLookup config direction endpoint = (next, events)) :
    Mediated config (history ++ events) next := by
  revert opened
  fun_cases AccessState.openLookup
  all_goals rintro ⟨⟩
  next allowed =>
    refine { mediated.checks allowed with lookups := fun lookup member => ?_ }
    rcases mem_concat.mp member with old | ⟨⟨⟩⟩
    · exact List.mem_append_left _ (mediated.lookups lookup old)
    · exact List.mem_concat_self
  next refused => exact mediated.checks (Bool.eq_false_iff.mpr refused)

theorem lookupMsg {lookup : Nat} {table : RoutingTable} {now : Int} {msg : KadMsg}
    (taken : state.lookupMsg config lookup table now msg = some (next, events)) :
    Mediated config (history ++ events) next := by
  unfold AccessState.lookupMsg at taken
  split at taken
  · rename_i endpoint found
    have checked : .checked (.endpoint endpoint) (.lookup .inbound) true ∈ history :=
      mediated.lookups _ (List.mem_of_getElem? found)
    have lookedUp : Mediated config (history ++ [.lookedUp .inbound endpoint]) state :=
      mediated.concat checked nofun
    split at taken
    · rename_i reply _ _
      cases taken
      have replied : Mediated config
          (history ++ [.lookedUp .inbound endpoint] ++ [.replied endpoint reply]) state :=
        lookedUp.concat (List.mem_append_left _ checked) nofun
      rw [List.append_assoc] at replied
      exact replied
    · cases taken
      exact lookedUp
  · rename_i endpoint found
    cases taken
    have checked : .checked (.endpoint endpoint) (.lookup .outbound) true ∈ history :=
      mediated.lookups _ (List.mem_of_getElem? found)
    exact mediated.concat checked nofun
  · cases taken

theorem refresh {entry : Entry} (refreshed : state.refresh config entry = (next, events)) :
    Mediated config (history ++ events) next := by
  revert refreshed
  fun_cases AccessState.refresh
  all_goals rintro ⟨⟩
  next =>
    rw [List.append_nil]
    exact mediated
  next allowed =>
    refine { mediated.checks allowed with probes := fun probe member => ?_ }
    rcases mem_concat.mp member with old | ⟨⟨⟩⟩
    · exact List.mem_append_left _ (mediated.probes probe old)
    · exact List.mem_concat_self
  next refused => exact mediated.checks (Bool.eq_false_iff.mpr refused)

theorem setProbe {probe : Nat} {before after : Probe} (found : state.probes[probe]? = some before)
    (same : after.endpoint = before.endpoint) :
    Mediated config history { state with probes := state.probes.set probe after } := by
  refine { mediated with probes := fun other member => ?_ }
  rcases List.mem_or_eq_of_mem_set member with old | rfl
  · exact mediated.probes other old
  · rw [same]
    exact mediated.probes before (List.mem_of_getElem? found)

theorem ping {probe : Nat} {outcome : Except Error Unit}
    (taken : state.ping config probe outcome = some (next, events)) :
    Mediated config (history ++ events) next := by
  have pinged {endpoint : Endpoint} {retry : Nat}
      (found : state.probes[probe]? = some ⟨endpoint, retry, false⟩) :
      Mediated config (history ++ [.pinged endpoint]) state :=
    mediated.concat (mediated.probes _ (List.mem_of_getElem? found)) nofun
  revert taken
  fun_cases AccessState.ping
  all_goals rintro ⟨⟩
  next found _ => exact (pinged found).setProbe found rfl
  next found _ _ => exact (pinged found).setProbe found rfl
  next found _ =>
    rw [List.append_nil]
    exact mediated.setProbe found rfl

theorem datagram (table : RoutingTable) (withinRate : Bool) (sender : SocketAddr)
    (datagram : Bytes) :
    Mediated config
      (history ++ AccessState.listenToPingMsg config table withinRate sender datagram) state := by
  unfold AccessState.listenToPingMsg
  split
  · split
    · rename_i allowed
      have checked := mediated.checks allowed
      split
      · rename_i encoded _
        have ponged : Mediated config (history ++ [_] ++ [.ponged (.newUdpAddr sender) encoded])
            state := checked.concat List.mem_concat_self nofun
        rw [List.append_assoc] at ponged
        exact ponged
      · exact checked
    · rename_i refused
      exact mediated.checks (Bool.eq_false_iff.mpr refused)
  · rw [List.append_nil]
    exact mediated

theorem step {action : AccessAction} (asked : state.reportsAsked action = true)
    (taken : state.step config action = some (next, events)) :
    Mediated config (history ++ events) next := by
  cases action with
  | accepted conn endpoint => exact mediated.accepted taken
  | moved conn reported => exact mediated.moved asked taken
  | discovered addrs => exact mediated.discovered taken
  | dialSlot => exact mediated.dialSlot taken
  | dial answer reported succeeds => exact mediated.dial asked taken
  | handshake outcome => exact mediated.handshake taken
  | slots action => exact mediated.slots taken
  | lookupAccepted endpoint | lookupDialed endpoint =>
    exact mediated.openLookup (Option.some.inj taken)
  | lookupMsg lookup table now msg => exact mediated.lookupMsg taken
  | refresh entry => exact mediated.refresh (Option.some.inj taken)
  | ping probe outcome => exact mediated.ping taken
  | datagram table withinRate sender datagram =>
    cases taken
    exact mediated.datagram table withinRate sender datagram

end

end Mediated

/-! ### Mediation -/

/-- The event gives the subject what it would need the consent to the action for: a peer, a reply
to a lookup or a pong. -/
def AccessEvent.Serves (subject : Subject) (action : AccessControl.Action) : AccessEvent → Prop
  | .setUp peer => action = .connect peer.direction ∧
      (subject = .endpoint peer.candidate.remoteEndpoint ∨ subject = .peer peer.candidate)
  | .replied endpoint _ => action = .lookup .inbound ∧ subject = .endpoint endpoint
  | .ponged endpoint _ => action = .probe .inbound ∧ subject = .endpoint endpoint
  | _ => False

/-- What an event gives to a subject was asked for before. -/
theorem AccessEvent.Serves.checked {accessControl : AccessControl} {subject : Subject}
    {action : AccessControl.Action} {event : AccessEvent} {before : List AccessEvent}
    (serves : event.Serves subject action) (justified : accessControl.Justifies before event) :
    .checked subject action true ∈ before := by
  cases event with
  | setUp peer =>
    obtain ⟨rfl, rfl | rfl⟩ := serves
    · exact justified.1
    · exact justified.2
  | replied endpoint msg | ponged endpoint datagram =>
    obtain ⟨rfl, rfl⟩ := serves
    exact justified
  | checked itsSubject itsAction allowed | exchanged conn | lookedUp direction endpoint =>
    exact serves.elim
  | pinged endpoint => exact serves.elim

/-- In every run in which the streams report the endpoints that the policy was asked about: every
peer of the pool was let through after its endpoint was, before any byte was exchanged on its
connection; every event has what justifies it before it; and what the policy refuses gets no peer,
no reply and no pong. -/
theorem access_mediated {semver : Semver} {config : AccessConfig semver}
    {history : List AccessEvent} {state : AccessState}
    (run : (accessMachine config).Run (fun state action => state.reportsAsked action = true) history
      state) :
    (∀ pid peer, state.slots.pool.peers.lookup pid = some peer →
      ∃ record conn, state.peers.lookup peer = some record ∧
        state.slots.owners[peer]? = some conn ∧ record.candidate.peerId = pid ∧
        Admitted history conn record) ∧
    (∀ before event, before ++ [event] <+: history →
      config.accessControl.Justifies before event) ∧
    ∀ subject action, config.accessControl.allow subject action = false →
      ∀ event ∈ history, ¬ event.Serves subject action := by
  have mediated : Mediated config history state :=
    run.invariant (fun history state => Mediated config history state) .new
      fun _ _ _ _ _ mediated asked taken => mediated.step asked taken
  refine ⟨fun pid peer listed => ?_, mediated.justified,
    fun subject action refused event member serves => ?_⟩
  · obtain ⟨connHistory, slotted⟩ := mediated.slotted
    obtain ⟨task, found, rfl, -⟩ := (slotted.wellFormed.listed pid peer).mp listed
    obtain ⟨record, recorded⟩ := mediated.known.recorded peer task found
    obtain ⟨conn, itsTask, owner, itsFound, same, admitted⟩ :=
      mediated.known.admitted peer record recorded
    cases found.symm.trans itsFound
    exact ⟨record, conn, recorded, owner, same.symm, admitted⟩
  · obtain ⟨before, after, rfl⟩ := List.append_of_mem member
    have checked := serves.checked (mediated.justified before event
      ⟨after, by rw [List.append_assoc]; rfl⟩)
    obtain ⟨first, rest, rfl⟩ := List.append_of_mem checked
    have answered := mediated.justified first (.checked subject action true)
      ⟨rest ++ event :: after, by simp only [List.append_assoc, List.cons_append, List.nil_append]⟩
    rw [AccessControl.Justifies, refused] at answered
    cases answered

/-! ### A peer that is dialled -/

def dialedPeer : PeerID := ⟨Vector.replicate 32 1⟩

/-- The socket address at which the peer listens. -/
def peerSocket : SocketAddr := ⟨.v4 #v[10, 0, 0, 1], 80⟩

/-- A node with the policy and a slot of each direction. -/
def guardedNode (accessControl : AccessControl) : AccessConfig anyVersion where
  accessControl := accessControl
  slots _ := 1
  maxConnectRetries := 3
  refreshConnectRetries := 3
  lookup := listening 0 []
  refreshMsg := .ofTable []

/-- A peer with a TCP address is discovered and dialled, and joins the pool. -/
def dialedJoins (addr : Addr) : List AccessAction :=
  [.discovered [⟨addr, 80, .tcp, 0⟩], .dialSlot, .dial [peerSocket] peerSocket true,
    .slots (.upgraded 0 true), .slots .next, .handshake (.ok (dialedPeer, ["Chat"])),
    .slots (.pool .advance), .slots (.pool (.setup true)), .slots (.pool .advance)]

def observedRecord (reached : List AccessEvent × AccessState) :
    List AccessEvent × Option Nat × Option PeerRecord :=
  (reached.1, reached.2.slots.pool.peers.lookup dialedPeer, reached.2.peers.lookup 0)

/-- A peer at an IP address joins the pool. -/
theorem access_mediated_dialed :
    ∃ history state, (accessMachine (guardedNode .allowAll)).Run
        (fun state action => state.reportsAsked action = true) history state ∧
      state.slots.pool.peers.lookup dialedPeer = some 0 ∧
      ∃ record conn, state.peers.lookup 0 = some record ∧ state.slots.owners[0]? = some conn ∧
        record.candidate.peerId = dialedPeer ∧ Admitted history conn record := by
  exact Machine.reach_run (fun history state => (observedRecord (history, state)).2.1 = some 0)
    (dialedJoins (.ip peerSocket.ip)) (by decide +kernel)
    fun _ _ run listed => ⟨listed, (access_mediated run).1 dialedPeer 0 listed⟩

/-- A policy that refuses one endpoint. -/
def refusing (endpoint : Endpoint) : AccessControl where
  allow subject _ := decide (subject ≠ .endpoint endpoint)

/-- The policy refuses an endpoint, and a peer advertises a domain that resolves to it. The policy
is asked about the domain, and the peer joins the pool with the endpoint that is refused. -/
theorem refused_endpoint_joins :
    ∃ history state record,
      (accessMachine (guardedNode (refusing (.newTcpAddr peerSocket)))).Run (fun _ _ => True)
        history state ∧
      state.slots.pool.peers.lookup dialedPeer = some 0 ∧ state.peers.lookup 0 = some record ∧
      (refusing (.newTcpAddr peerSocket)).allow (.endpoint record.candidate.remoteEndpoint)
        (.connect record.direction) = false ∧
      AccessEvent.checked (.endpoint record.candidate.remoteEndpoint) (.connect record.direction)
        true ∉ history := by
  have taken : ((accessMachine (guardedNode (refusing (.newTcpAddr peerSocket)))).trace
      (dialedJoins (.domain "peer.example"))).map observedRecord =
      some (
        [.checked (.endpoint (.tcp (.domain "peer.example") 80)) (.connect .outbound) true,
          .exchanged 0, .exchanged 0, .exchanged 0,
          .checked (.peer ⟨dialedPeer, .newTcpAddr peerSocket, ["Chat"]⟩) (.connect .outbound) true,
          .setUp ⟨⟨dialedPeer, .newTcpAddr peerSocket, ["Chat"]⟩, .outbound⟩],
        some 0, some ⟨⟨dialedPeer, .newTcpAddr peerSocket, ["Chat"]⟩, .outbound⟩) := by
    decide +kernel
  obtain ⟨history, state, run, observed⟩ := Machine.trace_observed taken
  have events : history = _ := congrArg Prod.fst observed
  refine ⟨history, state, _, run,
    congrArg (fun image => image.2.1) observed, congrArg (fun image => image.2.2) observed,
    by decide, ?_⟩
  rw [events]
  decide

end Karyon.P2p
