/-
This file proves when an entry that is marked as connected is connected.

An entry is marked when it is picked, and when the addition of its peer is forwarded.
From the first moment on its id is accounted for: something is in flight for it, or
it is in the pool. Every step of the node moves an id from one of these places to the
next, or writes another status into the entry. For a forwarded addition the agreement
between the events of the pool and its map says that the peer is still there or that
its removal is still to come.
-/

import Karyon.P2p.Node

namespace Karyon.P2p

open Interaction Karyon.Net Transition

/-! ### The pool -/

variable {action : PoolAction} {now : Int}

namespace PeerPool

variable {pool : PeerPool} {pid : PeerID}

theorem mem_unannounced :
    pid ∈ pool.unannounced ↔ ∃ (peer : Nat) (task : PeerTask),
      pool.spawned[peer]? = some task ∧ task.pid = pid ∧ task.phase.unannounced = true := by
  simp only [unannounced, List.mem_map, List.mem_filter]
  constructor
  · rintro ⟨task, ⟨member, leaving⟩, owner⟩
    obtain ⟨peer, found⟩ := List.mem_iff_getElem?.mp member
    exact ⟨peer, task, found, owner, leaving⟩
  · rintro ⟨peer, task, found, owner, leaving⟩
    exact ⟨task, ⟨List.mem_of_getElem? found, leaving⟩, owner⟩

/-- A removal that was to be emitted still is, unless its own task has gone on. -/
theorem unannounced_setPhase {peer : Nat} {task : PeerTask} {phase : PeerPhase}
    (found : pool.spawned[peer]? = some task) (member : pid ∈ pool.unannounced) :
    pid ∈ (pool.setPhase peer phase).unannounced ∨
      (task.pid = pid ∧ task.phase.unannounced = true ∧ phase.unannounced = false) := by
  obtain ⟨other, its, itsFound, owner, leaving⟩ := mem_unannounced.mp member
  by_cases same : peer = other
  · subst same
    rw [found] at itsFound
    cases itsFound
    cases still : phase.unannounced with
    | false => exact Or.inr ⟨owner, leaving, rfl⟩
    | true =>
      refine Or.inl (mem_unannounced.mpr ⟨peer, { task with phase }, ?_, owner, still⟩)
      exact (setPhase_eq_some found).mpr (Or.inl ⟨rfl, rfl⟩)
  · refine Or.inl (mem_unannounced.mpr ⟨other, its, ?_, owner, leaving⟩)
    exact (setPhase_eq_some found).mpr (Or.inr ⟨Ne.symm same, itsFound⟩)

/-- The pool accounts for the id: it is in the map, or its removal is still to be emitted. -/
def Holds (pool : PeerPool) (pid : PeerID) : Prop :=
  pid ∈ pool.unannounced ∨ (pool.peers.lookup pid).isSome = true

/-- An id that the pool accounts for is released by an event about it only. -/
theorem Effect.holds {next : PeerPool} {events : List PeerEvent}
    (effect : Effect pool action next events) (holds : pool.Holds pid) :
    next.Holds pid ∨ some pid ∈ events.map PeerEvent.about := by
  cases effect with
  | goes | announces => exact Or.inl holds
  | inserts inserting =>
    rename_i newest
    refine Or.inl (holds.imp (fun member => ?_) fun listed => ?_)
    · obtain ⟨peer, task, found, rest⟩ := mem_unannounced.mp member
      exact mem_unannounced.mpr ⟨peer, task, Indexed.concat_eq_some.mpr (Or.inl found), rest⟩
    · by_cases same : pid = newest
      · rw [same, inserted, AList.lookup_insert]
        rfl
      · rw [inserted, AList.lookup_insert_ne same]
        exact listed
  | works found listed unfinished remains =>
    rename_i peer task phase
    refine Or.inl (holds.imp_left fun member => ?_)
    rcases unannounced_setPhase found member with kept | ⟨_, leaving, stopped⟩
    · exact kept
    · exfalso
      revert listed leaving stopped remains
      cases task.phase <;> cases phase <;> simp [PeerPhase.unannounced, PeerPhase.listed]
  | leaves found removing =>
    rename_i peer task
    rcases holds with member | listed
    · refine Or.inl (Or.inl ?_)
      rcases unannounced_setPhase found member with kept | ⟨_, leaving, _⟩
      · exact kept
      · rw [removing] at leaving
        cases leaving
    · by_cases same : pid = task.pid
      · refine Or.inl (Or.inl (mem_unannounced.mpr ⟨peer, { task with phase := .shuttingDown },
          ?_, same.symm, rfl⟩))
        exact (setPhase_eq_some found).mpr (Or.inl ⟨rfl, rfl⟩)
      · refine Or.inl (Or.inr ?_)
        rw [AList.lookup_erase_ne same]
        exact listed
  | vanishes found removing _ =>
    refine Or.inl (holds.imp_left fun member => ?_)
    rcases unannounced_setPhase found member with kept | ⟨_, leaving, _⟩
    · exact kept
    · rw [removing] at leaving
      cases leaving
  | departs found _ =>
    rename_i peer task
    rcases holds with member | listed
    · rcases unannounced_setPhase found member with kept | ⟨owner, _, _⟩
      · exact Or.inl (Or.inl kept)
      · rw [owner]
        exact Or.inr (List.mem_singleton_self _)
    · exact Or.inl (Or.inr listed)

/-- An id whose last event is an addition is accounted for by the pool. -/
theorem Agreement.holds {history : List PeerEvent} (agreement : Agreement history pool)
    (last : (lifecycle pid history).getLast? = some true) :
    pool.Holds pid := by
  rw [getLast?_of_alternates (agreement.alternates pid), agreement.opened] at last
  obtain ⟨peer, ⟨task, found, owner, unfinished⟩, _⟩ := last
  cases listed : task.phase.listed with
  | true =>
    refine Or.inr (Option.isSome_iff_exists.mpr ⟨peer, ?_⟩)
    exact (agreement.wellFormed.listed pid peer).mpr ⟨task, found, owner, listed⟩
  | false =>
    refine Or.inl (mem_unannounced.mpr ⟨peer, task, found, owner, ?_⟩)
    revert listed unfinished
    cases task.phase <;> simp [PeerPhase.unannounced, PeerPhase.listed]

/-- What one step does to an id that the run loop waits for, if no handshake ends and no wire
fails to be set up in it: the run loop lets go of the id with an event about it, or when the id is
in the map. -/
theorem step_awaits {next : PeerPool} {events : List PeerEvent}
    (step : pool.step action = some (next, events)) (awaits : pool.runPhase.awaits pid = true)
    (later : ∀ outcome, action ≠ .handshake outcome) (built : action ≠ .setup false) :
    (next.runPhase.awaits pid = true ∧ (next.runPhase = .idle → pool.runPhase = .idle)) ∨
      (next.peers.lookup pid).isSome = true ∨ some pid ∈ events.map PeerEvent.about := by
  cases steps_of_step step with
  | inserts inserting =>
    rw [inserting] at awaits
    obtain rfl := beq_iff_eq.mp awaits
    refine Or.inr (Or.inl ?_)
    rw [inserted, AList.lookup_insert]
    rfl
  | loops phase turn =>
    rw [phase] at awaits
    cases turn with
    | fails id | succeeds id => exact absurd rfl (later _)
    | unbuilt id => exact absurd rfl built
    | notifiesFailed id | built id => exact Or.inl ⟨awaits, RunPhase.noConfusion⟩
    | emitsFailed id =>
      rw [← beq_iff_eq.mp awaits]
      exact Or.inr (Or.inr (List.mem_singleton_self _))
    | known id present =>
      obtain rfl := beq_iff_eq.mp awaits
      exact Or.inr (Or.inl present)
    | unknown id absent => exact Or.inl ⟨awaits, RunPhase.noConfusion⟩
    | _ => cases awaits
  | works found phase turn | leaves found removing | vanishes found removing absent =>
    exact Or.inl ⟨awaits, id⟩

end PeerPool

/-! ### Discovery -/

namespace Discovery

variable {localKey : Key} {self : Discovery}

/-- A verdict or a report other than that of a connection marks nothing as connected. -/
theorem connected_of_judged {key other : Key} {table next : RoutingTable}
    (wellFormed : table.WellFormed localKey) (change : next = table.removeEntry key ∨
      ∃ flag now, flag ≠ CONNECTED_ENTRY ∧ next = table.updateEntry key flag now)
    (connected : next.Connected other) : table.Connected other ∧ other ≠ key := by
  have different : other ≠ key := by
    rintro rfl
    rcases change with rfl | ⟨flag, now, unmarked, rfl⟩
    · rw [RoutingTable.Connected, RoutingTable.status_removeEntry_self wellFormed] at connected
      cases connected
    · rw [RoutingTable.Connected, RoutingTable.status_updateEntry_self,
        Option.map_eq_some_iff] at connected
      obtain ⟨_, _, marked⟩ := connected
      exact unmarked marked
  exact ⟨((wellFormed.judged change).2 other different).mp connected, different⟩

/-- What the tasks of discovery do: an entry that they mark as connected is handed to the node,
and what the node has not taken yet stays so. -/
theorem internal_step {config : DiscoveryConfig} {next : Discovery} {action : DiscoveryAction}
    {events : List DiscoveryEvent} (step : Discovery.step config self action = some (next, events))
    (internal : action.internal = true) (wellFormed : self.table.WellFormed config.localKey) :
    next.table.WellFormed config.localKey ∧
      (∀ pid : PeerID, next.table.Connected pid.bytes →
        self.table.Connected pid.bytes ∨ some pid ∈ next.wanted) ∧
      ∀ pid, some pid ∈ self.wanted → some pid ∈ next.wanted := by
  cases step_effect step with
  | finds idle found =>
    refine ⟨wellFormed, fun pid connected => Or.inl connected, fun pid member => ?_⟩
    rw [wanted, idle] at member
    exact member
  | picks found marks =>
    rename_i now entry
    refine ⟨RoutingTable.updateEntry_wellFormed wellFormed _ _ _, fun pid connected => ?_,
      fun pid member => ?_⟩
    · by_cases same : pid.bytes = entry.key
      · refine Or.inr (List.mem_cons.mpr (Or.inl ?_))
        rw [show ConnectPhase.handing _ = some ⟨entry.key⟩ from rfl, ← same]
      · exact Or.inl ((RoutingTable.connected_updateEntry_other _ now same).mp connected)
    · rw [wanted, found] at member
      exact List.mem_cons_of_mem _ ((List.mem_cons.mp member).resolve_left nofun)
  | queues handing idle =>
    refine ⟨wellFormed, fun pid connected => Or.inl connected, fun pid member => ?_⟩
    rw [wanted, handing, List.mem_cons] at member
    rw [wanted, List.map_append, List.mem_cons, List.mem_append, List.map_singleton,
      List.mem_singleton]
    exact Or.inr member.symm
  | adds follows =>
    rename_i entries now phase
    refine ⟨RoutingTable.addEntries_wellFormed wellFormed entries now, fun pid connected => ?_,
      fun pid member => ?_⟩
    · exact Or.inl ((RoutingTable.connected_addEntries wellFormed entries now _).mp connected)
    · rw [wanted, follows.handing]
      exact member
  | judges written change follows =>
    refine ⟨(wellFormed.judged change).1, fun pid connected => ?_, fun pid member => ?_⟩
    · exact Or.inl (connected_of_judged wellFormed change connected).1
    · rw [wanted, follows.handing]
      exact member
  | takes _ external | settles _ external | connects external =>
    exact absurd internal (by rw [external]; nofun)
  | goes follows =>
    refine ⟨wellFormed, fun pid connected => Or.inl connected, fun pid member => ?_⟩
    rw [wanted, follows.handing]
    exact member

/-- An entry that is marked as connected after a report was so before, or the report says so; and
the report does not say that its peer is gone or could not be reached. -/
theorem connected_of_onEvent {event : PeerConnectionEvent} {pid : PeerID}
    (wellFormed : self.table.WellFormed localKey)
    (connected : (self.onEvent event now).table.Connected pid.bytes) :
    event = .connected pid ∨ (self.table.Connected pid.bytes ∧ event ≠ .disconnected pid ∧
      event ≠ .connectFailed (some pid)) := by
  have settled {other : PeerID} {flag : EntryStatusFlag} (unmarked : flag ≠ CONNECTED_ENTRY)
      (marked : (self.table.updateEntry other.bytes flag now).Connected pid.bytes) :
      self.table.Connected pid.bytes ∧ other ≠ pid := by
    obtain ⟨before, different⟩ :=
      connected_of_judged wellFormed (Or.inr ⟨flag, now, unmarked, rfl⟩) marked
    exact ⟨before, fun same => different (congrArg PeerID.bytes same.symm)⟩
  cases event with
  | connected other =>
    by_cases same : other = pid
    · exact Or.inl (congrArg _ same)
    · have different : pid.bytes ≠ other.bytes := fun equal => same (by
        cases pid
        cases other
        exact congrArg PeerID.mk equal.symm)
      exact Or.inr ⟨(RoutingTable.connected_updateEntry_other _ now different).mp connected,
        nofun, nofun⟩
  | disconnected other =>
    obtain ⟨before, different⟩ := settled (by decide) connected
    exact Or.inr ⟨before, fun same => different (by cases same; rfl), nofun⟩
  | connectFailed failed =>
    cases failed with
    | none => exact Or.inr ⟨connected, nofun, nofun⟩
    | some other =>
      obtain ⟨before, different⟩ := settled (by decide) connected
      exact Or.inr ⟨before, nofun, fun same => different (by cases same; rfl)⟩

theorem onEvent_wellFormed (wellFormed : self.table.WellFormed localKey)
    (event : PeerConnectionEvent) (now : Int) :
    (self.onEvent event now).table.WellFormed localKey ∧
      (self.onEvent event now).wanted = self.wanted := by
  cases event with
  | connectFailed failed =>
    cases failed with
    | none => exact ⟨wellFormed, rfl⟩
    | some pid => exact ⟨RoutingTable.updateEntry_wellFormed wellFormed _ _ _, rfl⟩
  | _ => exact ⟨RoutingTable.updateEntry_wellFormed wellFormed _ _ _, rfl⟩

end Discovery

/-! ### The node -/

namespace Node

theorem mem_attempts {node : Node} {pid : PeerID} :
    some pid ∈ node.attempts ↔ some pid ∈ node.discovery.wanted ∨
      node.dialPhase.peerId = some pid ∨
      (∃ connection ∈ node.connections, connection.dialled = some pid) ∨
      ∃ connection ∈ node.connQueue, connection.dialled = some pid := by
  rw [attempts, List.mem_append, List.mem_cons, List.map_append, List.mem_append, List.mem_map,
    List.mem_map, @eq_comm _ (some pid)]

/-- Something is in flight for the id, or the id is in the pool. -/
def Accounted (node : Node) (pid : PeerID) : Prop :=
  some pid ∈ node.attempts ∨ node.admitting = some pid ∨
    some pid ∈ node.peerEvents.map PeerEvent.about ∨ node.pool.Holds pid

/-- Every id whose entry is marked as connected is accounted for. -/
structure Tracks (config : NodeConfig) (history : List PeerEvent) (node : Node) : Prop where
  wellFormed : node.discovery.table.WellFormed config.discovery.localKey
  agreement : PeerPool.Agreement history node.pool
  undelivered : node.peerEvents <:+ history
  accounted : ∀ pid : PeerID, node.discovery.table.Connected pid.bytes → node.Accounted pid

namespace Tracks

variable {config : NodeConfig} {history events : List PeerEvent} {node next : Node}

theorem new (config : NodeConfig) : Tracks config [] (.new config) where
  wellFormed := RoutingTable.new_wellFormed config.discovery.localKey
  agreement := PeerPool.new_agreement
  undelivered := List.suffix_refl []
  accounted pid connected := by
    have absent := RoutingTable.status_new config.discovery.localKey pid.bytes
    cases absent.symm.trans connected

variable {allowed : Bool} {task : Nat}

/-- A connection that is taken out of a list is the one at its place, or is still in the list. -/
theorem mem_or_mem_eraseIdx {connections : List Connection} {connection other : Connection}
    (found : connections[task]? = some connection) (member : other ∈ connections) :
    other = connection ∨ other ∈ connections.eraseIdx task := by
  obtain ⟨place, itsFound⟩ := List.mem_iff_getElem?.mp member
  by_cases same : place = task
  · subst same
    rw [found] at itsFound
    exact Or.inl (Option.some.inj itsFound).symm
  · exact Or.inr (List.mem_eraseIdx_iff_getElem?.mpr ⟨place, same, itsFound⟩)

variable {result : HandshakeResult}

/-- The end of a handshake for an id is a peer of this id or a failure that is reported for it. -/
theorem outcome_of_reports {pid : PeerID} {queued : PendingConn}
    (current : node.current = some ⟨some pid, queued⟩) (accepts : queued.accepts result = true)
    (reported : node.reports config.tls (.handshake result allowed) = true) :
    queued.outcome result allowed = .ok pid ∨
      queued.outcome result allowed = .error (some pid) := by
  simp only [Node.reports, current, Bool.or_eq_true, beq_iff_eq] at reported
  cases result with
  | error reason => exact Or.inr (congrArg Except.error (reported.resolve_right nofun))
  | ok accepted =>
    obtain ⟨claimed, negotiated⟩ := accepted
    have same : claimed = pid := by
      rcases reported with verified | claims
      · rw [PendingConn.accepts, verified] at accepts
        exact beq_iff_eq.mp accepts
      · exact beq_iff_eq.mp claims
    rw [same, PendingConn.outcome]
    cases allowed with
    | true => exact Or.inl rfl
    | false => exact Or.inr rfl

/-- An id that no event of a list is about neither came nor went in it. -/
theorem lifecycle_eq_nil {pid : PeerID} {later : List PeerEvent}
    (absent : some pid ∉ later.map PeerEvent.about) : lifecycle pid later = [] := by
  refine List.filterMap_eq_nil_iff.mpr fun event member => ?_
  have different : event.about ≠ some pid := fun same =>
    absent (List.mem_map.mpr ⟨event, member, same⟩)
  cases event with
  | added id | removed id => exact if_neg fun same => different (congrArg some same)
  | handshakeFailed id => rfl

section

variable (tracks : Tracks config history node)

include tracks

section

variable (pool : next.pool = node.pool) (current : next.current = node.current)
  (peerEvents : next.peerEvents = node.peerEvents)

include pool current peerEvents

/-- A step of discovery or of the dialling side, which leaves the pool, its connection and its
events alone. -/
theorem moves (wellFormed : next.discovery.table.WellFormed config.discovery.localKey)
    (marked : ∀ pid : PeerID, next.discovery.table.Connected pid.bytes →
      node.discovery.table.Connected pid.bytes ∨ some pid ∈ next.attempts)
    (kept : ∀ pid : PeerID, next.discovery.table.Connected pid.bytes →
      some pid ∈ node.attempts → some pid ∈ next.attempts) :
    Tracks config (history ++ []) next := by
  rw [List.append_nil]
  refine ⟨wellFormed, pool ▸ tracks.agreement, peerEvents ▸ tracks.undelivered,
    fun pid connected => ?_⟩
  rcases marked pid connected with before | attempted
  · have admitting : next.admitting = node.admitting := by
      rw [Node.admitting, Node.admitting, current, pool]
    rw [Accounted, admitting, peerEvents, pool]
    exact (tracks.accounted pid before).imp_left (kept pid connected)
  · exact Or.inl attempted

theorem dials (table : next.discovery.table = node.discovery.table)
    (kept : ∀ pid : PeerID, some pid ∈ node.attempts → some pid ∈ next.attempts) :
    Tracks config (history ++ []) next := by
  refine tracks.moves pool current peerEvents (table ▸ tracks.wellFormed) (fun pid connected => ?_)
    fun pid _ => kept pid
  rw [table] at connected
  exact Or.inl connected

end

theorem discovery {action : DiscoveryAction}
    {discovery : Discovery} {emitted : List DiscoveryEvent} (internal : action.internal = true)
    (step : node.discovery.step config.discovery action = some (discovery, emitted)) :
    Tracks config (history ++ []) { node with discovery } := by
  obtain ⟨wellFormed, marked, kept⟩ := Discovery.internal_step step internal tracks.wellFormed
  refine tracks.moves rfl rfl rfl wellFormed (fun pid connected => ?_) fun pid _ member => ?_
  · exact (marked pid connected).imp_right fun wanted => mem_attempts.mpr (Or.inl wanted)
  · exact mem_attempts.mpr ((mem_attempts.mp member).imp_left (kept pid))

theorem receive (reported : node.reports config.tls (.receive allowed) = true)
    (received : node.receive allowed = some next) : Tracks config (history ++ []) next := by
  unfold Node.receive at received
  split at received
  · rename_i discovered discovery phase taken
    unfold Discovery.recv at taken
    split at taken
    · rename_i rest queue
      cases taken
      have wanted (pid : PeerID) (member : some pid ∈ node.attempts) :
          discovered.peerId = some pid ∨ some pid ∈
            ({ node with discovery := { node.discovery with peerQueue := rest } } : Node).attempts
          := by
        rw [mem_attempts, Discovery.wanted, queue, List.map_cons, List.mem_cons,
          List.mem_cons] at member
        rw [mem_attempts, Discovery.wanted, List.mem_cons]
        rcases member with (handing | same | waiting) | rest
        · exact Or.inr (Or.inl (Or.inl handing))
        · exact Or.inl same.symm
        · exact Or.inr (Or.inl (Or.inr waiting))
        · exact Or.inr (Or.inr rest)
      have named (pid : PeerID) (same : discovered.peerId = some pid) :
          (pickEndpoint discovered.addrs SUPPORTED_PROTOCOLS).isSome = true ∧ allowed = true := by
        obtain ⟨peerId, addrs, discoveryAddrs⟩ := discovered
        cases same
        simp only [Node.reports, queue, Bool.and_eq_true] at reported
        exact reported
      split at received
      · rename_i unsupported
        cases received
        refine tracks.dials rfl rfl rfl rfl fun pid member => ?_
        refine (wanted pid member).resolve_left fun same => ?_
        have supported := (named pid same).1
        rw [unsupported] at supported
        cases supported
      · split at received
        · cases received
          refine tracks.dials rfl rfl rfl rfl fun pid member => ?_
          rcases wanted pid member with same | still
          · exact mem_attempts.mpr (Or.inr (Or.inl same))
          · refine mem_attempts.mpr ((mem_attempts.mp still).imp_right (Or.imp_left fun idle => ?_))
            rw [phase] at idle
            cases idle
        · rename_i denied
          cases received
          refine tracks.dials rfl rfl rfl rfl fun pid member => ?_
          exact (wanted pid member).resolve_left fun same => denied (named pid same).2
    · cases taken
  · cases received

theorem connect {remotes : Nat → Remote config.tls}
    (connected : node.connect config remotes = some next) :
    Tracks config (history ++ []) next := by
  revert connected
  fun_cases Node.connect
  all_goals rintro ⟨⟩
  next phase _ _ =>
    refine tracks.dials rfl rfl rfl rfl fun pid member => ?_
    rw [mem_attempts, phase] at member
    rw [mem_attempts]
    rcases member with wanted | same | ⟨connection, among, its⟩ | queued
    · exact Or.inl wanted
    · exact Or.inr (Or.inr (Or.inl ⟨_, List.mem_concat_self,
        same⟩))
    · exact Or.inr (Or.inr (Or.inl ⟨connection, List.mem_append_left _ among, its⟩))
    · exact Or.inr (Or.inr (Or.inr queued))
  next phase _ _ =>
    refine tracks.dials rfl rfl rfl rfl fun pid member => ?_
    rw [mem_attempts, phase] at member
    exact mem_attempts.mpr member

theorem report (reported : node.report now = some next) :
    Tracks config (history ++ []) next := by
  revert reported
  fun_cases Node.report <;> rintro ⟨⟩
  rename_i peerId phase
  obtain ⟨wellFormed, wanted⟩ :=
    Discovery.onEvent_wellFormed tracks.wellFormed (.connectFailed peerId) now
  have settled (pid : PeerID) (connected : (node.discovery.onEvent (.connectFailed peerId)
      now).table.Connected pid.bytes) :=
    (Discovery.connected_of_onEvent tracks.wellFormed connected).resolve_left nofun
  refine tracks.moves rfl rfl rfl wellFormed (fun pid connected => Or.inl (settled pid
    connected).1) fun pid connected member => ?_
  rw [mem_attempts, phase] at member
  rw [mem_attempts, wanted]
  refine member.imp_right (Or.imp_left fun same => ?_)
  exact absurd (congrArg _ same) (settled pid connected).2.2

theorem accept {endpoint : Endpoint} {remote : Remote config.tls}
    (accepted : node.accept config endpoint remote = some next) :
    Tracks config (history ++ []) next := by
  revert accepted
  fun_cases Node.accept <;> rintro ⟨⟩
  refine tracks.dials rfl rfl rfl rfl fun pid member => ?_
  rw [mem_attempts] at member ⊢
  refine member.imp_right (Or.imp_right (Or.imp_left ?_))
  exact fun ⟨connection, among, its⟩ => ⟨connection, List.mem_append_left _ among, its⟩

theorem enqueue (queued : node.enqueue task = some next) : Tracks config (history ++ []) next := by
  revert queued
  fun_cases Node.enqueue <;> rintro ⟨⟩
  rename_i found
  refine tracks.dials rfl rfl rfl rfl fun pid member => ?_
  rw [mem_attempts] at member ⊢
  rcases member with wanted | dialled | ⟨other, among, its⟩ | ⟨other, among, its⟩
  · exact Or.inl wanted
  · exact Or.inr (Or.inl dialled)
  · rcases mem_or_mem_eraseIdx found among with rfl | remains
    · exact Or.inr (Or.inr (Or.inr
        ⟨other, List.mem_concat_self, its⟩))
    · exact Or.inr (Or.inr (Or.inl ⟨other, remains, its⟩))
  · exact Or.inr (Or.inr (Or.inr ⟨other, List.mem_append_left _ among, its⟩))

theorem drop (reported : node.reports config.tls (.drop task) = true)
    (dropped : node.drop task = some next) : Tracks config (history ++ []) next := by
  revert dropped
  fun_cases Node.drop <;> rintro ⟨⟩
  rename_i found
  refine tracks.dials rfl rfl rfl rfl fun pid member => ?_
  rw [mem_attempts] at member ⊢
  refine member.imp_right (Or.imp_right (Or.imp_left ?_))
  rintro ⟨other, among, its⟩
  rcases mem_or_mem_eraseIdx found among with rfl | remains
  · obtain ⟨dialled, queued⟩ := other
    cases its
    simp only [Node.reports, found] at reported
    cases reported
  · exact ⟨other, remains, its⟩

theorem takes (taken : node.next = some next) :
    Tracks config (history ++ []) next := by
  revert taken
  fun_cases Node.next <;> rintro ⟨⟩
  rename_i queue vacant idle
  rw [List.append_nil]
  refine ⟨tracks.wellFormed, tracks.agreement, tracks.undelivered, fun pid connected => ?_⟩
  rcases tracks.accounted pid connected with attempted | admitting | others
  · rw [mem_attempts, queue] at attempted
    rcases attempted with wanted | dialled | waiting | ⟨other, among, its⟩
    · exact Or.inl (mem_attempts.mpr (Or.inl wanted))
    · exact Or.inl (mem_attempts.mpr (Or.inr (Or.inl dialled)))
    · exact Or.inl (mem_attempts.mpr (Or.inr (Or.inr (Or.inl waiting))))
    · rcases List.mem_cons.mp among with rfl | remains
      · refine Or.inr (Or.inl (Option.filter_eq_some_iff.mpr ⟨its, ?_⟩))
        rw [idle]
        rfl
      · exact Or.inl (mem_attempts.mpr (Or.inr (Or.inr (Or.inr ⟨other, remains, its⟩))))
  · rw [Node.admitting, vacant] at admitting
    cases admitting
  · exact Or.inr (Or.inr others)

/-- A step of the pool. An id that its loop waits for has to be still waited for, to be in the map
or to be in one of the events. -/
theorem poolStep (stepped : node.poolStep action = some (next, events))
    (ordered : node.pool.inOrder action = true)
    (kept : ∀ pid pool, node.pool.step action = some (pool, events) →
      node.admitting = some pid →
      (pool.runPhase.awaits pid = true ∧ (pool.runPhase = .idle → node.pool.runPhase = .idle)) ∨
        (pool.peers.lookup pid).isSome = true ∨ some pid ∈ events.map PeerEvent.about) :
    Tracks config (history ++ events) next := by
  obtain ⟨⟨pool, emitted⟩, step, ⟨⟩⟩ := Option.map_eq_some_iff.mp stepped
  have effect := PeerPool.step_effect step
  have carried (pid : PeerID) (emits : some pid ∈ events.map PeerEvent.about) :
      some pid ∈ (node.peerEvents ++ events).map PeerEvent.about := by
    rw [List.map_append]
    exact List.mem_append_right _ emits
  refine ⟨tracks.wellFormed, effect.agreement tracks.agreement ordered, ?_,
    fun pid connected => ?_⟩
  · obtain ⟨delivered, whole⟩ := tracks.undelivered
    exact ⟨delivered, by rw [← List.append_assoc, whole]⟩
  · rcases tracks.accounted pid connected with attempted | admitting | undelivered | held
    · exact Or.inl attempted
    · rcases kept pid pool step admitting with ⟨awaits, idle⟩ | listed | emits
      · obtain ⟨dialled, _⟩ := Option.filter_eq_some_iff.mp admitting
        refine Or.inr (Or.inl (Option.filter_eq_some_iff.mpr ⟨?_, awaits⟩))
        rw [if_neg fun done => done.1 (idle done.2)]
        exact dialled
      · exact Or.inr (Or.inr (Or.inr (Or.inr listed)))
      · exact Or.inr (Or.inr (Or.inl (carried pid emits)))
    · refine Or.inr (Or.inr (Or.inl ?_))
      rw [List.map_append]
      exact List.mem_append_left _ undelivered
    · rcases effect.holds held with still | emits
      · exact Or.inr (Or.inr (Or.inr still))
      · exact Or.inr (Or.inr (Or.inl (carried pid emits)))

theorem handshake (reported : node.reports config.tls (.handshake result allowed) = true)
    (ended : node.handshake result allowed = some (next, events)) :
    Tracks config (history ++ events) next := by
  unfold Node.handshake at ended
  split at ended
  · rename_i connection current
    obtain ⟨accepts, ended⟩ := Option.ite_none_right_eq_some.mp ended
    refine tracks.poolStep ended rfl fun pid pool step admitting => Or.inl ?_
    obtain ⟨dialled, _⟩ := Option.filter_eq_some_iff.mp admitting
    rw [current] at dialled
    obtain ⟨its, queued⟩ := connection
    cases dialled
    rcases outcome_of_reports current accepts reported with succeeded | failed
    · rw [succeeded] at step
      cases PeerPool.steps_of_step step with
      | loops phase turn =>
        cases turn
        exact ⟨beq_self_eq_true pid, RunPhase.noConfusion⟩
      | works found phase turn => cases turn
    · rw [failed] at step
      cases PeerPool.steps_of_step step with
      | loops phase turn =>
        cases turn
        exact ⟨beq_self_eq_true _, RunPhase.noConfusion⟩
      | works found phase turn => cases turn
  · cases ended

theorem forward (forwarded : node.forward now = some next) :
    Tracks config (history ++ []) next := by
  unfold Node.forward at forwarded
  split at forwarded
  · rename_i event rest queue
    cases forwarded
    rw [List.append_nil]
    obtain ⟨wellFormed, wanted⟩ :=
      Discovery.onEvent_wellFormed tracks.wellFormed event.mapped now
    obtain ⟨delivered, whole⟩ := tracks.undelivered
    rw [queue] at whole
    refine ⟨wellFormed, tracks.agreement, ⟨delivered ++ [event], ?_⟩, fun pid connected => ?_⟩
    · rw [List.append_assoc]
      exact whole
    · by_cases added : event = .added pid
      · by_cases later : some pid ∈ rest.map PeerEvent.about
        · exact Or.inr (Or.inr (Or.inl later))
        · refine Or.inr (Or.inr (Or.inr (tracks.agreement.holds ?_)))
          rw [← whole, PeerPool.lifecycle_append, added,
            show PeerEvent.added pid :: rest = [.added pid] ++ rest from rfl,
            PeerPool.lifecycle_append, lifecycle_eq_nil later, PeerPool.lifecycle_added,
            if_pos rfl, List.append_nil, List.getLast?_concat]
      · rcases Discovery.connected_of_onEvent tracks.wellFormed connected with
          reported | ⟨before, present, reached⟩
        · cases event with
          | added id =>
            cases reported
            exact absurd rfl added
          | removed id | handshakeFailed id => cases reported
        · have other : event.about ≠ some pid := by
            cases event with
            | added id => exact fun same => added (congrArg _ (Option.some.inj same))
            | removed id => exact fun same => present (congrArg _ (Option.some.inj same))
            | handshakeFailed id => exact fun same => reached (congrArg _ same)
          have accounted := tracks.accounted pid before
          rw [Accounted, queue, List.map_cons, List.mem_cons] at accounted
          rcases accounted with attempted | admitting | undelivered | held
          · refine Or.inl (mem_attempts.mpr ?_)
            rw [wanted]
            exact mem_attempts.mp attempted
          · exact Or.inr (Or.inl admitting)
          · exact Or.inr (Or.inr (Or.inl (undelivered.resolve_left (Ne.symm other))))
          · exact Or.inr (Or.inr (Or.inr held))
  · cases forwarded

theorem step {action : NodeAction config.tls} (reported : node.reports config.tls action = true)
    (stepped : node.step config action = some (next, events)) :
    Tracks config (history ++ events) next := by
  cases action with
  | discovery action =>
    obtain ⟨internal, stepped⟩ := Option.ite_none_right_eq_some.mp stepped
    obtain ⟨⟨discovery, emitted⟩, step, ⟨⟩⟩ := Option.map_eq_some_iff.mp stepped
    exact tracks.discovery internal step
  | receive allowed =>
    obtain ⟨_, received, ⟨⟩⟩ := Option.map_eq_some_iff.mp stepped
    exact tracks.receive reported received
  | connect remotes =>
    obtain ⟨_, connected, ⟨⟩⟩ := Option.map_eq_some_iff.mp stepped
    exact tracks.connect connected
  | report now =>
    obtain ⟨_, told, ⟨⟩⟩ := Option.map_eq_some_iff.mp stepped
    exact tracks.report told
  | accept endpoint remote =>
    obtain ⟨_, accepted, ⟨⟩⟩ := Option.map_eq_some_iff.mp stepped
    exact tracks.accept accepted
  | enqueue task =>
    obtain ⟨_, queued, ⟨⟩⟩ := Option.map_eq_some_iff.mp stepped
    exact tracks.enqueue queued
  | drop task =>
    obtain ⟨_, dropped, ⟨⟩⟩ := Option.map_eq_some_iff.mp stepped
    exact tracks.drop reported dropped
  | next =>
    obtain ⟨_, taken, ⟨⟩⟩ := Option.map_eq_some_iff.mp stepped
    exact tracks.takes taken
  | handshake result allowed => exact tracks.handshake reported stepped
  | pool action =>
    cases action with
    | handshake outcome => cases stepped
    | setup succeeds =>
      cases succeeds with
      | true =>
        exact tracks.poolStep stepped reported fun pid pool step admitting =>
          PeerPool.step_awaits step (Option.filter_eq_some_iff.mp admitting).2 nofun nofun
      | false =>
        refine tracks.poolStep stepped rfl fun pid pool step admitting => ?_
        obtain ⟨dialled, _⟩ := Option.filter_eq_some_iff.mp admitting
        obtain ⟨⟨its, queued⟩, current, rfl⟩ := Option.bind_eq_some_iff.mp dialled
        simp only [Node.reports, current] at reported
        cases reported
    | advance | disconnect peer | callback peer =>
      exact tracks.poolStep stepped reported fun pid pool step admitting =>
        PeerPool.step_awaits step (Option.filter_eq_some_iff.mp admitting).2 nofun nofun
  | forward now =>
    obtain ⟨_, forwarded, ⟨⟩⟩ := Option.map_eq_some_iff.mp stepped
    exact tracks.forward forwarded

end

end Tracks

end Node

/-- In every run in which every end of an attempt is reported, an entry is marked as connected
with nothing in flight for its id only if the id is in the peer pool. -/
theorem connected_means_connected (config : NodeConfig) {history : List PeerEvent} {node : Node}
    (run : (nodeMachine config).Run (fun node action => node.reports config.tls action = true)
      history node)
    (pid : PeerID) (quiet : ¬ node.InFlight pid)
    (connected : node.discovery.table.status pid.bytes = some CONNECTED_ENTRY) :
    (node.pool.peers.lookup pid).isSome = true := by
  have tracks : Node.Tracks config history node :=
    run.invariant (Node.Tracks config) (.new config)
      fun _ _ _ _ _ before reported step => before.step reported step
  rcases tracks.accounted pid connected with attempted | admitting | undelivered | leaving | listed
  · exact absurd (Or.inl attempted) quiet
  · exact absurd (Or.inr (Or.inl admitting)) quiet
  · exact absurd (Or.inr (Or.inr (Or.inr undelivered))) quiet
  · exact absurd (Or.inr (Or.inr (Or.inl leaving))) quiet
  · exact listed

/-! ### Peers that stay marked -/

def sampleNode : NodeConfig where
  discovery := sampleDiscovery
  tls := sampleTls
  maxRetries := 1

/-- The sample peer is added and picked, and its discovered peer is queued. -/
def bobDiscovered (entry : Entry) : List (NodeAction sampleTls) :=
  [.discovery (.inbound entry 0), .discovery .push, .discovery (.search .default .inOrder),
    .discovery (.mark 1), .discovery .push]

/-- It is dialled over TCP, and the pool takes the connection. -/
def bobDialled : List (NodeAction sampleTls) :=
  [.receive true, .connect fun _ => bobRemote, .enqueue 0, .next]

/-- It claims its id in the handshake and is admitted, and its addition is forwarded. -/
def bobAdmitted : List (NodeAction sampleTls) :=
  [.handshake (.ok (bobId, [])) true, .pool .advance, .pool (.setup true), .pool .advance,
    .pool .advance, .pool .advance, .forward 2]

/-- The handshake fails, and its failure is forwarded. -/
def bobFailed : List (NodeAction sampleTls) :=
  [.handshake (.error .timeout) true, .pool .advance, .pool .advance, .pool .advance, .forward 2]

/-- What is observed of the sample peer: nothing is in flight for it, its entry is marked as
connected, and whether it is in the pool. -/
def observedBob (reached : List PeerEvent × Node) : Bool × Bool × Bool :=
  (decide (¬ reached.2.InFlight bobId),
    decide (reached.2.discovery.table.status bobId.bytes = some CONNECTED_ENTRY),
    (reached.2.pool.peers.lookup bobId).isSome)

/-- A peer that is dialled, claims its id and is admitted. -/
theorem connected_means_connected_admitted :
    ∃ history node, (nodeMachine sampleNode).Run
      (fun node action => node.reports sampleTls action = true) history node ∧
      ¬ node.InFlight bobId ∧
      node.discovery.table.status bobId.bytes = some CONNECTED_ENTRY ∧
      (node.pool.peers.lookup bobId).isSome = true := by
  refine Machine.reach_run (fun history node => observedBob (history, node) = (true, true, true))
    (bobDiscovered sampleEntry ++ bobDialled ++ bobAdmitted) (by decide +kernel)
    fun _ node run observed => ?_
  have quiet := of_decide_eq_true (congrArg Prod.fst observed)
  have connected := of_decide_eq_true (congrArg (fun image => image.2.1) observed)
  exact ⟨quiet, connected, connected_means_connected sampleNode run bobId quiet connected⟩

/-- Without the condition, a peer that has no supported address and one whose handshake over TCP
fails stay marked as connected. -/
theorem connected_left_behind :
    (∃ history node, (nodeMachine sampleNode).Run (fun _ _ => True) history node ∧
      ¬ node.InFlight bobId ∧
      node.discovery.table.status bobId.bytes = some CONNECTED_ENTRY ∧
      (node.pool.peers.lookup bobId).isSome = false ∧ history = []) ∧
    ∃ history node, (nodeMachine sampleNode).Run (fun _ _ => True) history node ∧
      ¬ node.InFlight bobId ∧
      node.discovery.table.status bobId.bytes = some CONNECTED_ENTRY ∧
      (node.pool.peers.lookup bobId).isSome = false ∧ history = [.handshakeFailed none] := by
  constructor
  · exact Machine.trace_holds
      (bobDiscovered { sampleEntry with addrs := sampleEntry.discoveryAddrs } ++ [.receive true])
      (by decide +kernel)
  · exact Machine.trace_holds (bobDiscovered sampleEntry ++ bobDialled ++ bobFailed)
      (by decide +kernel)

end Karyon.P2p
