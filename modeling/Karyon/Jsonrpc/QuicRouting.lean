/-
This file is about the two maps of a QUIC client, from subscription identifiers to the
senders of unsubscribe requests and to the subscriptions.

A subscription is entered in the first map when it is answered and in the second when its
task is spawned. An unsubscribe call takes the sender out of the first map and later the
subscription out of the second. When identifiers are given to one subscription at a time,
the maps lead each call to the subscription that it is about (`Routed`), whatever order
these steps have.
-/

import Karyon.Jsonrpc.QuicStream

namespace Karyon.Jsonrpc

open Json Transition

/-- A call of `unsubscribe`, with the sender that it removed. -/
structure UnsubCall where
  subId : SubscriptionID
  ch : Option Nat
  returned : Bool

abbrev QuicEvent := Nat × StreamEvent

/-! ### The events of one stream -/

def eventsOf (stream : Nat) (history : List QuicEvent) : List StreamEvent :=
  history.filterMap fun entry => if entry.1 = stream then some entry.2 else none

section Events

variable {stream other : Nat} {event : StreamEvent} {events : List StreamEvent}
  {history later : List QuicEvent}

theorem mem_eventsOf : event ∈ eventsOf stream history ↔ (stream, event) ∈ history := by
  simp only [eventsOf, List.mem_filterMap]
  constructor
  · rintro ⟨⟨_, _⟩, member, found⟩
    split at found
    · rename_i same
      cases same
      cases found
      exact member
    · cases found
  · intro member
    exact ⟨(stream, event), member, if_pos rfl⟩

theorem eventsOf_append :
    eventsOf stream (history ++ later) = eventsOf stream history ++ eventsOf stream later :=
  List.filterMap_append

theorem eventsOf_own : eventsOf stream (events.map (Prod.mk stream)) = events := by
  rw [eventsOf, List.filterMap_map]
  refine (List.filterMap_congr fun event _ => ?_).trans List.filterMap_some
  exact if_pos rfl

theorem eventsOf_other (different : other ≠ stream) :
    eventsOf other (events.map (Prod.mk stream)) = [] := by
  rw [eventsOf, List.filterMap_map, List.filterMap_eq_nil_iff]
  exact fun _ _ => if_neg different.symm

end Events

/-! ### Identifiers that name one subscription -/

/-- A subscription moves on by itself: its task may end. -/
structure Held.Ages (before after : Held) : Prop where
  id : after.sub.id = before.sub.id
  isOpen : after.sub.isOpen = before.sub.isOpen
  task : after.task = before.task ∧ after.unsubRx = before.unsubRx ∨ after.task = .ended

theorem Held.Ages.refl (self : Held) : self.Ages self :=
  ⟨rfl, rfl, Or.inl ⟨rfl, rfl⟩⟩

theorem Held.Ages.reading {before after : Held} (ages : before.Ages after)
    (reading : after.task ≠ .ended) : after.task = before.task ∧ after.unsubRx = before.unsubRx :=
  ages.task.resolve_right reading

theorem Held.Live.reading {self : Held} (live : self.Live) : self.task ≠ .ended := by
  rw [live.running]
  rintro ⟨⟩

/-- How a subscription may change while the maps and the calls stay. -/
structure Held.Evolves (subscriptions : HashMap SubscriptionID Nat) (stream : Nat)
    (before after : Held) : Prop where
  id : after.sub.id = before.sub.id
  isOpen : before.sub.isOpen = false → after.sub.isOpen = false
  reading : after.task ≠ .ended →
    before.task ≠ .ended ∧ (after.unsubRx = none → before.unsubRx = none)
  spawning : after.task = .spawning → before.task = .spawning
  live : after.Live → before.Live ∨ subscriptions.lookup before.sub.id = some stream

theorem Held.Ages.evolves {before after : Held} (ages : before.Ages after)
    {subscriptions : HashMap SubscriptionID Nat} {stream : Nat} :
    before.Evolves subscriptions stream after where
  id := ages.id
  isOpen := ages.isOpen.trans
  reading reading := by
    obtain ⟨task, unsubRx⟩ := ages.reading reading
    exact ⟨task ▸ reading, unsubRx.symm.trans⟩
  spawning spawning := by
    have reading : after.task ≠ .ended := by
      rw [spawning]
      rintro ⟨⟩
    exact (ages.reading reading).1.symm.trans spawning
  live live := by
    obtain ⟨task, unsubRx⟩ := ages.reading live.reading
    exact Or.inl ⟨task ▸ live.running, unsubRx ▸ live.unsubRx⟩

/-- The identifier of the subscription of a stream. -/
def idAt (held : Nat → Option Held) (stream : Nat) : Option SubscriptionID :=
  (held stream).map fun self => self.sub.id

/-- The maps and the calls agree with the subscriptions.

Those whose task has not ended have different identifiers (`unique`). A sender is in the map until a
request is handed to it (`senders`, `unused`), and a live subscription is in the other map
(`entered`). A call that has not returned is about no live subscription (`pending`); the sender that
it took is not in the map any more (`taken`). If it has handed its request after `subscribe` had
returned, it finds the subscription in the map, and closes it (`closing`). -/
structure Routed (history : List QuicEvent) (unsubChans subscriptions : HashMap SubscriptionID Nat)
    (calls : List UnsubCall) (held : Nat → Option Held) : Prop where
  unique : ∀ first second self other, held first = some self → held second = some other →
    self.task ≠ .ended → other.task ≠ .ended → self.sub.id = other.sub.id → first = second
  senders : ∀ stream self, held stream = some self → self.task ≠ .ended → self.unsubRx = none →
    unsubChans.lookup self.sub.id = some stream
  unused : ∀ subId stream, unsubChans.lookup subId = some stream →
    idAt held stream = some subId ∧
      ∀ returned request, (stream, .handed returned request) ∉ history
  entered : ∀ stream self, held stream = some self → self.Live →
    subscriptions.lookup self.sub.id = some stream
  entries : ∀ subId stream, subscriptions.lookup subId = some stream →
    idAt held stream = some subId
  pending : ∀ call ∈ calls, call.returned = false → ∀ stream self, held stream = some self →
    self.sub.id = call.subId → self.task = .ended ∨ self.unsubRx.isSome = true
  taken : ∀ call ∈ calls, ∀ stream, call.ch = some stream →
    idAt held stream = some call.subId ∧ unsubChans.lookup call.subId ≠ some stream
  closing : ∀ call ∈ calls, ∀ stream self, call.ch = some stream → held stream = some self →
    (∃ request, (stream, .handed true request) ∈ history) →
    self.sub.isOpen = false ∨
      call.returned = false ∧ subscriptions.lookup call.subId = some stream ∧
        ∀ other entering, held other = some entering → entering.sub.id = call.subId →
          entering.task ≠ .spawning

section Update

variable {held : Nat → Option Held} {stream other : Nat} {self after entry : Held}

theorem idAt_eq_some {subId : SubscriptionID} :
    idAt held stream = some subId ↔ ∃ self, held stream = some self ∧ self.sub.id = subId :=
  Option.map_eq_some_iff

theorem update_eq_some :
    Function.update held stream (some after) other = some entry ↔
      other = stream ∧ after = entry ∨ other ≠ stream ∧ held other = some entry := by
  rw [Function.update_apply]
  split
  · rename_i same
    exact ⟨fun found => Or.inl ⟨same, Option.some.inj found⟩, fun either =>
      either.elim (fun own => congrArg some own.2) fun others => absurd same others.1⟩
  · rename_i different
    exact ⟨fun found => Or.inr ⟨different, found⟩, fun either =>
      either.elim (fun own => absurd own.1 different) And.right⟩

theorem idAt_update (found : held stream = some self) (same : after.sub.id = self.sub.id) :
    idAt (Function.update held stream (some after)) other = idAt held other := by
  rw [idAt, idAt, Function.update_apply]
  split
  · rename_i own
    rw [own, found, Option.map_some, Option.map_some, same]
  · rfl

end Update

namespace Routed

variable {history later : List QuicEvent} {unsubChans subscriptions : HashMap SubscriptionID Nat}
  {calls : List UnsubCall} {held next : Nat → Option Held} {stream : Nat} {self after : Held}
  {subId : SubscriptionID}

theorem start : Routed [] ∅ ∅ [] fun _ => none where
  unique _ _ _ _ found := by cases found
  senders _ _ found := by cases found
  unused _ _ found := by cases found
  entered _ _ found := by cases found
  entries _ _ found := by cases found
  pending _ member := absurd member List.not_mem_nil
  taken _ member := absurd member List.not_mem_nil
  closing _ member := absurd member List.not_mem_nil

section

variable (routed : Routed history unsubChans subscriptions calls held)

include routed

theorem evolves (ids : ∀ stream, idAt next stream = idAt held stream)
    (evolved : ∀ stream after, next stream = some after →
      ∃ before, held stream = some before ∧ before.Evolves subscriptions stream after) :
    Routed history unsubChans subscriptions calls next := by
  constructor
  case unique =>
    intro first second self other found its reading others same
    obtain ⟨before, was, evolves⟩ := evolved first self found
    obtain ⟨earlier, itsWas, itsEvolves⟩ := evolved second other its
    refine routed.unique first second before earlier was itsWas (evolves.reading reading).1
      (itsEvolves.reading others).1 ?_
    rw [← evolves.id, same, itsEvolves.id]
  case senders =>
    intro stream self found reading empty
    obtain ⟨before, was, evolves⟩ := evolved stream self found
    obtain ⟨still, unsubRx⟩ := evolves.reading reading
    rw [evolves.id]
    exact routed.senders stream before was still (unsubRx empty)
  case unused =>
    intro subId stream found
    rw [ids]
    exact routed.unused subId stream found
  case entered =>
    intro stream self found live
    obtain ⟨before, was, evolves⟩ := evolved stream self found
    rw [evolves.id]
    exact (evolves.live live).elim (routed.entered stream before was) id
  case entries =>
    intro subId stream found
    rw [ids]
    exact routed.entries subId stream found
  case pending =>
    intro call member waits stream self found same
    obtain ⟨before, was, evolves⟩ := evolved stream self found
    refine or_iff_not_imp_left.mpr fun reading => ?_
    obtain ⟨still, unsubRx⟩ := evolves.reading reading
    have pending := routed.pending call member waits stream before was (evolves.id ▸ same)
    have handed := Option.isSome_iff_ne_none.mp (pending.resolve_left still)
    exact Option.isSome_iff_ne_none.mpr (mt unsubRx handed)
  case taken =>
    intro call member stream ch
    rw [ids]
    exact routed.taken call member stream ch
  case closing =>
    intro call member stream self ch found handed
    obtain ⟨before, was, evolves⟩ := evolved stream self found
    refine (routed.closing call member stream before ch was handed).imp evolves.isOpen ?_
    rintro ⟨waits, entry, entering⟩
    refine ⟨waits, entry, fun other self found same spawning => ?_⟩
    obtain ⟨origin, its, itsEvolves⟩ := evolved other self found
    exact entering other origin its (itsEvolves.id ▸ same) (itsEvolves.spawning spawning)

theorem updates (found : held stream = some self)
    (evolves : self.Evolves subscriptions stream after) :
    Routed history unsubChans subscriptions calls
      (Function.update held stream (some after)) := by
  refine routed.evolves (fun other => idAt_update found evolves.id) fun other entry updated => ?_
  rcases update_eq_some.mp updated with ⟨rfl, rfl⟩ | ⟨_, its⟩
  · exact ⟨self, found, evolves⟩
  · exact ⟨entry, its, (Held.Ages.refl entry).evolves⟩

/-- Nothing is handed to a stream whose sender is in the map or was taken by a call. -/
theorem continues
    (kept : ∀ stream, (∃ subId, unsubChans.lookup subId = some stream) ∨
        (∃ call ∈ calls, call.ch = some stream) →
      ∀ returned request, (stream, .handed returned request) ∈ later →
        (stream, .handed returned request) ∈ history) :
    Routed later unsubChans subscriptions calls held := by
  refine { routed with unused := ?_, closing := ?_ }
  · intro name stream found
    exact (routed.unused name stream found).imp_right fun unused returned request member =>
      unused returned request (kept stream (.inl ⟨name, found⟩) returned request member)
  · intro call member stream self ch found handed
    exact routed.closing call member stream self ch found
      (handed.imp (kept stream (.inr ⟨call, member, ch⟩) true))

theorem ages (unhanded : ∀ stream returned request,
      (stream, .handed returned request) ∈ later ↔ (stream, .handed returned request) ∈ history)
    (aged : ∀ stream, Option.Rel Held.Ages (held stream) (next stream)) :
    Routed later unsubChans subscriptions calls next := by
  have ids (stream : Nat) : idAt next stream = idAt held stream := by
    have related := aged stream
    unfold idAt
    generalize held stream = origin at related
    generalize next stream = image at related
    cases related with
    | some ages => exact congrArg some ages.id
    | none => rfl
  refine (routed.evolves ids fun stream after found => ?_).continues
    fun stream _ returned request => (unhanded stream returned request).mp
  have related := aged stream
  rw [found] at related
  generalize held stream = origin at related
  cases related with
  | some ages => exact ⟨_, rfl, ages.evolves⟩

/-- A subscription is answered with an identifier that no subscription with a task and no call
under way has. -/
theorem receives (absent : held stream = none)
    (unhanded : ∀ returned request, (stream, .handed returned request) ∉ history)
    (fresh : ∀ other self, held other = some self → self.task ≠ .ended → self.sub.id ≠ subId)
    (free : ∀ call ∈ calls, call.returned = false → call.subId ≠ subId) :
    Routed history (unsubChans.insert subId stream) subscriptions calls
      (Function.update held stream (some (.ofAnswer subId))) := by
  have kept {other : Nat} {name : SubscriptionID} (found : idAt held other = some name) :
      other ≠ stream ∧
        idAt (Function.update held stream (some (.ofAnswer subId))) other = some name := by
    have different : other ≠ stream := by
      rintro rfl
      rw [idAt, absent] at found
      cases found
    rw [idAt, Function.update_of_ne different]
    exact ⟨different, found⟩
  constructor
  case unique =>
    intro first second self other found its reading others same
    rcases update_eq_some.mp found with ⟨rfl, rfl⟩ | ⟨_, was⟩ <;>
      rcases update_eq_some.mp its with ⟨rfl, rfl⟩ | ⟨_, itsWas⟩
    · rfl
    · exact absurd same.symm (fresh second other itsWas others)
    · exact absurd same (fresh first self was reading)
    · exact routed.unique first second self other was itsWas reading others same
  case senders =>
    intro other self found reading empty
    rcases update_eq_some.mp found with ⟨rfl, rfl⟩ | ⟨_, found⟩
    · exact AList.lookup_insert _
    · rw [AList.lookup_insert_ne (fresh other self found reading)]
      exact routed.senders other self found reading empty
  case unused =>
    intro name other found
    rcases HashMap.lookup_insert_eq_some.mp found with ⟨same, rfl⟩ | ⟨_, before⟩
    · exact ⟨idAt_eq_some.mpr ⟨_, Function.update_self .., same.symm⟩, unhanded⟩
    · exact (routed.unused name other before).imp_left fun its => (kept its).2
  case entered =>
    intro other self found live
    rcases update_eq_some.mp found with ⟨rfl, rfl⟩ | ⟨_, found⟩
    · cases live.running
    · exact routed.entered other self found live
  case entries =>
    intro name other found
    exact (kept (routed.entries name other found)).2
  case pending =>
    intro call member waits other self found same
    rcases update_eq_some.mp found with ⟨rfl, rfl⟩ | ⟨_, found⟩
    · exact absurd same.symm (free call member waits)
    · exact routed.pending call member waits other self found same
  case taken =>
    intro call member other ch
    obtain ⟨its, gone⟩ := routed.taken call member other ch
    obtain ⟨different, its⟩ := kept its
    refine ⟨its, ?_⟩
    by_cases same : call.subId = subId
    · rw [same, AList.lookup_insert, ne_eq, Option.some.injEq]
      exact different.symm
    · rw [AList.lookup_insert_ne same]
      exact gone
  case closing =>
    intro call member other self ch found handed
    rcases update_eq_some.mp found with ⟨rfl, rfl⟩ | ⟨_, its⟩
    · exact absurd handed.choose_spec (unhanded true _)
    · refine (routed.closing call member other self ch its handed).imp_right ?_
      rintro ⟨waits, entry, entering⟩
      refine ⟨waits, entry, fun another self found same => ?_⟩
      rcases update_eq_some.mp found with ⟨rfl, rfl⟩ | ⟨_, found⟩
      · exact absurd same.symm (free call member waits)
      · exact entering another self found same

section

variable (found : held stream = some self) (spawning : self.task = .spawning)

include found spawning

theorem inserts :
    Routed history unsubChans (subscriptions.insert self.sub.id stream) calls held := by
  have reading : self.task ≠ .ended := by
    rw [spawning]
    rintro ⟨⟩
  refine { routed with entered := ?_, entries := ?_, closing := ?_ }
  · intro other entry its live
    by_cases same : entry.sub.id = self.sub.id
    · rw [same, AList.lookup_insert,
        routed.unique other stream entry self its found live.reading reading same]
    · rw [AList.lookup_insert_ne same]
      exact routed.entered other entry its live
  · intro name other entry
    rcases HashMap.lookup_insert_eq_some.mp entry with ⟨same, rfl⟩ | ⟨_, before⟩
    · exact idAt_eq_some.mpr ⟨self, found, same.symm⟩
    · exact routed.entries name other before
  · intro call member other entry ch its handed
    refine (routed.closing call member other entry ch its handed).imp_right ?_
    rintro ⟨waits, registered, entering⟩
    refine ⟨waits, ?_, entering⟩
    -- No subscription with the identifier of the call is entering.
    rw [AList.lookup_insert_ne, registered]
    exact fun same => entering stream self found same.symm spawning

theorem enters :
    Routed history unsubChans (subscriptions.insert self.sub.id stream) calls
      (Function.update held stream (some { self with task := .running })) := by
  refine (routed.inserts found spawning).updates found ⟨rfl, id, fun _ => ⟨?_, id⟩, ?_, fun _ => ?_⟩
  · rw [spawning]
    rintro ⟨⟩
  · rintro ⟨⟩
  · exact Or.inr (AList.lookup_insert _)

end

/-- A call is made when no sender has its identifier any more. -/
theorem calls_concat {ch : Option Nat} (absent : unsubChans.lookup subId = none)
    (named : ∀ stream, ch = some stream → idAt held stream = some subId)
    (closing : ∀ stream, ch = some stream →
      (∃ request, (stream, .handed true request) ∈ history) →
      subscriptions.lookup subId = some stream ∧
        ∀ other entering, held other = some entering → entering.sub.id = subId →
          entering.task ≠ .spawning) :
    Routed history unsubChans subscriptions (calls ++ [{ subId, ch, returned := false }]) held where
  unique := routed.unique
  senders := routed.senders
  unused := routed.unused
  entered := routed.entered
  entries := routed.entries
  pending call member waits := by
    rcases mem_concat.mp member with earlier | ⟨⟨⟩⟩
    · exact routed.pending call earlier waits
    · intro stream self found same
      by_cases ended : self.task = .ended
      · exact Or.inl ended
      · refine Or.inr (Option.isSome_iff_ne_none.mpr fun empty => ?_)
        have registered := routed.senders stream self found ended empty
        rw [same, absent] at registered
        cases registered
  taken call member := by
    rcases mem_concat.mp member with earlier | ⟨⟨⟩⟩
    · exact routed.taken call earlier
    · intro stream ch
      rw [absent]
      exact ⟨named stream ch, nofun⟩
  closing call member stream self ch found handed := by
    rcases mem_concat.mp member with earlier | ⟨⟨⟩⟩
    · exact routed.closing call earlier stream self ch found handed
    · exact Or.inr ⟨rfl, closing stream ch handed⟩

section

variable (sender : unsubChans.lookup subId = some stream) (found : held stream = some self)

include sender found

/-- A sender is dropped whose task has ended or has got a request. -/
theorem forgets (used : self.unsubRx = none → self.task = .ended) :
    Routed history (unsubChans.erase subId) subscriptions calls held := by
  refine { routed with senders := ?_, unused := ?_, taken := ?_ }
  · intro place entry its reading empty
    have registered := routed.senders place entry its reading empty
    rw [AList.lookup_erase_ne, registered]
    intro same
    rw [same, sender] at registered
    cases registered
    cases found.symm.trans its
    exact reading (used empty)
  · intro name place registered
    exact routed.unused name place (HashMap.lookup_erase_eq_some.mp registered).2
  · intro call member place ch
    exact (routed.taken call member place ch).imp_right fun gone registered =>
      gone (HashMap.lookup_erase_eq_some.mp registered).2

theorem hands {request : Value} :
    Routed (history ++ [(stream, .handed (self.task = .running) request)])
      (unsubChans.erase subId) subscriptions calls
      (Function.update held stream (some { self with unsubRx := some request })) := by
  have handed : self.Evolves subscriptions stream { self with unsubRx := some request } :=
    ⟨rfl, id, fun reading => ⟨reading, nofun⟩, id, fun live => by cases live.unsubRx⟩
  have own := (routed.unused subId stream sender).1
  refine ((routed.updates found handed).forgets sender (Function.update_self ..) nofun).continues
    fun other used returned sent member => ?_
  rcases mem_concat.mp member with earlier | ⟨⟨⟩⟩
  · exact earlier
  · rcases used with ⟨name, registered⟩ | ⟨call, called, ch⟩
    · obtain ⟨different, registered⟩ := HashMap.lookup_erase_eq_some.mp registered
      have named := (routed.unused name stream registered).1
      exact absurd (Option.some.inj (named.symm.trans own)) different
    · -- An earlier call with this stream would have taken its sender.
      obtain ⟨named, gone⟩ := routed.taken call called stream ch
      cases named.symm.trans own
      exact absurd sender gone

end

variable {call : UnsubCall}

theorem returns {position : Nat} (found : calls[position]? = some call)
    (absent : subscriptions.lookup call.subId = none) :
    Routed history unsubChans subscriptions (calls.set position { call with returned := true })
      held := by
  have member := List.mem_of_getElem? found
  refine { routed with pending := ?_, taken := ?_, closing := ?_ }
  · intro other its waits
    rcases List.mem_or_eq_of_mem_set its with earlier | rfl
    · exact routed.pending other earlier waits
    · cases waits
  · intro other its
    rcases List.mem_or_eq_of_mem_set its with earlier | rfl
    · exact routed.taken other earlier
    · exact routed.taken call member
  · intro other its place entry ch there handed
    rcases List.mem_or_eq_of_mem_set its with earlier | rfl
    · exact routed.closing other earlier place entry ch there handed
    · refine (routed.closing call member place entry ch there handed).imp_right ?_
      rintro ⟨_, registered, _⟩
      cases absent.symm.trans registered

/-- A call removes the closed subscription that it is about, which is no live one. -/
theorem erases (member : call ∈ calls) (waits : call.returned = false)
    (entry : subscriptions.lookup call.subId = some stream) (found : held stream = some self)
    (closed : self.sub.isOpen = false) :
    Routed history unsubChans (subscriptions.erase call.subId) calls held := by
  refine { routed with entered := ?_, entries := ?_, closing := ?_ }
  · intro other later its live
    rw [AList.lookup_erase_ne]
    · exact routed.entered other later its live
    · intro same
      rcases routed.pending call member waits other later its same with ended | handed
      · exact live.reading ended
      · rw [live.unsubRx] at handed
        cases handed
  · intro name other registered
    exact routed.entries name other (HashMap.lookup_erase_eq_some.mp registered).2
  · intro another there other later ch its handed
    by_cases own : other = stream
    · subst own
      cases found.symm.trans its
      exact Or.inl closed
    · refine (routed.closing another there other later ch its handed).imp_right ?_
      rintro ⟨unreturned, registered, entering⟩
      refine ⟨unreturned, ?_, entering⟩
      rw [AList.lookup_erase_ne, registered]
      intro same
      rw [same, entry] at registered
      exact own (Option.some.inj registered).symm

theorem closes {position : Nat} (found : calls[position]? = some call)
    (waits : call.returned = false) (entry : subscriptions.lookup call.subId = some stream)
    (its : held stream = some self) :
    Routed history unsubChans (subscriptions.erase call.subId)
      (calls.set position { call with returned := true })
      (Function.update held stream (some { self with sub := self.sub.close })) := by
  have shut : self.Evolves subscriptions stream { self with sub := self.sub.close } :=
    ⟨rfl, fun _ => rfl, fun reading => ⟨reading, id⟩, id, fun live =>
      Or.inl ⟨live.running, live.unsubRx⟩⟩
  exact ((routed.updates its shut).erases (List.mem_of_getElem? found) waits entry
    (Function.update_self ..) rfl).returns found (AList.lookup_erase ..)

end

end Routed

end Karyon.Jsonrpc
