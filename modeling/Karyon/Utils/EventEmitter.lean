/-
This file models the event emitter of `utils/eventemitter/src/eventemitter.rs`.

Listeners are registered for a topic and an event type and have a bounded channel each.
An emission takes the list of the listeners at its start and sends the event to each of
them; a send to a full channel waits, one to a channel without a receiver fails. The
listeners whose sends failed are removed when the emission ends. A listener is known by
the number of its channel; the random id that it is stored under is an argument.
-/

import Karyon.Lib.HashMap

namespace Karyon.Utils

/-- Default buffer size for an event listener channel. -/
def DEFAULT_CHANNEL_BUFFER_SIZE : Nat := 1000

abbrev EventListenerID := UInt64

inductive EmitterError where
  | eventEmitter (text : String)

/-- The channel of a listener, with its receiver or without. -/
structure Channel (Event : Type) where
  queue : List Event
  isOpen : Bool

structure EventEmitter (Topic Event : Type) where
  listeners : HashMap Topic (HashMap String (HashMap EventListenerID Nat))
  channels : List (Channel Event)
  listenerBufferSize : Nat

/-- What became of an attempt to send. -/
inductive Attempt (Event : Type) where
  | sent (channels : List (Channel Event))
  | full
  | closed

/-- Send an event over a channel if it has a receiver and room. -/
def trySend {Event : Type} (capacity : Nat) (channels : List (Channel Event)) (channel : Nat)
    (event : Event) : Attempt Event :=
  match channels[channel]? with
  | some ⟨queue, true⟩ =>
    if queue.length < capacity then .sent (channels.set channel ⟨queue ++ [event], true⟩)
    else .full
  | _ => .closed

/-- Try all the sends of an emission once: the channels afterwards, the sends that still wait and
the listeners whose sends failed. -/
def trySends {Event : Type} (capacity : Nat) (event : Event) :
    List (Channel Event) → List (EventListenerID × Nat) →
      List (Channel Event) × List (EventListenerID × Nat) × List EventListenerID
  | channels, [] => (channels, [], [])
  | channels, (id, channel) :: rest =>
    match trySend capacity channels channel event with
    | .sent channels => trySends capacity event channels rest
    | .full =>
      let tried := trySends capacity event channels rest
      (tried.1, (id, channel) :: tried.2.1, tried.2.2)
    | .closed =>
      let tried := trySends capacity event channels rest
      (tried.1, tried.2.1, id :: tried.2.2)

namespace EventEmitter

variable {Topic Event : Type} [DecidableEq Topic]

def new : EventEmitter Topic Event where
  listeners := ∅
  channels := []
  listenerBufferSize := DEFAULT_CHANNEL_BUFFER_SIZE

variable (emitter : EventEmitter Topic Event) (topic : Topic)

/-- The listeners for a topic and an event type. -/
def registered (eventId : String) : HashMap EventListenerID Nat :=
  (((emitter.listeners.lookup topic).getD ∅).lookup eventId).getD ∅

/-- Registers a new event listener for the given topic, under an id that is not in use there. -/
def register (eventId : String) (id : EventListenerID) : Option (EventEmitter Topic Event × Nat) :=
  let eventIds := (emitter.listeners.lookup topic).getD ∅
  let listeners := (eventIds.lookup eventId).getD ∅
  if (listeners.lookup id).isSome then none
  else some (
    { emitter with
      listeners := emitter.listeners.insert topic
        (eventIds.insert eventId (listeners.insert id emitter.channels.length))
      channels := emitter.channels ++ [⟨[], true⟩] }, emitter.channels.length)

def send (debug : Topic → String) (emitter : EventEmitter Topic Event) (topic : Topic)
    (eventId : String) : Except EmitterError (List (EventListenerID × Nat)) :=
  match emitter.listeners.lookup topic with
  | none => .error (.eventEmitter ("Emit an event to a non-existent topic " ++ debug topic))
  | some eventIds =>
    match eventIds.lookup eventId with
    | none => .ok []
    | some listeners => .ok (listeners.entries.map fun binding => (binding.1, binding.2))

/-- Remove listeners of the given topic. -/
def remove (eventId : String) (listenerIds : List EventListenerID) : EventEmitter Topic Event :=
  { emitter with
    listeners := HashMap.modify emitter.listeners topic fun eventIds =>
      HashMap.modify eventIds eventId fun listeners => HashMap.eraseAll listeners listenerIds }

def recv (channel : Nat) : Option (Event × EventEmitter Topic Event) :=
  match emitter.channels[channel]? with
  | some ⟨event :: queue, true⟩ =>
    some (event, { emitter with channels := emitter.channels.set channel ⟨queue, true⟩ })
  | _ => none

/-- The receiver of a channel is dropped, with what waits in it. -/
def drop (channel : Nat) : EventEmitter Topic Event :=
  { emitter with channels := emitter.channels.set channel ⟨[], false⟩ }

end EventEmitter

/-! ### Trying the sends of an emission -/

section Sends

variable {Event : Type} {capacity : Nat} {event : Event} {channels : List (Channel Event)}
  {targets : List (EventListenerID × Nat)} {channel : Nat}

theorem trySend_other {later : List (Channel Event)} {other : Nat}
    (sent : trySend capacity channels channel event = .sent later) (different : other ≠ channel) :
    later[other]? = channels[other]? := by
  revert sent
  fun_cases trySend <;> rintro ⟨⟩
  exact List.getElem?_set_ne (Ne.symm different)

theorem trySends_other (absent : channel ∉ targets.map Prod.snd) :
    (trySends capacity event channels targets).1[channel]? = channels[channel]? := by
  induction targets generalizing channels with
  | nil => rfl
  | cons target rest inductionHypothesis =>
    obtain ⟨id, first⟩ := target
    rw [List.map_cons, List.mem_cons, not_or] at absent
    unfold trySends
    split
    · rename_i later sent
      exact (inductionHypothesis absent.2).trans (trySend_other sent absent.1)
    · exact inductionHypothesis absent.2
    · exact inductionHypothesis absent.2

theorem length_trySends :
    (trySends capacity event channels targets).1.length = channels.length := by
  induction targets generalizing channels with
  | nil => rfl
  | cons target rest inductionHypothesis =>
    unfold trySends
    split
    · rename_i later sent
      revert sent
      fun_cases trySend <;> rintro ⟨⟩
      rw [inductionHypothesis, List.length_set]
    · exact inductionHypothesis
    · exact inductionHypothesis

theorem trySends_waiting : (trySends capacity event channels targets).2.1.Sublist targets := by
  induction targets generalizing channels with
  | nil => exact .slnil
  | cons first rest inductionHypothesis =>
    unfold trySends
    split
    · exact inductionHypothesis.cons _
    · exact inductionHypothesis.cons_cons _
    · exact inductionHypothesis.cons _

theorem trySends_failed :
    (trySends capacity event channels targets).2.2.Sublist (targets.map Prod.fst) := by
  induction targets generalizing channels with
  | nil => exact .slnil
  | cons first rest inductionHypothesis =>
    unfold trySends
    split
    · exact inductionHypothesis.cons _
    · exact inductionHypothesis.cons _
    · exact inductionHypothesis.cons_cons _

/-- A channel with a receiver and room gets the event, and its listener neither waits nor
fails. -/
theorem trySends_own {id : EventListenerID} {queue : List Event}
    (target : (id, channel) ∈ targets) (channelsApart : (targets.map Prod.snd).Nodup)
    (idsApart : (targets.map Prod.fst).Nodup) (found : channels[channel]? = some ⟨queue, true⟩)
    (room : queue.length < capacity) :
    (trySends capacity event channels targets).1[channel]? = some ⟨queue ++ [event], true⟩ ∧
      channel ∉ (trySends capacity event channels targets).2.1.map Prod.snd ∧
      id ∉ (trySends capacity event channels targets).2.2 := by
  induction targets generalizing channels with
  | nil => cases target
  | cons first rest inductionHypothesis =>
    obtain ⟨head, firstChannel⟩ := first
    obtain ⟨channelsFresh, channelsApart⟩ := List.nodup_cons.mp channelsApart
    obtain ⟨idsFresh, idsApart⟩ := List.nodup_cons.mp idsApart
    rcases List.mem_cons.mp target with same | later
    · cases same
      have sent : trySend capacity channels channel event =
          .sent (channels.set channel ⟨queue ++ [event], true⟩) := by
        unfold trySend
        rw [found]
        exact if_pos room
      have inside := (List.getElem?_eq_some_iff.mp found).1
      simp only [trySends, sent]
      refine ⟨(trySends_other channelsFresh).trans (List.getElem?_set_self inside),
        fun waiting => ?_, fun failed => idsFresh (trySends_failed.subset failed)⟩
      obtain ⟨target, member, same⟩ := List.mem_map.mp waiting
      exact channelsFresh (List.mem_map.mpr ⟨target, trySends_waiting.subset member, same⟩)
    · have different : channel ≠ firstChannel := by
        rintro rfl
        exact channelsFresh (List.mem_map.mpr ⟨_, later, rfl⟩)
      have otherId : id ≠ head := by
        rintro rfl
        exact idsFresh (List.mem_map.mpr ⟨_, later, rfl⟩)
      unfold trySends
      split
      · rename_i after sent
        exact inductionHypothesis later channelsApart idsApart
          ((trySend_other sent different).trans found)
      · obtain ⟨own, waiting, failed⟩ := inductionHypothesis later channelsApart idsApart found
        refine ⟨own, ?_, failed⟩
        rw [List.map_cons, List.mem_cons, not_or]
        exact ⟨different, waiting⟩
      · obtain ⟨own, waiting, failed⟩ := inductionHypothesis later channelsApart idsApart found
        refine ⟨own, waiting, ?_⟩
        rw [List.mem_cons, not_or]
        exact ⟨otherId, failed⟩

end Sends

/-! ### Registering and removing -/

namespace EventEmitter

variable {Topic Event : Type} [DecidableEq Topic] {emitter : EventEmitter Topic Event}
  {topic : Topic} {eventId : String} {debug : Topic → String} {id : EventListenerID}
  {next : EventEmitter Topic Event}

section

variable {targets : List (EventListenerID × Nat)}
  (sent : emitter.send debug topic eventId = .ok targets)

include sent

theorem send_eq_ok :
    targets = (emitter.registered topic eventId).entries.map
      fun binding => (binding.1, binding.2) := by
  unfold send at sent
  unfold registered
  split at sent
  · cases sent
  · rename_i eventIds found
    rw [found, Option.getD_some]
    split at sent
    · rename_i absent
      cases sent
      rw [absent]
      rfl
    · rename_i listeners present
      cases sent
      rw [present]
      rfl

/-- The targets of an emission are the registered listeners with their channels, each once. -/
theorem send_targets :
    (∀ id channel, (id, channel) ∈ targets ↔
      (emitter.registered topic eventId).lookup id = some channel) ∧
      (targets.map Prod.fst).Nodup := by
  rw [send_eq_ok sent]
  constructor
  · intro id channel
    rw [← Option.mem_def, AList.mem_lookup_iff, List.mem_map]
    constructor
    · rintro ⟨⟨name, number⟩, member, same⟩
      cases same
      exact member
    · exact fun member => ⟨⟨id, channel⟩, member, rfl⟩
  · rw [List.map_map]
    exact (emitter.registered topic eventId).nodupKeys

end

theorem registered_of_send_error {error : EmitterError}
    (sent : emitter.send debug topic eventId = .error error) :
    emitter.registered topic eventId = ∅ := by
  unfold send at sent
  unfold registered
  split at sent
  · rename_i absent
    rw [absent]
    rfl
  · split at sent <;> cases sent

theorem lookup_registered_remove (ids : List EventListenerID) (id : EventListenerID) :
    ((emitter.remove topic eventId ids).registered topic eventId).lookup id =
      if id ∈ ids then none else (emitter.registered topic eventId).lookup id := by
  have none : (∅ : HashMap EventListenerID Nat).lookup id =
      if id ∈ ids then none else (∅ : HashMap EventListenerID Nat).lookup id := by
    split <;> rfl
  simp only [remove, registered, HashMap.lookup_modify, if_true]
  cases emitter.listeners.lookup topic with
  | none => exact none
  | some eventIds =>
    simp only [Option.map_some, Option.getD_some, HashMap.lookup_modify, if_true]
    cases eventIds.lookup eventId with
    | none => exact none
    | some listeners => exact HashMap.lookup_eraseAll listeners ids id

section

variable {channel : Nat} (done : emitter.register topic eventId id = some (next, channel))

include done

/-- A new listener is added to those of its topic and event type. -/
theorem register_spec :
    channel = emitter.channels.length ∧ next.channels = emitter.channels ++ [⟨[], true⟩] ∧
      next.listenerBufferSize = emitter.listenerBufferSize ∧
      (emitter.registered topic eventId).lookup id = none ∧
      next.registered topic eventId = (emitter.registered topic eventId).insert id channel := by
  obtain ⟨fresh, ⟨⟩⟩ := Option.ite_none_left_eq_some.mp done
  refine ⟨rfl, rfl, rfl, Option.not_isSome_iff_eq_none.mp fresh, ?_⟩
  simp only [registered, AList.lookup_insert, Option.getD_some]

theorem lookup_registered_register (other : Topic) (otherId : String) (key : EventListenerID) :
    (next.registered other otherId).lookup key =
      if other = topic ∧ otherId = eventId ∧ key = id then some channel
      else (emitter.registered other otherId).lookup key := by
  obtain ⟨_, ⟨⟩⟩ := Option.ite_none_left_eq_some.mp done
  by_cases sameTopic : other = topic
  · subst sameTopic
    by_cases sameId : otherId = eventId
    · subst sameId
      simp only [registered, AList.lookup_insert, Option.getD_some, true_and]
      split
      · rename_i same
        rw [same, AList.lookup_insert]
      · rename_i different
        exact AList.lookup_insert_ne different
    · rw [if_neg fun all => sameId all.2.1]
      simp only [registered, AList.lookup_insert, Option.getD_some, AList.lookup_insert_ne sameId]
  · rw [if_neg fun all => sameTopic all.1]
    simp only [registered, AList.lookup_insert_ne sameTopic]

end

/-- A listener that is still there after a removal was there before. -/
theorem lookup_registered_of_remove {ids : List EventListenerID} {other : Topic}
    {otherId : String} {key : EventListenerID} {channel : Nat}
    (found : ((emitter.remove topic eventId ids).registered other otherId).lookup key =
      some channel) : (emitter.registered other otherId).lookup key = some channel := by
  by_cases sameTopic : other = topic
  · subst sameTopic
    by_cases sameId : otherId = eventId
    · subst sameId
      rw [lookup_registered_remove] at found
      obtain ⟨_, found⟩ := Option.ite_none_left_eq_some.mp found
      exact found
    · simp only [remove, registered, HashMap.lookup_modify, if_true] at found
      unfold registered
      cases present : emitter.listeners.lookup other with
      | none =>
        rw [present] at found
        exact found
      | some eventIds =>
        rw [present] at found
        simp only [Option.map_some, Option.getD_some, HashMap.lookup_modify, if_neg sameId] at found
        exact found
  · simp only [remove, registered, HashMap.lookup_modify, if_neg sameTopic] at found
    exact found

/-- Every listener has a channel, and no two of a topic and an event type share one. -/
structure Wired (emitter : EventEmitter Topic Event) : Prop where
  bounded : ∀ topic eventId id channel,
    (emitter.registered topic eventId).lookup id = some channel → channel < emitter.channels.length
  distinct : ∀ topic eventId first second channel,
    (emitter.registered topic eventId).lookup first = some channel →
    (emitter.registered topic eventId).lookup second = some channel → first = second

variable (wired : emitter.Wired)

include wired

theorem Wired.register {channel : Nat}
    (done : emitter.register topic eventId id = some (next, channel)) : next.Wired := by
  obtain ⟨new, channels, _⟩ := register_spec done
  have later : next.channels.length = emitter.channels.length + 1 := by
    rw [channels, List.length_append]
    rfl
  constructor
  · intro other otherId key found itsFound
    rw [lookup_registered_register done] at itsFound
    rw [later]
    split at itsFound
    · cases itsFound
      omega
    · exact Nat.lt_succ_of_lt (wired.bounded other otherId key found itsFound)
  · intro other otherId first second found firstFound secondFound
    rw [lookup_registered_register done] at firstFound secondFound
    split at firstFound
    · rename_i own
      split at secondFound
      · rename_i same
        rw [own.2.2, same.2.2]
      · cases firstFound
        have before := wired.bounded other otherId second channel secondFound
        omega
    · split at secondFound
      · cases secondFound
        have before := wired.bounded other otherId first channel firstFound
        omega
      · exact wired.distinct other otherId first second found firstFound secondFound

theorem Wired.remove (topic : Topic) (eventId : String) (ids : List EventListenerID) :
    (emitter.remove topic eventId ids).Wired where
  bounded other otherId key channel found :=
    wired.bounded other otherId key channel (lookup_registered_of_remove found)
  distinct other otherId first second channel firstFound secondFound :=
    wired.distinct other otherId first second channel (lookup_registered_of_remove firstFound)
      (lookup_registered_of_remove secondFound)

/-- The listeners stay as they are when only the contents of channels change. -/
theorem Wired.withChannels {channels : List (Channel Event)}
    (same : channels.length = emitter.channels.length) :
    Wired { emitter with channels } where
  bounded other otherId key channel found := by
    show channel < channels.length
    rw [same]
    exact wired.bounded other otherId key channel found
  distinct := wired.distinct

end EventEmitter

end Karyon.Utils
