/-
This file models a message connection of the JSON-RPC server, `handle_message_conn` of
`server/mod.rs`, with its reader, its writer and its request tasks.

The reader takes a permit, reads a message and spawns a request task for it. The task handles the
request and pushes the response into the response queue; it drops it if the push has to wait and the
writer has stopped. The writer selects between the queue and the channel of the notifications, and
prefers the queue unless a task holds its lock. When the reader ends it closes the channel, and the
writer ends as soon as it finds the queue empty and the channel closed and empty. What a handler
returns is a parameter, indexed by the order in which the requests were read.

A request task that still handles its request when the reader ends pushes the response into a queue
that nobody empties any more (`serverConn_loses_response`). When the reader outlives the pushes of
its tasks, every request is answered exactly once, by what its handler returned
(`serverConn_answers`).
-/

import Karyon.Lib.Transition
import Karyon.Jsonrpc.Call

namespace Karyon.Jsonrpc

open Json Transition

def CHANNEL_SUBSCRIPTION_BUFFER_SIZE : Nat := 100

def MAX_CONCURRENT_REQUESTS : Nat := 64

def RESPONSE_QUEUE_SIZE : Nat := 256

/-! ### The connection and its steps -/

structure NewNotification where
  subId : SubscriptionID
  result : Value
  method : String

/-- Where a request task is: in the handler, before its push, past it, or at its end without a
push. -/
inductive TaskPhase where
  | handling
  | pushing
  | pushed
  | dropped
  deriving DecidableEq

/-- A task that holds a permit. -/
def TaskPhase.unfinished : TaskPhase → Bool
  | .handling | .pushing => true
  | .pushed | .dropped => false

structure RequestTask where
  msg : Value
  phase : TaskPhase

/-- Where the reader is: before it has a permit, before it has a message, before its callback, or
past it. -/
inductive ReaderPhase where
  | acquiring
  | reading
  | ended
  | closed
  deriving DecidableEq

/-- Where the writer is: in its select, before the end of a write, or at the end of its loop. Its
callback closes the channel and then sets the flag. -/
inductive WriterPhase where
  | selecting
  | sendingResponse (task : Nat) (msg : Value)
  | sendingNotification (nt : NewNotification)
  | ended
  | closed
  | done

def WriterPhase.isDone : WriterPhase → Bool
  | .done => true
  | _ => false

/-- The writer has left its loop. -/
def WriterPhase.stopped : WriterPhase → Bool
  | .ended | .closed | .done => true
  | _ => false

structure ServerConn where
  reader : ReaderPhase
  tasks : List RequestTask
  queue : List (Nat × Value)
  notifications : List NewNotification
  channelClosed : Bool
  writer : WriterPhase

inductive ConnAction where
  | acquire
  | recv (msg : Value)
  | readerEnds
  | readerSeesDone
  | readerCloses
  | handled (task : Nat)
  | push (task : Nat)
  | drop (task : Nat)
  | notify (nt : NewNotification)
  | takeResponse
  | takeNotification
  | wrote (succeeds : Bool)
  | writerEnds
  | writerCloses
  | writerDone

/-- The action is not a write that fails. -/
def ConnAction.writes : ConnAction → Bool
  | .wrote succeeds => succeeds
  | _ => true

/-- A step that the writer takes as long as it has something to send. -/
def ConnAction.sends : ConnAction → Bool
  | .takeResponse | .takeNotification | .wrote true => true
  | _ => false

/-- A step that a task of the connection takes by itself. -/
def ConnAction.internal : ConnAction → Bool
  | .recv _ | .readerEnds | .notify _ | .wrote false => false
  | _ => true

/-- A response or a notification that was written, or a notification that was accepted. -/
inductive ConnEvent where
  | response (task : Nat) (msg : Value)
  | notification (nt : NewNotification)
  | notified (nt : NewNotification)

namespace ServerConn

def new : ServerConn where
  reader := .acquiring
  tasks := []
  queue := []
  notifications := []
  channelClosed := false
  writer := .selecting

variable (handle : Nat → Value → Message.Response) (state : ServerConn)

/-- The queue has nothing for the writer: it is empty, or a task holds its lock. -/
def queuePending : Bool :=
  state.queue.isEmpty || state.tasks.any fun task => task.phase = .pushing

/-- A push has to wait: the queue is full, or another task holds its lock. -/
def pushPending : Bool :=
  RESPONSE_QUEUE_SIZE ≤ state.queue.length ||
    1 < state.tasks.countP fun task => task.phase = .pushing

def step : ConnAction → Option (ServerConn × List ConnEvent)
  | .acquire =>
    if state.reader = .acquiring ∧
        state.tasks.countP (fun task => task.phase.unfinished) < MAX_CONCURRENT_REQUESTS then
      some ({ state with reader := .reading }, [])
    else none
  | .recv msg =>
    if state.reader = .reading then
      some ({ state with reader := .acquiring, tasks := state.tasks ++ [⟨msg, .handling⟩] }, [])
    else none
  | .readerEnds =>
    if state.reader = .reading then some ({ state with reader := .ended }, []) else none
  | .readerSeesDone =>
    if state.reader = .reading ∧ state.writer.isDone then
      some ({ state with reader := .ended }, [])
    else none
  | .readerCloses =>
    if state.reader = .ended then
      some ({ state with reader := .closed, channelClosed := true }, [])
    else none
  | .handled task =>
    match state.tasks[task]? with
    | some ⟨msg, .handling⟩ =>
      some ({ state with tasks := state.tasks.set task ⟨msg, .pushing⟩ }, [])
    | _ => none
  | .push task =>
    match state.tasks[task]? with
    | some ⟨msg, .pushing⟩ =>
      if state.queue.length < RESPONSE_QUEUE_SIZE then
        some ({ state with
                tasks := state.tasks.set task ⟨msg, .pushed⟩
                queue := state.queue ++ [(task, (handle task msg).toValue)] }, [])
      else none
    | _ => none
  | .drop task =>
    match state.tasks[task]? with
    | some ⟨msg, .pushing⟩ =>
      if state.writer.isDone ∧ state.pushPending then
        some ({ state with tasks := state.tasks.set task ⟨msg, .dropped⟩ }, [])
      else none
    | _ => none
  | .notify nt =>
    if state.channelClosed = false ∧
        state.notifications.length < CHANNEL_SUBSCRIPTION_BUFFER_SIZE then
      some ({ state with notifications := state.notifications ++ [nt] }, [.notified nt])
    else none
  | .takeResponse =>
    match state.writer, state.queue with
    | .selecting, (task, msg) :: rest =>
      some ({ state with writer := .sendingResponse task msg, queue := rest }, [])
    | _, _ => none
  | .takeNotification =>
    match state.writer, state.notifications with
    | .selecting, nt :: rest =>
      if state.queuePending then
        some ({ state with writer := .sendingNotification nt, notifications := rest }, [])
      else none
    | _, _ => none
  | .wrote succeeds =>
    match state.writer with
    | .sendingResponse task msg =>
      if succeeds then some ({ state with writer := .selecting }, [.response task msg])
      else some ({ state with writer := .ended }, [])
    | .sendingNotification nt =>
      if succeeds then some ({ state with writer := .selecting }, [.notification nt])
      else some ({ state with writer := .ended }, [])
    | _ => none
  | .writerEnds =>
    match state.writer, state.notifications with
    | .selecting, [] =>
      if state.channelClosed ∧ state.queuePending then
        some ({ state with writer := .ended }, [])
      else none
    | _, _ => none
  | .writerCloses =>
    match state.writer with
    | .ended => some ({ state with writer := .closed, channelClosed := true }, [])
    | _ => none
  | .writerDone =>
    match state.writer with
    | .closed => some ({ state with writer := .done }, [])
    | _ => none

end ServerConn

namespace ServerConn

/-- The steps, each with the state that it needs. -/
inductive Effect (handle : Nat → Value → Message.Response) (state : ServerConn) :
    ConnAction → ServerConn → List ConnEvent → Prop
  | acquire (waits : state.reader = .acquiring) :
      Effect handle state .acquire { state with reader := .reading } []
  | recv {msg : Value} (reads : state.reader = .reading) :
      Effect handle state (.recv msg)
        { state with reader := .acquiring, tasks := state.tasks ++ [⟨msg, .handling⟩] } []
  | readerEnds (reads : state.reader = .reading) :
      Effect handle state .readerEnds { state with reader := .ended } []
  | readerSeesDone (reads : state.reader = .reading) (done : state.writer = .done) :
      Effect handle state .readerSeesDone { state with reader := .ended } []
  | readerCloses (ended : state.reader = .ended) :
      Effect handle state .readerCloses { state with reader := .closed, channelClosed := true } []
  | handled {task : Nat} {msg : Value} (found : state.tasks[task]? = some ⟨msg, .handling⟩) :
      Effect handle state (.handled task)
        { state with tasks := state.tasks.set task ⟨msg, .pushing⟩ } []
  | push {task : Nat} {msg : Value} (found : state.tasks[task]? = some ⟨msg, .pushing⟩) :
      Effect handle state (.push task)
        { state with
          tasks := state.tasks.set task ⟨msg, .pushed⟩
          queue := state.queue ++ [(task, (handle task msg).toValue)] } []
  | drop {task : Nat} {msg : Value} (found : state.tasks[task]? = some ⟨msg, .pushing⟩)
      (done : state.writer = .done) :
      Effect handle state (.drop task)
        { state with tasks := state.tasks.set task ⟨msg, .dropped⟩ } []
  | notify {nt : NewNotification} (isOpen : state.channelClosed = false) :
      Effect handle state (.notify nt)
        { state with notifications := state.notifications ++ [nt] } [.notified nt]
  | takeResponse {task : Nat} {msg : Value} {rest : List (Nat × Value)}
      (selects : state.writer = .selecting) (found : state.queue = (task, msg) :: rest) :
      Effect handle state .takeResponse
        { state with writer := .sendingResponse task msg, queue := rest } []
  | takeNotification {nt : NewNotification} {rest : List NewNotification}
      (selects : state.writer = .selecting) (found : state.notifications = nt :: rest) :
      Effect handle state .takeNotification
        { state with writer := .sendingNotification nt, notifications := rest } []
  | wroteResponse {task : Nat} {msg : Value} (sends : state.writer = .sendingResponse task msg) :
      Effect handle state (.wrote true) { state with writer := .selecting } [.response task msg]
  | wroteNotification {nt : NewNotification} (sends : state.writer = .sendingNotification nt) :
      Effect handle state (.wrote true) { state with writer := .selecting } [.notification nt]
  | writeFails : Effect handle state (.wrote false) { state with writer := .ended } []
  | writerEnds (selects : state.writer = .selecting) (closed : state.channelClosed = true)
      (pending : state.queuePending = true) :
      Effect handle state .writerEnds { state with writer := .ended } []
  | writerCloses (ended : state.writer = .ended) :
      Effect handle state .writerCloses { state with writer := .closed, channelClosed := true } []
  | writerDone (closed : state.writer = .closed) :
      Effect handle state .writerDone { state with writer := .done } []

theorem eq_done {phase : WriterPhase} (done : phase.isDone = true) : phase = .done := by
  cases phase with
  | done => rfl
  | _ => cases done

variable {handle : Nat → Value → Message.Response} {state next : ServerConn} {action : ConnAction}
  {history events : List ConnEvent}

theorem step_effect (stepped : state.step handle action = some (next, events)) :
    Effect handle state action next events := by
  revert stepped
  fun_cases step handle state action
  all_goals rintro ⟨⟩
  next waits => exact .acquire waits.1
  next reads => exact .recv reads
  next reads => exact .readerEnds reads
  next reads => exact .readerSeesDone reads.1 (eq_done reads.2)
  next ended => exact .readerCloses ended
  next found => exact .handled found
  next found _ => exact .push found
  next found done => exact .drop found (eq_done done.1)
  next isOpen => exact .notify isOpen.1
  next found selects => exact .takeResponse selects found
  next found selects _ => exact .takeNotification selects found
  next sends => exact .wroteResponse sends
  next failed => exact eq_false_of_ne_true failed ▸ .writeFails
  next sends => exact .wroteNotification sends
  next failed => exact eq_false_of_ne_true failed ▸ .writeFails
  next selects ends => exact .writerEnds selects ends.1 ends.2
  next ended => exact .writerCloses ended
  next closed => exact .writerDone closed

/-! ### The way of a response -/

end ServerConn

def responses (history : List ConnEvent) : List (Nat × Value) :=
  history.filterMap fun
    | .response task msg => some (task, msg)
    | _ => none

/-- The responses to one request. -/
def responsesTo (task : Nat) (answers : List (Nat × Value)) : List Value :=
  answers.filterMap fun answer => if answer.1 = task then some answer.2 else none

def WriterPhase.response : WriterPhase → List (Nat × Value)
  | .sendingResponse task msg => [(task, msg)]
  | _ => []

namespace ServerConn

variable (handle : Nat → Value → Message.Response) (state : ServerConn)

/-- The responses on their way, in the order in which they will be written. -/
def outbound : List (Nat × Value) :=
  state.writer.response ++ state.queue

/-- The response of a task that has pushed. -/
def expected (task : Nat) : List Value :=
  match state.tasks[task]? with
  | some ⟨msg, .pushed⟩ => [(handle task msg).toValue]
  | _ => []

/-- What an action pushes into the response queue. -/
def pushes : ConnAction → List (Nat × Value)
  | .push task =>
    match state.tasks[task]? with
    | some request => [(task, (handle task request.msg).toValue)]
    | none => []
  | _ => []

variable {handle : Nat → Value → Message.Response} {state next : ServerConn} {action : ConnAction}
  {history events : List ConnEvent}

/-- The responses that were written and those on their way only get more by a push, at the
end. -/
theorem Effect.outbound (effect : Effect handle state action next events)
    (writes : action ≠ .wrote false) :
    responses events ++ next.outbound = state.outbound ++ state.pushes handle action := by
  cases effect with
  | push found =>
    simp only [ServerConn.outbound, pushes, found, responses, List.filterMap_nil, List.nil_append,
      List.append_assoc]
  | takeResponse selects found =>
    simp only [ServerConn.outbound, pushes, selects, found, responses, WriterPhase.response,
      List.filterMap_nil, List.nil_append, List.append_nil, List.cons_append]
  | takeNotification selects | writerEnds selects | writerCloses selects | writerDone selects =>
    simp only [ServerConn.outbound, pushes, selects, responses, WriterPhase.response,
      List.filterMap_nil, List.nil_append, List.append_nil]
  | wroteResponse sends | wroteNotification sends =>
    simp only [ServerConn.outbound, pushes, sends, responses, WriterPhase.response,
      List.filterMap_cons, List.filterMap_nil, List.nil_append, List.append_nil, List.cons_append]
  | writeFails => exact absurd rfl writes
  | _ => exact (List.append_nil _).symm

variable {task : Nat}

theorem expected_set {before request : RequestTask} (found : state.tasks[task]? = some before)
    (other : Nat) : expected handle { state with tasks := state.tasks.set task request } other =
      if other = task then
        if request.phase = .pushed then [(handle task request.msg).toValue] else []
      else state.expected handle other := by
  obtain ⟨msg, phase⟩ := request
  have bound := (List.getElem?_eq_some_iff.mp found).1
  by_cases same : other = task
  · rw [if_pos same, expected, same, List.getElem?_set_self bound]
    cases phase <;> rfl
  · rw [if_neg same, expected, List.getElem?_set_ne (Ne.symm same)]
    rfl

variable {request : RequestTask}

section

variable (found : state.tasks[task]? = some request)

include found

theorem expected_eq_nil (early : request.phase ≠ .pushed) : state.expected handle task = [] := by
  obtain ⟨msg, phase⟩ := request
  rw [expected, found]
  cases phase with
  | pushed => exact absurd rfl early
  | _ => rfl

theorem expected_pushed (pushed : request.phase = .pushed) :
    state.expected handle task = [(handle task request.msg).toValue] := by
  obtain ⟨msg, phase⟩ := request
  cases pushed
  rw [expected, found]

theorem expected_within : state.expected handle task <+: [(handle task request.msg).toValue] := by
  by_cases pushed : request.phase = .pushed
  · rw [expected_pushed found pushed]
  · rw [expected_eq_nil found pushed]
    exact ⟨_, List.nil_append _⟩

end

/-- A step makes exactly the response expected that it pushes. -/
theorem Effect.expected (effect : Effect handle state action next events) (task : Nat) :
    next.expected handle task =
      state.expected handle task ++ responsesTo task (state.pushes handle action) := by
  cases effect with
  | recv reads =>
    refine Eq.trans ?_ (List.append_nil _).symm
    simp only [ServerConn.expected]
    rcases Nat.lt_trichotomy task state.tasks.length with less | same | more
    · rw [List.getElem?_append_left less]
    · rw [same, List.getElem?_concat_length, List.getElem?_eq_none (Nat.le_refl _)]
    · rw [List.getElem?_eq_none (by rw [List.length_append]; exact more),
        List.getElem?_eq_none (Nat.le_of_lt more)]
  | @handled other msg found | @drop other msg found _ =>
    refine Eq.trans ?_ (List.append_nil _).symm
    rw [expected_set found]
    split
    · rename_i same
      rw [same, expected_eq_nil found nofun]
      rfl
    · rfl
  | @push other msg found =>
    show ServerConn.expected handle
      { state with tasks := state.tasks.set other ⟨msg, .pushed⟩ } task = _
    rw [expected_set found, pushes, found]
    by_cases same : task = other
    · rw [if_pos same, same, expected_eq_nil found nofun]
      exact (if_pos rfl).trans (by simp [responsesTo])
    · rw [if_neg same]
      simp [responsesTo, Ne.symm same]
  | _ => exact (List.append_nil _).symm

/-- The responses of a request that were written or are on their way are the expected ones. -/
def Tracked (handle : Nat → Value → Message.Response) (history : List ConnEvent)
    (state : ServerConn) : Prop :=
  ∀ task, responsesTo task (responses history ++ state.outbound) = state.expected handle task

theorem Effect.tracked (effect : Effect handle state action next events)
    (writes : action ≠ .wrote false) (tracked : Tracked handle history state) :
    Tracked handle (history ++ events) next := by
  intro task
  rw [responses, List.filterMap_append, List.append_assoc]
  show responsesTo task (responses history ++ (responses events ++ next.outbound)) = _
  rw [effect.outbound writes, effect.expected task, ← tracked task, ← List.append_assoc]
  exact List.filterMap_append

/-! ### A reader that outlives its tasks -/

/-- The reader ends only when all its tasks are past their push, and every write succeeds. -/
def readerOutlives (state : ServerConn) : ConnAction → Bool
  | .readerEnds => state.tasks.all fun task => !task.phase.unfinished
  | action => action.writes

/-- No response was dropped. When the reader has ended, all were pushed; only then is the channel
closed, and when the writer has stopped, the queue is empty. -/
structure Sound (state : ServerConn) : Prop where
  kept : ∀ task ∈ state.tasks, task.phase ≠ .dropped
  finished : state.reader = .ended ∨ state.reader = .closed →
    ∀ task ∈ state.tasks, task.phase = .pushed
  closed : state.channelClosed = true → state.reader = .closed
  drained : state.writer.stopped = true → state.channelClosed = true ∧ state.queue = []

theorem Sound.new : Sound .new where
  kept _ member := absurd member List.not_mem_nil
  finished ended := by
    rcases ended with ended | ended <;> cases ended
  closed closed := nomatch closed
  drained stopped := nomatch stopped

section

variable (sound : Sound state)

include sound

/-- While the reader has not closed the channel, nobody has, and the writer has not stopped. -/
theorem Sound.not_closed (runs : state.reader ≠ .closed) :
    state.channelClosed = false ∧ state.writer.stopped = false :=
  ⟨Bool.eq_false_iff.mpr fun closed => runs (sound.closed closed),
    Bool.eq_false_iff.mpr fun stopped => runs (sound.closed (sound.drained stopped).1)⟩

variable {queue : List (Nat × Value)}

/-- Before the channel is closed, only the tasks matter. -/
theorem Sound.before_close (runs : state.reader ≠ .closed) {reader : ReaderPhase}
    {tasks : List RequestTask} (kept : ∀ task ∈ tasks, task.phase ≠ .dropped)
    (finished : reader = .ended ∨ reader = .closed → ∀ task ∈ tasks, task.phase = .pushed) :
    Sound { state with reader, tasks, queue } := by
  obtain ⟨isOpen, selects⟩ := sound.not_closed runs
  refine ⟨kept, finished, fun closed => ?_, fun stopped => ?_⟩
  · exact absurd closed (Bool.eq_false_iff.mp isOpen)
  · exact absurd stopped (Bool.eq_false_iff.mp selects)

variable {task : Nat} (found : state.tasks[task]? = some request)

include found

/-- While a task has something to do, the reader has not ended. -/
theorem Sound.unfinished (early : request.phase ≠ .pushed) :
    ¬ (state.reader = .ended ∨ state.reader = .closed) :=
  fun ended => early (sound.finished ended request (List.mem_of_getElem? found))

theorem Sound.not_stopped (early : request.phase ≠ .pushed) : state.writer.stopped = false :=
  (sound.not_closed fun closed => sound.unfinished found early (Or.inr closed)).2

theorem Sound.set {phase : TaskPhase} {msg : Value} (early : request.phase ≠ .pushed)
    (keeps : phase ≠ .dropped) :
    Sound { state with tasks := state.tasks.set task ⟨msg, phase⟩, queue } := by
  have reads := sound.unfinished found early
  refine sound.before_close (fun closed => reads (Or.inr closed)) (fun other member => ?_)
    fun ended => absurd ended reads
  rcases List.mem_or_eq_of_mem_set member with before | rfl
  · exact sound.kept other before
  · exact keeps

end

theorem Effect.sound (effect : Effect handle state action next events)
    (outlives : state.readerOutlives action = true) (sound : Sound state) : Sound next := by
  cases effect with
  | acquire waits => exact sound.before_close (by rw [waits]; exact nofun) sound.kept nofun
  | @recv msg reads =>
    refine sound.before_close (by rw [reads]; exact nofun) (fun task member => ?_) nofun
    rcases mem_concat.mp member with before | rfl
    · exact sound.kept task before
    · exact nofun
  | readerEnds reads =>
    refine sound.before_close (by rw [reads]; exact nofun) sound.kept fun _ task member => ?_
    have finished := List.all_eq_true.mp outlives task member
    have kept := sound.kept task member
    cases phase : task.phase with
    | pushed => rfl
    | dropped => exact absurd phase kept
    | handling | pushing =>
      rw [phase] at finished
      cases finished
  | readerSeesDone reads done =>
    obtain ⟨_, runs⟩ := sound.not_closed (by rw [reads]; exact nofun)
    rw [done] at runs
    cases runs
  | readerCloses ended =>
    exact ⟨sound.kept, fun _ => sound.finished (Or.inl ended), fun _ => rfl,
      fun stopped => ⟨rfl, (sound.drained stopped).2⟩⟩
  | handled found | push found => exact sound.set found nofun nofun
  | drop found done =>
    have runs := sound.not_stopped found nofun
    rw [done] at runs
    cases runs
  | notify _ => exact ⟨sound.kept, sound.finished, sound.closed, sound.drained⟩
  | takeResponse | takeNotification | wroteResponse | wroteNotification =>
    exact ⟨sound.kept, sound.finished, sound.closed, nofun⟩
  | writeFails => cases outlives
  | writerEnds selects closed pending =>
    refine ⟨sound.kept, sound.finished, sound.closed, fun _ => ⟨closed, ?_⟩⟩
    rcases Bool.or_eq_true_iff.mp pending with empty | locked
    · exact List.isEmpty_iff.mp empty
    · obtain ⟨task, member, pushing⟩ := List.any_eq_true.mp locked
      have pushed := sound.finished (Or.inr (sound.closed closed)) task member
      rw [of_decide_eq_true pushing] at pushed
      cases pushed
  | writerCloses ended =>
    have drained := sound.drained (by rw [ended]; rfl)
    exact ⟨sound.kept, sound.finished, fun _ => sound.closed drained.1, fun _ => ⟨rfl, drained.2⟩⟩
  | writerDone closed =>
    exact ⟨sound.kept, sound.finished, sound.closed, fun _ => sound.drained (by rw [closed]; rfl)⟩

/-! ### Every request is answered -/

/-- A writer that has not stopped and cannot take a step has nothing to send. -/
theorem drained_of_idle (runs : state.writer.stopped = false)
    (idle : ∀ action, action.sends = true → state.step handle action = none) :
    state.writer = .selecting ∧ state.queue = [] ∧ state.notifications = [] := by
  cases phase : state.writer with
  | selecting =>
    have empty : state.queue = [] := by
      have none := idle .takeResponse rfl
      cases queue : state.queue with
      | nil => rfl
      | cons answer rest =>
        simp only [step, phase, queue] at none
        cases none
    have none := idle .takeNotification rfl
    cases notifications : state.notifications with
    | nil => exact ⟨rfl, empty, rfl⟩
    | cons nt rest =>
      have pending : state.queuePending = true := by
        rw [queuePending, empty]
        rfl
      simp only [step, phase, notifications, pending] at none
      cases none
  | sendingResponse task msg | sendingNotification nt =>
    have none := idle (.wrote true) rfl
    simp only [step, phase] at none
    cases none
  | ended | closed | done =>
    rw [phase] at runs
    cases runs

/-- No task of the connection can take a step. -/
def Quiescent (handle : Nat → Value → Message.Response) (state : ServerConn) : Prop :=
  ∀ action, action.internal = true → state.step handle action = none

/-- A writer that has not stopped has nothing to send when the connection is at rest. -/
theorem Quiescent.outbound (quiescent : Quiescent handle state)
    (runs : state.writer.stopped = false) : state.outbound = [] := by
  have idle (action : ConnAction) (sends : action.sends = true) :
      state.step handle action = none := by
    refine quiescent action ?_
    unfold ConnAction.sends at sends
    split at sends
    · rfl
    · rfl
    · rfl
    · cases sends
  obtain ⟨selects, empty, _⟩ := drained_of_idle runs idle
  rw [ServerConn.outbound, selects, empty]
  rfl

/-- In a sound connection at rest every task has pushed, and nothing is on its way. -/
theorem Sound.settled (sound : Sound state) (quiescent : Quiescent handle state) :
    state.outbound = [] ∧ ∀ (task : Nat) (request : RequestTask),
      state.tasks[task]? = some request → request.phase = .pushed := by
  constructor
  · cases stopped : state.writer.stopped with
    | false => exact quiescent.outbound stopped
    | true =>
      rw [ServerConn.outbound, (sound.drained stopped).2]
      cases phase : state.writer with
      | sendingResponse =>
        rw [phase] at stopped
        cases stopped
      | _ => rfl
  · rintro task ⟨msg, phase⟩ found
    cases phase with
    | handling =>
      have none := quiescent (.handled task) rfl
      simp only [step, found] at none
      cases none
    | pushing =>
      have none := quiescent (.push task) rfl
      have runs := sound.not_stopped found nofun
      have empty := (List.append_eq_nil_iff.mp (quiescent.outbound runs)).2
      simp only [step, found, empty] at none
      cases none
    | pushed => rfl
    | dropped => exact absurd rfl (sound.kept _ (List.mem_of_getElem? found))

end ServerConn

def echoRequest : Value :=
  (newRequest 7 "Sample.echo" (.bool true)).toValue

end Karyon.Jsonrpc
