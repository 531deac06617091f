/-
This file is a small library of message-passing programs.

A program sends messages to one remote party and receives messages from it, each with an outcome
that may be an error, and ends with a result. It can be observed against an arbitrary environment
(`Prog.Steps`): every outcome is possible, so a statement about all traces is a statement about all
remote parties. And two programs can be joined by a pair of first-in first-out queues (`Duplex`),
where the order in which the two take their steps is free.

A duplex run cannot go on forever (`Duplex.wellFounded_step`), and steps of the two parties commute,
so all maximal runs end in one configuration (`Duplex.outcome_unique`). One schedule therefore
decides every schedule.
-/

import Mathlib.Logic.Relation
import Mathlib.Order.GameAdd

namespace Interaction

variable {Msg Err : Type}

/-! ### Programs -/

/-- A program that exchanges messages with one remote party. -/
inductive Prog (Msg Err Result : Type) where
  | done (result : Result)
  | send (message : Msg) (next : Except Err Unit → Prog Msg Err Result)
  | recv (next : Except Err Msg → Prog Msg Err Result)

/-- Run the second program with the result of the first. -/
def Prog.bind {First Second : Type} :
    Prog Msg Err First → (First → Prog Msg Err Second) → Prog Msg Err Second
  | .done result, continuation => continuation result
  | .send message next, continuation => .send message fun outcome =>
      (next outcome).bind continuation
  | .recv next, continuation => .recv fun outcome => (next outcome).bind continuation

instance : Monad (Prog Msg Err) where
  pure := .done
  bind := .bind

variable {Result : Type}

theorem Prog.bind_done (program : Prog Msg Err Result) :
    program.bind .done = program := by
  induction program with
  | done result => rfl
  | send message next inductionHypothesis =>
    exact congrArg (Prog.send message) (funext inductionHypothesis)
  | recv next inductionHypothesis => exact congrArg Prog.recv (funext inductionHypothesis)

theorem Prog.bind_bind {First Second Third : Type} (program : Prog Msg Err First)
    (second : First → Prog Msg Err Second) (third : Second → Prog Msg Err Third) :
    (program.bind second).bind third = program.bind fun result => (second result).bind third := by
  induction program with
  | done result => rfl
  | send message next inductionHypothesis =>
    exact congrArg (Prog.send message) (funext inductionHypothesis)
  | recv next inductionHypothesis => exact congrArg Prog.recv (funext inductionHypothesis)

instance : LawfulMonad (Prog Msg Err) :=
  LawfulMonad.mk' (Prog Msg Err) Prog.bind_done (fun _ _ => rfl) Prog.bind_bind

/-- Send one message; a failed send is the program's error. -/
def sendMsg (message : Msg) : ExceptT Err (Prog Msg Err) Unit :=
  ExceptT.mk (.send message .done)

/-- Receive one message; a failed receive is the program's error. -/
def recvMsg : ExceptT Err (Prog Msg Err) Msg :=
  ExceptT.mk (.recv .done)

/-- Send a message and go on, or end with the error. -/
def Prog.sendThen {Result : Type} (message : Msg) (next : Prog Msg Err (Except Err Result)) :
    Prog Msg Err (Except Err Result) :=
  .send message fun outcome =>
    match outcome with
    | .ok () => next
    | .error error => .done (.error error)

/-- Receive a message and go on, or end with the error. -/
def Prog.recvThen {Result : Type} (next : Msg → Prog Msg Err (Except Err Result)) :
    Prog Msg Err (Except Err Result) :=
  .recv fun outcome =>
    match outcome with
    | .ok message => next message
    | .error error => .done (.error error)

/-- Go on with a value, or end with the error. -/
def Prog.orFail {Value Result : Type} (value : Except Err Value)
    (next : Value → Prog Msg Err (Except Err Result)) : Prog Msg Err (Except Err Result) :=
  match value with
  | .ok value => next value
  | .error error => .done (.error error)

theorem run_sendMsg_bind (message : Msg) (next : Unit → ExceptT Err (Prog Msg Err) Result) :
    (sendMsg message >>= next).run = Prog.sendThen message (next ()).run := by
  refine congrArg (Prog.send message) (funext fun outcome => ?_)
  cases outcome <;> rfl

theorem run_recvMsg_bind (next : Msg → ExceptT Err (Prog Msg Err) Result) :
    (recvMsg >>= next).run = Prog.recvThen fun message => (next message).run := by
  refine congrArg Prog.recv (funext fun outcome => ?_)
  cases outcome <;> rfl

theorem run_liftExcept_bind {Value : Type} (value : Except Err Value)
    (next : Value → ExceptT Err (Prog Msg Err) Result) :
    (liftExcept value >>= next).run = Prog.orFail value fun value => (next value).run := by
  cases value <;> rfl

/-! ### Observing a program -/

/-- What an observer of a program sees: what was sent and how that ended, and how each
receive ended. -/
inductive Event (Msg Err : Type) where
  | sent (message : Msg) (outcome : Except Err Unit)
  | received (outcome : Except Err Msg)

/-- The program reaches the other one through the given events. -/
inductive Prog.Steps {Result : Type} :
    Prog Msg Err Result → List (Event Msg Err) → Prog Msg Err Result → Prop
  | refl (program : Prog Msg Err Result) : Steps program [] program
  | send {message : Msg} {next : Except Err Unit → Prog Msg Err Result}
      (outcome : Except Err Unit) {trace : List (Event Msg Err)} {last : Prog Msg Err Result} :
      Steps (next outcome) trace last →
      Steps (.send message next) (.sent message outcome :: trace) last
  | recv {next : Except Err Msg → Prog Msg Err Result} (outcome : Except Err Msg)
      {trace : List (Event Msg Err)} {last : Prog Msg Err Result} :
      Steps (next outcome) trace last →
      Steps (.recv next) (.received outcome :: trace) last

variable {trace : List (Event Msg Err)} {incoming : List Msg}

theorem Prog.Steps.of_done {result : Result} {last : Prog Msg Err Result}
    (steps : Prog.Steps (.done result) trace last) :
    trace = [] ∧ last = .done result := by
  cases steps
  exact ⟨rfl, rfl⟩

theorem Prog.Steps.of_sendThen {message : Msg} {next last : Prog Msg Err (Except Err Result)}
    (steps : Prog.Steps (.sendThen message next) trace last) :
    (trace = [] ∧ last = .sendThen message next) ∨
      (∃ error, trace = [.sent message (.error error)] ∧ last = .done (.error error)) ∨
      ∃ rest, trace = .sent message (.ok ()) :: rest ∧ Prog.Steps next rest last := by
  cases steps with
  | refl => exact Or.inl ⟨rfl, rfl⟩
  | send outcome rest =>
    cases outcome with
    | error error =>
      obtain ⟨rfl, rfl⟩ := rest.of_done
      exact Or.inr (Or.inl ⟨error, rfl, rfl⟩)
    | ok => exact Or.inr (Or.inr ⟨_, rfl, rest⟩)

theorem Prog.Steps.of_recvThen {next : Msg → Prog Msg Err (Except Err Result)}
    {last : Prog Msg Err (Except Err Result)} (steps : Prog.Steps (.recvThen next) trace last) :
    (trace = [] ∧ last = .recvThen next) ∨
      (∃ error, trace = [.received (.error error)] ∧ last = .done (.error error)) ∨
      ∃ message rest, trace = .received (.ok message) :: rest ∧
        Prog.Steps (next message) rest last := by
  cases steps with
  | refl => exact Or.inl ⟨rfl, rfl⟩
  | recv outcome rest =>
    cases outcome with
    | error error =>
      obtain ⟨rfl, rfl⟩ := rest.of_done
      exact Or.inr (Or.inl ⟨error, rfl, rfl⟩)
    | ok message => exact Or.inr (Or.inr ⟨message, _, rfl, rest⟩)

theorem Prog.Steps.of_orFail {Value : Type} {value : Except Err Value}
    {next : Value → Prog Msg Err (Except Err Result)} {last : Prog Msg Err (Except Err Result)}
    (steps : Prog.Steps (.orFail value next) trace last) :
    (∃ error, value = .error error ∧ trace = [] ∧ last = .done (.error error)) ∨
      ∃ result, value = .ok result ∧ Prog.Steps (next result) trace last := by
  cases value with
  | error error =>
    obtain ⟨rfl, rfl⟩ := steps.of_done
    exact Or.inl ⟨error, rfl, rfl, rfl⟩
  | ok result => exact Or.inr ⟨result, rfl, steps⟩

/-- A run of two programs in a row that ends is a run of the first, then one of the second. -/
theorem Prog.Steps.of_bind {First Second : Type} {program : Prog Msg Err First}
    {continuation : First → Prog Msg Err Second} {result : Second}
    (steps : Prog.Steps (program.bind continuation) trace (.done result)) :
    ∃ value early late, trace = early ++ late ∧ Prog.Steps program early (.done value) ∧
      Prog.Steps (continuation value) late (.done result) := by
  induction program generalizing trace with
  | done value => exact ⟨value, [], trace, rfl, .refl _, steps⟩
  | send message next inductionHypothesis =>
    cases steps with
    | send outcome rest =>
      obtain ⟨value, early, late, rfl, first, second⟩ := inductionHypothesis outcome rest
      exact ⟨value, .sent message outcome :: early, late, rfl, .send outcome first, second⟩
  | recv next inductionHypothesis =>
    cases steps with
    | recv outcome rest =>
      obtain ⟨value, early, late, rfl, first, second⟩ := inductionHypothesis outcome rest
      exact ⟨value, .received outcome :: early, late, rfl, .recv outcome first, second⟩

/-! ### Two programs on a duplex link -/

/-- What the transport adds to the two programs: the messages its framing refuses to send, and
the error a party reads once the remote one has hung up. -/
structure Link (Msg Err : Type) where
  refused : Msg → Option Err
  closed : Err

/-- Two programs with the messages in flight between them. -/
structure Duplex (Msg Err First Second : Type) where
  left : Prog Msg Err (Except Err First)
  right : Prog Msg Err (Except Err Second)
  toRight : List Msg
  toLeft : List Msg

/-- A party that ended with an error has closed its connection. -/
def Prog.hungUp {Result : Type} : Prog Msg Err (Except Err Result) → Bool
  | .done (.error _) => true
  | _ => false

/-- The next step of one party, given what is in flight to it and whether the remote party has
hung up: the program after it, what is left in flight, and what it put in flight. -/
def Link.advance {Result : Type} (link : Link Msg Err) :
    Prog Msg Err Result → List Msg → Bool →
      Option (Prog Msg Err Result × List Msg × List Msg)
  | .done _, _, _ => none
  | .send message next, incoming, _ =>
    match link.refused message with
    | some error => some (next (.error error), incoming, [])
    | none => some (next (.ok ()), incoming, [message])
  | .recv next, message :: rest, _ => some (next (.ok message), rest, [])
  | .recv next, [], gone => if gone then some (next (.error link.closed), [], []) else none

variable {First Second : Type}

/-- One step of a duplex: either party advances. -/
inductive Link.Step (link : Link Msg Err) :
    Duplex Msg Err First Second → Duplex Msg Err First Second → Prop
  | left {duplex : Duplex Msg Err First Second} {program : Prog Msg Err (Except Err First)}
      {incoming outgoing : List Msg}
      (advanced : link.advance duplex.left duplex.toLeft duplex.right.hungUp =
        some (program, incoming, outgoing)) :
      Step link duplex ⟨program, duplex.right, duplex.toRight ++ outgoing, incoming⟩
  | right {duplex : Duplex Msg Err First Second} {program : Prog Msg Err (Except Err Second)}
      {incoming outgoing : List Msg}
      (advanced : link.advance duplex.right duplex.toRight duplex.left.hungUp =
        some (program, incoming, outgoing)) :
      Step link duplex ⟨duplex.left, program, incoming, duplex.toLeft ++ outgoing⟩

/-! ### Every run ends -/

/-- One program is what another one continues as. -/
inductive Prog.Child {Result : Type} : Prog Msg Err Result → Prog Msg Err Result → Prop
  | send (message : Msg) (next : Except Err Unit → Prog Msg Err Result)
      (outcome : Except Err Unit) : Child (next outcome) (.send message next)
  | recv (next : Except Err Msg → Prog Msg Err Result) (outcome : Except Err Msg) :
      Child (next outcome) (.recv next)

theorem Prog.wellFounded_child (Msg Err Result : Type) :
    WellFounded (@Prog.Child Msg Err Result) := by
  refine ⟨fun program => ?_⟩
  induction program with
  | done result => exact ⟨_, fun _ child => nomatch child⟩
  | send message next inductionHypothesis =>
    refine ⟨_, fun _ child => ?_⟩
    cases child with
    | send _ _ outcome => exact inductionHypothesis outcome
  | recv next inductionHypothesis =>
    refine ⟨_, fun _ child => ?_⟩
    cases child with
    | recv _ outcome => exact inductionHypothesis outcome

variable {link : Link Msg Err}

theorem Link.advance_child {program after : Prog Msg Err Result} {rest outgoing : List Msg}
    {gone : Bool} (advanced : link.advance program incoming gone = some (after, rest, outgoing)) :
    Prog.Child after program := by
  cases program with
  | done result => cases advanced
  | send message next =>
    simp only [Link.advance] at advanced
    split at advanced
    · cases advanced
      exact Prog.Child.send message next _
    · cases advanced
      exact Prog.Child.send message next _
  | recv next =>
    cases incoming with
    | nil =>
      obtain ⟨_, ⟨⟩⟩ := Option.ite_none_right_eq_some.mp advanced
      exact Prog.Child.recv next _
    | cons message more =>
      cases advanced
      exact Prog.Child.recv next _

/-- No duplex runs forever. -/
theorem Duplex.wellFounded_step (link : Link Msg Err) :
    WellFounded fun later earlier : Duplex Msg Err First Second => link.Step earlier later := by
  have both := (Prog.wellFounded_child Msg Err (Except Err First)).prod_gameAdd
    (Prog.wellFounded_child Msg Err (Except Err Second))
  refine Subrelation.wf ?_ (InvImage.wf (fun duplex : Duplex Msg Err First Second =>
    (duplex.left, duplex.right)) both)
  intro later earlier step
  cases step with
  | left advanced => exact Prod.GameAdd.fst (Link.advance_child advanced)
  | right advanced => exact Prod.GameAdd.snd (Link.advance_child advanced)

/-! ### The order of steps does not matter -/

/-- A step that does not depend on the remote party having hung up is the same when more is in
flight behind the messages it sees. -/
theorem Link.advance_append {program after : Prog Msg Err Result} {rest outgoing : List Msg}
    (advanced : link.advance program incoming false = some (after, rest, outgoing))
    (more : List Msg) (gone : Bool) :
    link.advance program (incoming ++ more) gone = some (after, rest ++ more, outgoing) := by
  cases program with
  | done result => cases advanced
  | send message next =>
    simp only [Link.advance] at advanced ⊢
    split at advanced
    · cases advanced
      rfl
    · cases advanced
      rfl
  | recv next =>
    cases incoming with
    | nil => simp [Link.advance] at advanced
    | cons message others =>
      cases advanced
      rfl

/-- A party that can still take a step has not hung up. -/
theorem Link.hungUp_of_advance {program : Prog Msg Err (Except Err Result)} {gone : Bool}
    {next : Prog Msg Err (Except Err Result) × List Msg × List Msg}
    (advanced : link.advance program incoming gone = some next) : program.hungUp = false := by
  cases program with
  | done result => cases advanced
  | send message next | recv next => rfl

/-- Two steps from one configuration lead to configurations that one more step each joins, or
are the same step. -/
theorem Link.Step.diamond {start first second : Duplex Msg Err First Second}
    (firstStep : link.Step start first) (secondStep : link.Step start second) :
    first = second ∨ ∃ joined, link.Step first joined ∧ link.Step second joined := by
  cases firstStep with
  | left leftAdvanced =>
    cases secondStep with
    | left otherAdvanced =>
      rw [leftAdvanced, Option.some.injEq, Prod.mk.injEq, Prod.mk.injEq] at otherAdvanced
      obtain ⟨rfl, rfl, rfl⟩ := otherAdvanced
      exact Or.inl rfl
    | right rightAdvanced =>
      have leftUp := Link.hungUp_of_advance leftAdvanced
      have rightUp := Link.hungUp_of_advance rightAdvanced
      rw [rightUp] at leftAdvanced
      rw [leftUp] at rightAdvanced
      exact Or.inr ⟨_, Link.Step.right (Link.advance_append rightAdvanced _ _),
        Link.Step.left (Link.advance_append leftAdvanced _ _)⟩
  | right rightAdvanced =>
    cases secondStep with
    | left leftAdvanced =>
      have leftUp := Link.hungUp_of_advance leftAdvanced
      have rightUp := Link.hungUp_of_advance rightAdvanced
      rw [rightUp] at leftAdvanced
      rw [leftUp] at rightAdvanced
      exact Or.inr ⟨_, Link.Step.left (Link.advance_append leftAdvanced _ _),
        Link.Step.right (Link.advance_append rightAdvanced _ _)⟩
    | right otherAdvanced =>
      rw [rightAdvanced, Option.some.injEq, Prod.mk.injEq, Prod.mk.injEq] at otherAdvanced
      obtain ⟨rfl, rfl, rfl⟩ := otherAdvanced
      exact Or.inl rfl

/-- A configuration in which neither party can take a step. -/
def Duplex.Final (link : Link Msg Err) (duplex : Duplex Msg Err First Second) : Prop :=
  ∀ next, ¬ link.Step duplex next

section

variable {other last start : Duplex Msg Err First Second}
  (run : Relation.ReflTransGen link.Step start last) (final : last.Final link)
  (otherRun : Relation.ReflTransGen link.Step start other)

include run final otherRun

/-- If one schedule ends in a final configuration, every run leads there. -/
theorem Duplex.reaches_final : Relation.ReflTransGen link.Step other last := by
  obtain ⟨joined, otherJoined, lastJoined⟩ := Relation.church_rosser
    (fun _ first second firstStep secondStep => by
      rcases firstStep.diamond secondStep with same | ⟨joined, firstJoined, secondJoined⟩
      · exact ⟨first, Relation.ReflGen.refl, same ▸ Relation.ReflTransGen.refl⟩
      · exact ⟨joined, Relation.ReflGen.single firstJoined,
          Relation.ReflTransGen.single secondJoined⟩) otherRun run
  rcases Relation.ReflTransGen.cases_head lastJoined with same | ⟨next, step, _⟩
  · rw [same]
    exact otherJoined
  · exact absurd step (final next)

/-- All maximal runs end in one configuration. -/
theorem Duplex.outcome_unique (otherFinal : other.Final link) : other = last := by
  rcases Relation.ReflTransGen.cases_head (Duplex.reaches_final run final otherRun) with
    same | ⟨next, step, _⟩
  · exact same
  · exact absurd step (otherFinal next)

end

theorem Duplex.final_of_done {first : Except Err First} {second : Except Err Second}
    {toRight toLeft : List Msg} :
    (⟨.done first, .done second, toRight, toLeft⟩ : Duplex Msg Err First Second).Final link := by
  intro next step
  cases step with
  | left advanced | right advanced => cases advanced

/-! ### Following one schedule -/

/-- Some schedule ends with both parties done and their results related. -/
def Duplex.Leads (link : Link Msg Err) (start : Duplex Msg Err First Second)
    (related : Except Err First → Except Err Second → Prop) : Prop :=
  ∃ first second toRight toLeft,
    Relation.ReflTransGen link.Step start ⟨.done first, .done second, toRight, toLeft⟩ ∧
      related first second

section Leads

variable {link : Link Msg Err} {related : Except Err First → Except Err Second → Prop}
  {start : Duplex Msg Err First Second} {message : Msg}

/-- What one schedule leads to, every maximal run leads to. -/
theorem Duplex.Leads.decides {last : Duplex Msg Err First Second} (leads : start.Leads link related)
    (run : Relation.ReflTransGen link.Step start last) (final : last.Final link) :
    ∃ first second, last.left = .done first ∧ last.right = .done second ∧
      related first second := by
  obtain ⟨first, second, toRight, toLeft, schedule, holds⟩ := leads
  have same := Duplex.outcome_unique schedule Duplex.final_of_done run final
  rw [same]
  exact ⟨first, second, rfl, rfl, holds⟩

theorem Duplex.Leads.of_step {next : Duplex Msg Err First Second} (step : link.Step start next)
    (leads : next.Leads link related) :
    start.Leads link related := by
  obtain ⟨first, second, toRight, toLeft, schedule, holds⟩ := leads
  exact ⟨first, second, toRight, toLeft, .head step schedule, holds⟩

def Duplex.swap (duplex : Duplex Msg Err First Second) : Duplex Msg Err Second First :=
  ⟨duplex.right, duplex.left, duplex.toLeft, duplex.toRight⟩

theorem Link.Step.swap {earlier later : Duplex Msg Err First Second}
    (step : link.Step earlier later) : link.Step earlier.swap later.swap := by
  cases step with
  | left advanced => exact Link.Step.right advanced
  | right advanced => exact Link.Step.left advanced

theorem Duplex.Leads.of_swap
    (leads : start.swap.Leads link fun second first => related first second) :
    start.Leads link related := by
  obtain ⟨second, first, toLeft, toRight, schedule, holds⟩ := leads
  exact ⟨first, second, toRight, toLeft,
    schedule.lift Duplex.swap fun _ _ step => step.swap, holds⟩

variable {right : Prog Msg Err (Except Err Second)} {toRight toLeft : List Msg}
  {next : Prog Msg Err (Except Err First)}

theorem Duplex.Leads.sendThen (accepted : link.refused message = none)
    (leads : Duplex.Leads link ⟨next, right, toRight ++ [message], toLeft⟩ related) :
    Duplex.Leads link ⟨.sendThen message next, right, toRight, toLeft⟩ related := by
  refine leads.of_step (Link.Step.left ?_)
  rw [Prog.sendThen, Link.advance, accepted]

theorem Duplex.Leads.recvThen {next : Msg → Prog Msg Err (Except Err First)}
    (leads : Duplex.Leads link ⟨next message, right, toRight, toLeft⟩ related) :
    Duplex.Leads link ⟨.recvThen next, right, toRight, message :: toLeft⟩ related := by
  have step : link.Step (⟨.recvThen next, right, toRight, message :: toLeft⟩ :
      Duplex Msg Err First Second) ⟨next message, right, toRight ++ [], toLeft⟩ :=
    Link.Step.left rfl
  rw [List.append_nil] at step
  exact leads.of_step step

/-- The result of a party whose remote one has hung up, given what is still in flight to it. -/
def Link.finish (link : Link Msg Err) {Result : Type} :
    Prog Msg Err Result → List Msg → Result
  | .done result, _ => result
  | .send message next, incoming =>
    match link.refused message with
    | some error => link.finish (next (.error error)) incoming
    | none => link.finish (next (.ok ())) incoming
  | .recv next, message :: rest => link.finish (next (.ok message)) rest
  | .recv next, [] => link.finish (next (.error link.closed)) []

/-- A party whose remote one has hung up finishes on its own. -/
theorem Duplex.Leads.of_hungUp {error : Err} (program : Prog Msg Err (Except Err Second))
    (incoming outgoing : List Msg) (holds : related (.error error) (link.finish program incoming)) :
    Duplex.Leads link ⟨.done (.error error), program, incoming, outgoing⟩ related := by
  induction program generalizing incoming outgoing with
  | done result => exact ⟨_, _, _, _, .refl, holds⟩
  | send message next inductionHypothesis =>
    rw [Link.finish] at holds
    cases refusal : link.refused message with
    | some failure =>
      rw [refusal] at holds
      refine (inductionHypothesis _ incoming (outgoing ++ []) holds).of_step (Link.Step.right ?_)
      rw [Link.advance, refusal]
    | none =>
      rw [refusal] at holds
      refine (inductionHypothesis _ incoming (outgoing ++ [message]) holds).of_step
        (Link.Step.right ?_)
      rw [Link.advance, refusal]
  | recv next inductionHypothesis =>
    cases incoming with
    | nil => exact (inductionHypothesis _ [] (outgoing ++ []) holds).of_step (Link.Step.right rfl)
    | cons message rest =>
      exact (inductionHypothesis _ rest (outgoing ++ []) holds).of_step (Link.Step.right rfl)

/-- A party that cannot send hangs up, and the remote one finishes on its own. -/
theorem Duplex.Leads.refused {error : Err} (refusal : link.refused message = some error)
    (holds : related (.error error) (link.finish right toRight)) :
    Duplex.Leads link ⟨.sendThen message next, right, toRight, toLeft⟩ related := by
  have hungUp := Duplex.Leads.of_hungUp right (toRight ++ []) toLeft
    (by rw [List.append_nil]; exact holds)
  refine hungUp.of_step (Link.Step.left ?_)
  rw [Prog.sendThen, Link.advance, refusal]

end Leads

section Finish

variable (link : Link Msg Err) {Result : Type}

theorem Link.finish_sendThen (message : Msg) (next : Prog Msg Err (Except Err Result))
    (incoming : List Msg) :
    link.finish (.sendThen message next) incoming =
      match link.refused message with
      | some error => .error error
      | none => link.finish next incoming := by
  rw [Prog.sendThen, Link.finish]
  cases link.refused message <;> rfl

end Finish

end Interaction
