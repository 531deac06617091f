/-
This file models the connection limit of the STUN server, `take_slot` of `stun/src/server.rs`.

A call adds one to the counter of open connections and compares what it was before with the limit.
A call that comes too late takes its one back, so that the counter may exceed the limit for a
while. The slots that are handed out and not dropped never do (`stun_connection_limit`).
-/

import Karyon.Lib.Transition
import Mathlib.Data.List.Basic

namespace Karyon.Stun

open Transition

/-- The counter, which has underflowed where it is negative; the calls of `take_slot` before the
comparison, by the connections that were open; the slots that are handed out; and those of refused
calls, which are about to be dropped. -/
structure ConnSlots where
  conns : Int
  comparing : List Int
  held : Nat
  refused : Nat

inductive SlotAction where
  | fetchAdd
  | compare (opened : Int)
  | dropRefused
  | dropHeld

namespace ConnSlots

def step (maxConnections : Nat) (self : ConnSlots) : SlotAction → Option (ConnSlots × List Empty)
  | .fetchAdd =>
    some ({ self with conns := self.conns + 1, comparing := self.conns :: self.comparing }, [])
  | .compare opened =>
    if opened ∈ self.comparing then
      let self := { self with comparing := self.comparing.erase opened }
      if opened < maxConnections then some ({ self with held := self.held + 1 }, [])
      else some ({ self with refused := self.refused + 1 }, [])
    else none
  | .dropRefused =>
    if 0 < self.refused then
      some ({ self with conns := self.conns - 1, refused := self.refused - 1 }, [])
    else none
  | .dropHeld =>
    if 0 < self.held then
      some ({ self with conns := self.conns - 1, held := self.held - 1 }, [])
    else none

/-- The counter counts the calls and the slots. The slots that are handed out, with those that will
be, are within the limit. -/
structure Bounded (maxConnections : Nat) (state : ConnSlots) : Prop where
  counts : state.conns = state.comparing.length + state.held + state.refused
  limit : state.comparing.countP (· < (maxConnections : Int)) + state.held ≤ maxConnections

theorem Bounded.step {maxConnections : Nat} {state next : ConnSlots} {action : SlotAction}
    {events : List Empty} (bounded : Bounded maxConnections state)
    (step : state.step maxConnections action = some (next, events)) :
    Bounded maxConnections next := by
  obtain ⟨counts, limit⟩ := bounded
  cases action with
  | fetchAdd =>
    cases step
    have few := state.comparing.countP_le_length (p := (· < (maxConnections : Int)))
    constructor
    · simp only [List.length_cons]
      omega
    · simp only [List.countP_cons, decide_eq_true_eq]
      split <;> omega
  | compare opened =>
    obtain ⟨member, step⟩ := Option.ite_none_right_eq_some.mp step
    have left := List.perm_cons_erase member
    have fewer := left.length_eq
    have granted := left.countP_eq (· < (maxConnections : Int))
    rw [List.length_cons] at fewer
    simp only [List.countP_cons, decide_eq_true_eq] at granted
    split at step
    · rename_i free
      cases step
      rw [if_pos free] at granted
      exact ⟨by simp only; omega, by simp only; omega⟩
    · rename_i full
      cases step
      rw [if_neg full] at granted
      exact ⟨by simp only; omega, by simp only; omega⟩
  | dropRefused =>
    obtain ⟨pending, ⟨⟩⟩ := Option.ite_none_right_eq_some.mp step
    exact ⟨by simp only; omega, limit⟩
  | dropHeld =>
    obtain ⟨pending, ⟨⟩⟩ := Option.ite_none_right_eq_some.mp step
    exact ⟨by simp only; omega, by simp only; omega⟩

end ConnSlots

/-- The calls of `take_slot` and the drops of slots, in any order. -/
def connSlotMachine (maxConnections : Nat) : Machine ConnSlots SlotAction Empty where
  start := { conns := 0, comparing := [], held := 0, refused := 0 }
  step := ConnSlots.step maxConnections

/-- In every run the slots that are handed out are within the limit and the counter does not
underflow. While no call is in progress, it is the number of these slots. -/
theorem stun_connection_limit {maxConnections : Nat} {history : List Empty} {state : ConnSlots}
    (run : (connSlotMachine maxConnections).Run (fun _ _ => True) history state) :
    state.held ≤ maxConnections ∧ 0 ≤ state.conns ∧
      (state.comparing = [] → state.refused = 0 → state.conns = state.held) := by
  have bounded : state.Bounded maxConnections :=
    run.invariant (fun _ => ConnSlots.Bounded maxConnections) ⟨rfl, Nat.zero_le _⟩
      fun _ _ _ _ _ before _ step => before.step step
  have counts := bounded.counts
  refine ⟨Nat.le_of_add_left_le bounded.limit, by omega, fun compared refused => ?_⟩
  rw [compared, refused] at counts
  rw [counts, List.length_nil]
  omega

/-- With a limit of one, the second of two calls is refused, whichever compares first. -/
theorem stun_connection_limit_two : ∃ history state,
    (connSlotMachine 1).Run (fun _ _ => True) history state ∧ state.conns = 2 ∧ state.held ≤ 1 := by
  have taken : (connSlotMachine 1).trace [.fetchAdd, .fetchAdd, .compare 1, .compare 0] =
      some ([], ⟨2, [], 1, 1⟩) := rfl
  have run := Machine.Run.of_trace taken
  exact ⟨_, _, run, rfl, (stun_connection_limit run).1⟩

end Karyon.Stun
