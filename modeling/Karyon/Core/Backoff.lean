/-
This file models the exponential backoff of `core/src/async_util/backoff.rs`.

A sleep multiplies the base delay by a power of two and cuts the product at the maximum. The power
and the product are computed before the cut, in 64 bits, until a delay is the maximum. So the
delays are the right ones, and nothing overflows, if and only if a product that fits reaches the
maximum (`backoff_delays_iff`).
-/

import Mathlib.Algebra.Group.Nat.Defs

namespace Karyon.Core

structure Backoff where
  baseDelay : Nat
  maxDelay : Nat
  retries : Nat
  stop : Bool

inductive BackoffCall where
  | sleep
  | reset

namespace Backoff

def new (baseDelay maxDelay : UInt64) : Backoff where
  baseDelay := baseDelay.toNat
  maxDelay := maxDelay.toNat
  retries := 0
  stop := false

/-- The delay of a sleep, with the state after it. There is none when an operation overflows. -/
def sleep (self : Backoff) : Option (Nat × Backoff) :=
  if self.stop then some (self.maxDelay, self)
  else if 2 ^ self.retries < 2 ^ 64 ∧ self.baseDelay * 2 ^ self.retries < 2 ^ 64 ∧
      self.retries + 1 < 2 ^ 32 then
    let delay := min (self.baseDelay * 2 ^ self.retries) self.maxDelay
    some (delay, { self with stop := delay = self.maxDelay, retries := self.retries + 1 })
  else none

def reset (self : Backoff) : Backoff :=
  { self with retries := 0, stop := false }

def delays (self : Backoff) : List BackoffCall → Option (List Nat)
  | [] => some []
  | .reset :: calls => self.reset.delays calls
  | .sleep :: calls => self.sleep.bind fun (delay, next) => (next.delays calls).map (delay :: ·)

/-- The delays without bound, after so many sleeps since the last reset. -/
def expected (baseDelay maxDelay : Nat) : Nat → List BackoffCall → List Nat
  | _, [] => []
  | _, .reset :: calls => expected baseDelay maxDelay 0 calls
  | slept, .sleep :: calls =>
    min (baseDelay * 2 ^ slept) maxDelay :: expected baseDelay maxDelay (slept + 1) calls

/-- A product that fits reaches the maximum. -/
def Reaches (baseDelay maxDelay : Nat) : Prop :=
  ∃ retries < 64, maxDelay ≤ baseDelay * 2 ^ retries ∧ baseDelay * 2 ^ retries < 2 ^ 64

variable {baseDelay maxDelay slept : Nat} {self : Backoff}

/-- The state after so many sleeps: the maximum is reached, or no product has reached it. -/
inductive After (baseDelay maxDelay slept : Nat) : Backoff → Prop
  | stopped {retries : Nat} (reached : maxDelay ≤ baseDelay * 2 ^ slept) :
      After baseDelay maxDelay slept ⟨baseDelay, maxDelay, retries, true⟩
  | counting (below : ∀ retries < slept, baseDelay * 2 ^ retries < maxDelay) :
      After baseDelay maxDelay slept ⟨baseDelay, maxDelay, slept, false⟩

section

variable (after : After baseDelay maxDelay slept self) (reaches : Reaches baseDelay maxDelay)

include after reaches

theorem After.sleep :
    ∃ next, self.sleep = some (min (baseDelay * 2 ^ slept) maxDelay, next) ∧
      After baseDelay maxDelay (slept + 1) next := by
  have grows : baseDelay * 2 ^ slept ≤ baseDelay * 2 ^ (slept + 1) :=
    Nat.mul_le_mul_left _ (Nat.pow_le_pow_right Nat.two_pos (Nat.le_succ _))
  cases after with
  | stopped reached =>
    rw [Nat.min_eq_right reached]
    exact ⟨_, if_pos rfl, .stopped (Nat.le_trans reached grows)⟩
  | counting below =>
    obtain ⟨last, small, enough, fits⟩ := reaches
    have early : slept ≤ last :=
      Nat.le_of_not_lt fun later => Nat.not_le_of_lt (below last later) enough
    have product : baseDelay * 2 ^ slept < 2 ^ 64 :=
      Nat.lt_of_le_of_lt (Nat.mul_le_mul_left _ (Nat.pow_le_pow_right Nat.two_pos early)) fits
    have count : slept + 1 < 2 ^ 32 := by omega
    have power : 2 ^ slept < 2 ^ 64 :=
      Nat.pow_lt_pow_right Nat.one_lt_two (Nat.lt_of_le_of_lt early small)
    refine ⟨_, (if_neg Bool.false_ne_true).trans (if_pos ⟨power, product, count⟩), ?_⟩
    by_cases reached : maxDelay ≤ baseDelay * 2 ^ slept
    · simp only [Nat.min_eq_right reached, decide_true]
      exact .stopped (Nat.le_trans reached grows)
    · have less := Nat.not_le.mp reached
      simp only [Nat.min_eq_left (Nat.le_of_lt less), decide_eq_false (Nat.ne_of_lt less)]
      refine .counting fun retries earlier => ?_
      rcases Nat.lt_succ_iff_lt_or_eq.mp earlier with before | rfl
      · exact below retries before
      · exact less

theorem After.delays (calls : List BackoffCall) :
    self.delays calls = some (expected baseDelay maxDelay slept calls) := by
  induction calls generalizing slept self with
  | nil => rfl
  | cons call calls inductionHypothesis =>
    cases call with
    | sleep =>
      obtain ⟨next, done, later⟩ := after.sleep reaches
      simp only [Backoff.delays, done, Option.bind_some, inductionHypothesis later]
      rfl
    | reset => cases after <;> exact inductionHypothesis (.counting fun _ => nofun)

end

/-- When no product that fits reaches the maximum, a row of sleeps overflows. -/
theorem delays_overflow (short : ¬ Reaches baseDelay maxDelay) {sleeps : Nat}
    (left : slept + sleeps = 64) :
    delays ⟨baseDelay, maxDelay, slept, false⟩ (.replicate (sleeps + 1) .sleep) = none := by
  induction sleeps generalizing slept with
  | zero =>
    subst left
    rfl
  | succ sleeps inductionHypothesis =>
    rw [List.replicate_succ, delays, sleep, if_neg Bool.false_ne_true]
    split
    · rename_i fits
      have less : baseDelay * 2 ^ slept < maxDelay :=
        Nat.not_le.mp fun reached => short ⟨slept, by omega, reached, fits.2.1⟩
      simp only [Nat.min_eq_left (Nat.le_of_lt less), decide_eq_false (Nat.ne_of_lt less),
        Option.bind_some]
      rw [inductionHypothesis (show slept + 1 + sleeps = 64 by omega)]
      rfl
    · rfl

end Backoff

/-- For every sequence of calls the delays are as expected and nothing overflows, if and only if
a product of the base delay and a power of two that fits into 64 bits reaches the maximum. -/
theorem backoff_delays_iff (baseDelay maxDelay : UInt64) :
    (∀ calls, (Backoff.new baseDelay maxDelay).delays calls =
      some (Backoff.expected baseDelay.toNat maxDelay.toNat 0 calls)) ↔
      Backoff.Reaches baseDelay.toNat maxDelay.toNat := by
  constructor
  · intro right
    refine Classical.byContradiction fun short => ?_
    have overflow := Backoff.delays_overflow short (Nat.zero_add 64)
    cases overflow.symm.trans (right _)
  · have start : Backoff.After baseDelay.toNat maxDelay.toNat 0 (.new baseDelay maxDelay) :=
      .counting fun _ => nofun
    exact fun reaches => start.delays reaches

/-- The product of the second sleep overflows. -/
theorem backoff_delays_iff_counterexample :
    (Backoff.new 0x8000000000000000 0xFFFFFFFFFFFFFFFF).delays [.sleep, .sleep] = none := by
  decide

end Karyon.Core
