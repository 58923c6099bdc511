/-
  IbTrader.Lib.Linger

  Two ways to act on a condition that is looked at from time to time: once it has held for
  a while, and at intervals.

  The first keeps the time at which the condition began to hold (`Linger`), the second the
  time at which it was last sampled (`Poll`).  Of a whole sequence of looks the first acts
  exactly at the end of a run that has lasted (`Linger.fires_iff`).
-/

import Mathlib.Data.Nat.Notation
import Mathlib.Order.Basic

namespace IbTrader.Lib

variable {τ : Type*}

-- ============================================================================
-- Once it has held for a while
-- ============================================================================

namespace Linger

/-- It has held since a time from which this one is late enough. -/
def fire (due : τ → τ → Prop) [∀ s t, Decidable (due s t)] (timer : Option τ) (holds : Bool) (now : τ) : Bool :=
  holds && timer.any fun start => due start now

/-- The timer is started by the first look at which the condition holds, and cleared by
    the first at which it does not and by acting. -/
def next (due : τ → τ → Prop) [∀ s t, Decidable (due s t)] (timer : Option τ) (holds : Bool) (now : τ) :
    Option τ :=
  if holds then
    match timer with
    | none => some now
    | some start => if due start now then none else some start
  else none

section Steps

variable {due : τ → τ → Prop} [∀ s t, Decidable (due s t)] {timer : Option τ} {holds : Bool} {now start : τ}

theorem next_eq_none_iff : next due timer holds now = none ↔ holds = false ∨ fire due timer holds now := by
  cases holds with
  | false => simp [next]
  | true =>
    cases timer with
    | none => simp [next, fire]
    | some start => by_cases hdue : due start now <;> simp [next, fire, hdue]

theorem next_of_none : next due none true now = some now := rfl

theorem next_of_not_fire (h : ¬ fire due (some start) true now) : next due (some start) true now = some start := by
  have hdue : ¬ due start now := fun hdue => h (by simp [fire, hdue])
  simp [next, hdue]

end Steps

section Runs

/-- From one look up to another, exclusively, the condition holds and nothing is done,
    and this is not so from an earlier look on. -/
structure RunFrom (holds fires : ℕ → Bool) (j k : ℕ) : Prop where
  lt : j < k
  unbroken : ∀ i, j ≤ i → i < k → holds i
  quiet : ∀ i, j ≤ i → i < k → ¬ fires i
  first : ∀ i, j = i + 1 → ¬ holds i ∨ fires i

variable {holds fires : ℕ → Bool} {j j' k : ℕ}

theorem RunFrom.le (h : RunFrom holds fires j k) (h' : RunFrom holds fires j' k) : j' ≤ j := by
  by_contra hlt
  obtain ⟨i, rfl⟩ : ∃ i, j' = i + 1 := ⟨j' - 1, by omega⟩
  have hk := h'.lt
  rcases h'.first i rfl with hnot | hfires
  · exact hnot (h.unbroken i (by omega) (by omega))
  · exact h.quiet i (by omega) (by omega) hfires

/-- A run has one beginning. -/
theorem RunFrom.unique (h : RunFrom holds fires j k) (h' : RunFrom holds fires j' k) : j = j' :=
  Nat.le_antisymm (h'.le h) (h.le h')

theorem RunFrom.extend (h : RunFrom holds fires j k) (hholds : holds k) (hquiet : ¬ fires k) :
    RunFrom holds fires j (k + 1) where
  lt := Nat.lt_succ_of_lt h.lt
  unbroken i hj hi := by
    rcases Nat.lt_succ_iff_lt_or_eq.mp hi with hlt | rfl
    · exact h.unbroken i hj hlt
    · exact hholds
  quiet i hj hi := by
    rcases Nat.lt_succ_iff_lt_or_eq.mp hi with hlt | rfl
    · exact h.quiet i hj hlt
    · exact hquiet
  first := h.first

/-- A run that begins at the look itself. -/
theorem RunFrom.begin (hholds : holds k) (hquiet : ¬ fires k) (hfirst : ∀ i, k = i + 1 → ¬ holds i ∨ fires i) :
    RunFrom holds fires k (k + 1) where
  lt := Nat.lt_succ_self k
  unbroken i hj hi := by rwa [Nat.le_antisymm (Nat.le_of_lt_succ hi) hj]
  quiet i hj hi := by rwa [Nat.le_antisymm (Nat.le_of_lt_succ hi) hj]
  first := hfirst

end Runs

section Looks

variable (due : τ → τ → Prop) [∀ s t, Decidable (due s t)] (holds : ℕ → Bool) (clock : ℕ → τ)

/-- The timer before a look. -/
def timerAt : ℕ → Option τ
  | 0 => none
  | k + 1 => next due (timerAt k) (holds k) (clock k)

/-- The program acts at a look. -/
def firesAt (k : ℕ) : Bool := fire due (timerAt due holds clock k) (holds k) (clock k)

variable {due} {holds} {clock}

theorem first_of_timerAt_eq_none {k : ℕ} (h : timerAt due holds clock k = none) :
    ∀ i, k = i + 1 → ¬ holds i ∨ firesAt due holds clock i := by
  rintro i rfl
  rcases next_eq_none_iff.mp h with hholds | hfire
  · exact .inl (by simp [hholds])
  · exact .inr hfire

/-- The timer has the time at which the run before the look began, if there is one. -/
theorem timerAt_eq_some {k : ℕ} {start : τ} (h : timerAt due holds clock k = some start) :
    ∃ j, RunFrom holds (firesAt due holds clock) j k ∧ clock j = start := by
  induction k generalizing start with
  | zero => exact absurd h.symm (Option.some_ne_none start)
  | succ k ih =>
    have hnone : ¬ (holds k = false ∨ firesAt due holds clock k) := by
      intro hnot
      have hnext : timerAt due holds clock (k + 1) = none := next_eq_none_iff.mpr hnot
      rw [hnext] at h
      exact absurd h.symm (Option.some_ne_none start)
    obtain ⟨hholds, hquiet⟩ := not_or.mp hnone
    have hholds : holds k = true := (Bool.not_eq_false _).mp hholds
    cases htimer : timerAt due holds clock k with
    | none =>
      rw [timerAt, htimer, hholds, next_of_none, Option.some.injEq] at h
      exact ⟨k, RunFrom.begin hholds hquiet (first_of_timerAt_eq_none htimer), h⟩
    | some started =>
      have hfire : ¬ fire due (some started) true (clock k) = true := by
        rwa [firesAt, htimer, hholds] at hquiet
      rw [timerAt, htimer, hholds, next_of_not_fire hfire, Option.some.injEq] at h
      obtain ⟨j, hrun, hj⟩ := ih htimer
      exact ⟨j, hrun.extend hholds hquiet, hj.trans h⟩

theorem not_runFrom_of_timerAt_eq_none {k : ℕ} (h : timerAt due holds clock k = none) (j : ℕ) :
    ¬ RunFrom holds (firesAt due holds clock) j k := by
  intro hrun
  have hk := hrun.lt
  obtain ⟨i, rfl⟩ : ∃ i, k = i + 1 := ⟨k - 1, by omega⟩
  rcases first_of_timerAt_eq_none h i rfl with hnot | hfires
  · exact hnot (hrun.unbroken i (by omega) (by omega))
  · exact hrun.quiet i (by omega) (by omega) hfires

/-- The program acts at a look exactly if the condition holds at it, and has held since an
    earlier one from which this one is late enough. -/
theorem fires_iff {k : ℕ} :
    firesAt due holds clock k ↔
      holds k ∧ ∃ j, RunFrom holds (firesAt due holds clock) j k ∧ due (clock j) (clock k) := by
  rw [firesAt, fire, Bool.and_eq_true, Option.any_eq_true]
  refine and_congr_right fun _ => ?_
  constructor
  · rintro ⟨start, htimer, hdue⟩
    obtain ⟨j, hrun, rfl⟩ := timerAt_eq_some htimer
    exact ⟨j, hrun, of_decide_eq_true hdue⟩
  · rintro ⟨j, hrun, hdue⟩
    cases htimer : timerAt due holds clock k with
    | none => exact absurd hrun (not_runFrom_of_timerAt_eq_none htimer j)
    | some start =>
      obtain ⟨j', hrun', rfl⟩ := timerAt_eq_some htimer
      exact ⟨_, rfl, decide_eq_true (hrun.unique hrun' ▸ hdue)⟩

end Looks

end Linger

-- ============================================================================
-- At intervals
-- ============================================================================

namespace Poll

variable (due : τ → τ → Prop) [∀ s t, Decidable (due s t)] (started : τ) (clock : ℕ → τ)

/-- When the condition was last sampled before a look: a look is a sample if it is late
    enough after the last one, and the start counts as the first. -/
def lastSample : ℕ → τ
  | 0 => started
  | k + 1 => if due (lastSample k) (clock k) then clock k else lastSample k

end Poll

end IbTrader.Lib
