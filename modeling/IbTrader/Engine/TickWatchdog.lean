/-
  IbTrader.Engine.TickWatchdog

  The watchdog of the quote stream (`tick_silence_watchdog_loop` in
  `ib_trader/engine/ib_resilience.py`).

  It counts the polls in a row at which the stream was silent although ticks were
  expected, and alerts where they are enough.  A poll in the first seconds after the start
  does not count either way (`watchdog_alerts_iff`).  The snapshot that it logs, and an
  exception, which it sleeps over, are left out; whether ticks are expected is asked of the
  calendar.
-/

import IbTrader.Lib.Mealy
import IbTrader.Lib.Streak
import Mathlib.Algebra.Order.Field.Rat

namespace IbTrader.Engine

open Lib

-- ============================================================================
-- The watchdog
-- ============================================================================

structure WatchdogSettings where
  /-- `tick_watchdog_silence_threshold_seconds`. -/
  thresholdS : ℚ := 60
  /-- `tick_watchdog_startup_grace_seconds`. -/
  startupGraceS : ℚ := 120
  /-- `tick_watchdog_min_confirmations`. -/
  minConfirmations : ℤ := 3
  deriving DecidableEq, Repr

structure TickPoll where
  /-- Since the loop started. -/
  elapsed : ℚ
  /-- `_heartbeat_silence_seconds`; none where there is no heartbeat. -/
  silence : Option ℚ
  /-- `_ticks_expected_now`. -/
  ticksExpected : Bool
  deriving DecidableEq, Repr

variable (settings : WatchdogSettings)

/-- `consecutive_silent` after a poll, and whether it alerts. -/
def tickPoll (consecutiveSilent : ℕ) (poll : TickPoll) : ℕ × Bool :=
  if poll.elapsed < settings.startupGraceS then (consecutiveSilent, false)
  -- no heartbeat is a silence without end
  else if poll.silence.any fun silence => decide (silence ≤ settings.thresholdS) then (0, false)
  else if !poll.ticksExpected then (0, false)
  else if ((consecutiveSilent + 1 : ℕ) : ℤ) < settings.minConfirmations then (consecutiveSilent + 1, false)
  else (consecutiveSilent + 1, true)

/-- The loop: its outputs are the alerts. -/
def tickSilenceWatchdog : Mealy ℕ TickPoll Unit where
  next consecutiveSilent poll := (tickPoll settings consecutiveSilent poll).1
  emit consecutiveSilent poll := if (tickPoll settings consecutiveSilent poll).2 then [()] else []

-- ============================================================================
-- When it alerts
-- ============================================================================

/-- The stream was silent although ticks were expected. -/
def TickPoll.silent (poll : TickPoll) : Bool :=
  !(poll.silence.any fun silence => decide (silence ≤ settings.thresholdS)) && poll.ticksExpected

/-- The polls after the grace. -/
def evaluated (polls : List TickPoll) : List TickPoll :=
  polls.filter fun poll => decide (settings.startupGraceS ≤ poll.elapsed)

section Watchdog

variable {settings} {poll : TickPoll}

theorem tickPoll_grace (hgrace : poll.elapsed < settings.startupGraceS) (n : ℕ) :
    tickPoll settings n poll = (n, false) := if_pos hgrace

/-- After the grace a poll counts, and alerts where the count is enough. -/
theorem tickPoll_evaluated (hgrace : settings.startupGraceS ≤ poll.elapsed) (n : ℕ) :
    (tickPoll settings n poll).1 = (if poll.silent settings then n + 1 else 0) ∧
      ((tickPoll settings n poll).2 = true ↔
        poll.silent settings = true ∧ settings.minConfirmations ≤ ((n + 1 : ℕ) : ℤ)) := by
  unfold tickPoll TickPoll.silent
  rw [if_neg (not_lt.mpr hgrace)]
  cases poll.silence.any fun silence => decide (silence ≤ settings.thresholdS) with
  | true => simp
  | false =>
    cases poll.ticksExpected with
    | false => simp
    | true =>
      by_cases hfew : ((n + 1 : ℕ) : ℤ) < settings.minConfirmations
      · simp only [Bool.false_eq_true, if_false, Bool.not_true, hfew, if_true]
        simpa using hfew
      · simp only [Bool.false_eq_true, if_false, Bool.not_true, hfew]
        simpa using hfew

/-- The count is the streak of silent polls. -/
theorem run_watchdog (polls : List TickPoll) :
    (tickSilenceWatchdog settings).run 0 polls = streak (TickPoll.silent settings) (evaluated settings polls) := by
  induction polls using List.reverseRecOn with
  | nil => rfl
  | append_singleton polls poll ih =>
    rw [Mealy.run_append, Mealy.run_cons, Mealy.run_nil, ih]
    show (tickPoll settings _ poll).1 = streak _ ((polls ++ [poll]).filter _)
    rw [List.filter_append]
    rcases lt_or_ge poll.elapsed settings.startupGraceS with hgrace | hgrace
    · rw [tickPoll_grace hgrace, List.filter_singleton, decide_eq_false (not_le.mpr hgrace), cond_false, List.append_nil]
      rfl
    · rw [(tickPoll_evaluated hgrace _).1, List.filter_singleton, decide_eq_true hgrace, cond_true, streak_concat]
      rfl

/-- After any polls the next one alerts exactly if the grace is over and so many of the
    last polls after it, this one included, found the stream silent. -/
theorem watchdog_alerts_iff (settings : WatchdogSettings) (polls : List TickPoll) (poll : TickPoll) :
    (tickSilenceWatchdog settings).emit ((tickSilenceWatchdog settings).run 0 polls) poll ≠ [] ↔
      settings.startupGraceS ≤ poll.elapsed ∧
        ∃ n : ℕ, max 1 settings.minConfirmations = n ∧ n ≤ (evaluated settings (polls ++ [poll])).length ∧
          ∀ last ∈ (evaluated settings (polls ++ [poll])).drop ((evaluated settings (polls ++ [poll])).length - n),
            last.silent settings = true := by
  have hemit (n : ℕ) : (tickSilenceWatchdog settings).emit n poll ≠ [] ↔ (tickPoll settings n poll).2 = true := by
    show (if (tickPoll settings n poll).2 then [()] else []) ≠ [] ↔ _
    split <;> simp [*]
  have hpos : ((max 1 settings.minConfirmations).toNat : ℤ) = max 1 settings.minConfirmations :=
    Int.toNat_of_nonneg (le_trans (by decide) (le_max_left 1 _))
  rw [hemit, run_watchdog]
  rcases lt_or_ge poll.elapsed settings.startupGraceS with hgrace | hgrace
  · rw [tickPoll_grace hgrace]
    exact iff_of_false Bool.false_ne_true fun h => not_le.mpr hgrace h.1
  · have hlast : evaluated settings (polls ++ [poll]) = evaluated settings polls ++ [poll] := by
      unfold evaluated
      rw [List.filter_append, List.filter_singleton, decide_eq_true hgrace, cond_true]
    have hstreak := (streak_concat (TickPoll.silent settings) (evaluated settings polls) poll)
    rw [(tickPoll_evaluated hgrace _).2, and_iff_right hgrace]
    constructor
    · rintro ⟨hsilent, henough⟩
      refine ⟨(max 1 settings.minConfirmations).toNat, hpos.symm, ?_⟩
      rw [hlast, ← le_streak_iff, hstreak, if_pos hsilent]
      omega
    · rintro ⟨n, hn, henough⟩
      rw [hlast, ← le_streak_iff, hstreak] at henough
      split at henough
      case isTrue hsilent => exact ⟨hsilent, by omega⟩
      case isFalse => omega

/-- A heartbeat between two silent polls sets the count back. -/
example : (tickSilenceWatchdog {}).trace 0
    [⟨100, none, true⟩, ⟨130, some 70, true⟩, ⟨145, some 3, true⟩, ⟨160, none, true⟩, ⟨175, some 61, true⟩,
      ⟨190, some 76, true⟩] = [(⟨190, some 76, true⟩, ())] := by decide +kernel

end Watchdog

end IbTrader.Engine
