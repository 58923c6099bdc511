/-
  IbTrader.Engine.MarketHours

  The sessions of the market (`ib_trader/engine/market_hours.py`,
  `market_hours_futures.py`, `ib_trader/broker/ib/hours.py`), and when the watchdog expects
  ticks (`_ticks_expected_now` of `ib_trader/engine/ib_resilience.py`).

  A time is a number of minutes on a zone's wall clock, since some midnight on which a
  Monday began.  The texts of the labels are the names of the sessions, and the two reasons
  are those of the sessions they name.
-/

import Mathlib.Algebra.Order.Ring.Int
import IbTrader.Engine.TickWatchdog

namespace IbTrader.Engine.MarketHours

-- ============================================================================
-- Clocks
-- ============================================================================

/-- `weekday()`. -/
def weekday (t : ℤ) : ℤ := t / 1440 % 7

/-- `hour * 60 + minute`. -/
def mins (t : ℤ) : ℤ := t % 1440

/-- `hour`. -/
def hour (t : ℤ) : ℤ := mins t / 60

/-- The minute of the week, from which the day and the minute of the day are. -/
def minuteOfWeek (t : ℤ) : ℤ := t % 10080

theorem weekday_eq (t : ℤ) : weekday t = minuteOfWeek t / 1440 := by
  unfold weekday minuteOfWeek
  omega

theorem mins_eq (t : ℤ) : mins t = minuteOfWeek t % 1440 := by
  unfold mins minuteOfWeek
  omega

theorem minuteOfWeek_nonneg (t : ℤ) : 0 ≤ minuteOfWeek t := Int.emod_nonneg t (by decide)

theorem minuteOfWeek_lt (t : ℤ) : minuteOfWeek t < 10080 := Int.emod_lt_of_pos t (by decide)

-- ============================================================================
-- Predicates of the equity sessions
-- ============================================================================

def breakStartMins : ℤ := 3 * 60 + 50

def breakEndMins : ℤ := 4 * 60

def overnightStartMins : ℤ := 20 * 60

/-- `is_weekend_closure`. -/
def isWeekendClosure (t : ℤ) : Bool :=
  if weekday t = 4 then overnightStartMins ≤ mins t
  else if weekday t = 5 then true
  else if weekday t = 6 then mins t < overnightStartMins
  else false

/-- `is_session_break`. -/
def isSessionBreak (t : ℤ) : Bool :=
  if isWeekendClosure t then false else breakStartMins ≤ mins t ∧ mins t < breakEndMins

/-- `is_overnight_session`. -/
def isOvernightSession (t : ℤ) : Bool :=
  if isWeekendClosure t then false
  else if isSessionBreak t then false
  else mins t < breakStartMins ∨ overnightStartMins ≤ mins t

/-- `is_outside_rth`. -/
def isOutsideRth (t : ℤ) : Bool :=
  mins t < 9 * 60 + 30 ∨ 16 * 60 ≤ mins t ∨ isWeekendClosure t ∨ isSessionBreak t

/-- `is_ib_session_active`. -/
def isIbSessionActive (t : ℤ) : Bool :=
  if isWeekendClosure t then false else if isSessionBreak t then false else true

/-- `presubmitted_reason`. -/
def presubmittedReason (t : ℤ) : String :=
  if isWeekendClosure t then "weekend closure — market reopens Sunday 8:00 PM ET"
  else if isSessionBreak t then "session break (3:50–4:00 AM ET) — pre-market opens at 4:00 AM ET"
  else ""

/-- The names of `session_label`. -/
inductive Session
  | weekendClosure
  | sessionBreak
  | overnight
  | preMarket
  | regular
  | afterHours
  deriving DecidableEq, Repr

/-- `session_label`. -/
def sessionLabel (t : ℤ) : Session :=
  if isWeekendClosure t then .weekendClosure
  else if isSessionBreak t then .sessionBreak
  else if mins t < breakStartMins then .overnight
  else if mins t < 9 * 60 + 30 then .preMarket
  else if mins t < 16 * 60 then .regular
  else if mins t < overnightStartMins then .afterHours
  else .overnight

/-- `IBMarketHours._is_rth`, which asks for the time of day alone. -/
def isRth (t : ℤ) : Bool := 570 ≤ mins t ∧ mins t < 960

/-- `IBMarketHours.is_extended_hours`. -/
def isExtendedHours (t : ℤ) : Bool :=
  if isWeekendClosure t || isSessionBreak t then false else isOvernightSession t || !isRth t

/-- The `tif` of `IBMarketHours.order_params`. -/
def orderTif (t : ℤ) : String := if isOvernightSession t then "DAY" else "GTC"

-- ============================================================================
-- One session at a time
-- ============================================================================

section Sessions

variable {t : ℤ}

theorem isWeekendClosure_iff :
    isWeekendClosure t = true ↔ 4 * 1440 + 1200 ≤ minuteOfWeek t ∧ minuteOfWeek t < 6 * 1440 + 1200 := by
  have hday := weekday_eq t
  have hmins := mins_eq t
  have hlow := minuteOfWeek_nonneg t
  have hhigh := minuteOfWeek_lt t
  unfold isWeekendClosure overnightStartMins
  split
  case isTrue => rw [decide_eq_true_iff]; omega
  case isFalse =>
    split
    case isTrue => exact iff_of_true rfl (by omega)
    case isFalse =>
      split
      case isTrue => rw [decide_eq_true_iff]; omega
      case isFalse => exact iff_of_false Bool.false_ne_true (by omega)

/-- What the predicates say in a session. -/
structure InSession (t : ℤ) (s : Session) : Prop where
  weekend : isWeekendClosure t = decide (s = .weekendClosure)
  pause : isSessionBreak t = decide (s = .sessionBreak)
  overnight : isOvernightSession t = decide (s = .overnight)
  outside : isOutsideRth t = decide (s ≠ .regular)
  active : isIbSessionActive t = decide (s ≠ .weekendClosure ∧ s ≠ .sessionBreak)
  extended : isExtendedHours t = decide (s = .overnight ∨ s = .preMarket ∨ s = .afterHours)
  tif : orderTif t = if s = .overnight then "DAY" else "GTC"
  reason : presubmittedReason t = "" ↔ s ≠ .weekendClosure ∧ s ≠ .sessionBreak

theorem inSession_label (t : ℤ) : InSession t (sessionLabel t) := by
  cases hweekend : isWeekendClosure t with
  | true =>
    have hlabel : sessionLabel t = .weekendClosure := by rw [sessionLabel, hweekend, if_pos rfl]
    rw [hlabel]
    constructor <;>
      simp [isSessionBreak, isOvernightSession, isOutsideRth, isIbSessionActive, isExtendedHours, orderTif,
        presubmittedReason, hweekend]
  | false =>
    cases hbreak : isSessionBreak t with
    | true =>
      have hlabel : sessionLabel t = .sessionBreak := by
        rw [sessionLabel, hweekend, hbreak, if_neg Bool.false_ne_true, if_pos rfl]
      rw [hlabel]
      constructor <;>
        simp [isOvernightSession, isOutsideRth, isIbSessionActive, isExtendedHours, orderTif, presubmittedReason,
          hweekend, hbreak]
    | false =>
      have hgap : ¬ (breakStartMins ≤ mins t ∧ mins t < breakEndMins) := by
        rw [isSessionBreak, hweekend, if_neg Bool.false_ne_true] at hbreak
        exact of_decide_eq_false hbreak
      unfold breakStartMins breakEndMins at hgap
      constructor <;>
        simp only [sessionLabel, isOvernightSession, isOutsideRth, isIbSessionActive, isExtendedHours, orderTif,
          presubmittedReason, isRth, breakStartMins, overnightStartMins, hweekend, hbreak] <;>
        grind

end Sessions

-- ============================================================================
-- When it opens
-- ============================================================================

section Opening

variable {t u : ℤ}

/-- The next time of the week or of the day that the reason names. -/
def opening (t : ℤ) : ℤ :=
  if isWeekendClosure t then t + (6 * 1440 + overnightStartMins - t) % 10080 else t + (breakEndMins - t) % 1440

theorem isSessionBreak_iff : isSessionBreak t = true ↔
    isWeekendClosure t = false ∧ breakStartMins ≤ mins t ∧ mins t < breakEndMins := by
  unfold isSessionBreak
  cases isWeekendClosure t <;> simp

theorem isWeekendClosure_eq_false_iff : isWeekendClosure t = false ↔
    minuteOfWeek t < 4 * 1440 + 1200 ∨ 6 * 1440 + 1200 ≤ minuteOfWeek t := by
  rw [← Bool.not_eq_true, isWeekendClosure_iff]
  omega

/-- The weekend lasts until then. -/
theorem weekend_until (h : isWeekendClosure t = true) :
    (∀ u, t ≤ u → u < opening t → isWeekendClosure u = true) ∧ t < opening t ∧ opening t ≤ t + 48 * 60 ∧
      sessionLabel (opening t) = .overnight := by
  have hweek := isWeekendClosure_iff.mp h
  have hopening : opening t = t + (6 * 1440 + overnightStartMins - t) % 10080 := by rw [opening, h, if_pos rfl]
  unfold overnightStartMins at hopening
  unfold minuteOfWeek at hweek
  refine ⟨fun u hfrom huntil => ?_, by omega, by omega, ?_⟩
  · rw [isWeekendClosure_iff]
    unfold minuteOfWeek
    omega
  · have hopen : isWeekendClosure (opening t) = false := by
      rw [isWeekendClosure_eq_false_iff]
      unfold minuteOfWeek
      omega
    have hmins : mins (opening t) = 1200 := by unfold mins; omega
    simp [sessionLabel, isSessionBreak, hopen, hmins, breakStartMins, breakEndMins, overnightStartMins]

/-- And so does the break. -/
theorem break_until (h : isSessionBreak t = true) :
    (∀ u, t ≤ u → u < opening t → isSessionBreak u = true) ∧ t < opening t ∧ opening t ≤ t + 10 ∧
      sessionLabel (opening t) = .preMarket := by
  obtain ⟨hweekend, hfrom, huntil⟩ := isSessionBreak_iff.mp h
  have hweek := isWeekendClosure_eq_false_iff.mp hweekend
  have hopening : opening t = t + (breakEndMins - t) % 1440 := by
    rw [opening, hweekend, if_neg Bool.false_ne_true]
  unfold breakStartMins at hfrom
  unfold breakEndMins at huntil hopening
  unfold mins at hfrom huntil
  unfold minuteOfWeek at hweek
  refine ⟨fun u hlow hhigh => ?_, by omega, by omega, ?_⟩
  · rw [isSessionBreak_iff, isWeekendClosure_eq_false_iff]
    unfold minuteOfWeek mins breakStartMins breakEndMins
    omega
  · have hopen : isWeekendClosure (opening t) = false := by
      rw [isWeekendClosure_eq_false_iff]
      unfold minuteOfWeek
      omega
    have hmins : mins (opening t) = 240 := by unfold mins; omega
    simp [sessionLabel, isSessionBreak, hopen, hmins, breakStartMins, breakEndMins]

/-- An order is expected to wait until the time that the reason names, and no longer. -/
structure Waits (t : ℤ) : Prop where
  later : t < opening t
  soon : opening t ≤ t + 48 * 60
  same : ∀ u, t ≤ u → u < opening t → presubmittedReason u = presubmittedReason t
  opens : isIbSessionActive (opening t) = true
  next : sessionLabel (opening t) = if isWeekendClosure t then .overnight else .preMarket

/-- The predicates are those of the session that the label names, one at a time; and a
    reason to wait holds until the time that it names. -/
theorem sessions_agree (t : ℤ) : InSession t (sessionLabel t) ∧ (presubmittedReason t ≠ "" → Waits t) := by
  refine ⟨inSession_label t, fun hreason => ?_⟩
  have hactive := (inSession_label (opening t)).active
  cases hweekend : isWeekendClosure t with
  | true =>
    obtain ⟨hsame, hlater, hsoon, hnext⟩ := weekend_until hweekend
    refine ⟨hlater, hsoon, fun u hfrom huntil => ?_, ?_, ?_⟩
    · rw [presubmittedReason, presubmittedReason, hweekend, hsame u hfrom huntil, if_pos rfl, if_pos rfl]
    · rw [hactive, hnext]
      rfl
    · rw [hnext, hweekend, if_pos rfl]
  | false =>
    have hbreak : isSessionBreak t = true := by
      by_contra hbreak
      exact hreason (by rw [presubmittedReason, hweekend, if_neg Bool.false_ne_true, if_neg hbreak])
    obtain ⟨hsame, hlater, hsoon, hnext⟩ := break_until hbreak
    refine ⟨hlater, by omega, fun u hfrom huntil => ?_, ?_, ?_⟩
    · have hu := hsame u hfrom huntil
      rw [presubmittedReason, presubmittedReason, hweekend, (isSessionBreak_iff.mp hu).1, hbreak, hu]
    · rw [hactive, hnext]
      rfl
    · rw [hnext, hweekend, if_neg Bool.false_ne_true]

end Opening

-- ============================================================================
-- The futures break and the watchdog
-- ============================================================================

def cmeBreakStartMins : ℤ := 17 * 60

def cmeBreakEndMins : ℤ := 18 * 60

/-- `is_cme_futures_break`, in New York. -/
def isCmeFuturesBreak (t : ℤ) : Bool :=
  if isWeekendClosure t then false
  else if 5 ≤ weekday t then false
  else cmeBreakStartMins ≤ mins t ∧ mins t < cmeBreakEndMins

/-- `is_cme_equity_break`, in Chicago. -/
def isCmeEquityBreak (t : ℤ) : Bool := if 4 ≤ weekday t then false else 16 ≤ hour t ∧ hour t < 17

/-- One moment on the wall clocks of New York, Chicago and Los Angeles. -/
structure Clocks where
  et : ℤ
  ct : ℤ
  pt : ℤ

/-- The clocks are as far apart as they are but for the hours in which they change. -/
structure Clocks.Apart (c : Clocks) : Prop where
  ct : c.ct = c.et - 60
  pt : c.pt = c.et - 180

/-- `_ticks_expected_now`. -/
def ticksExpectedNow (c : Clocks) : Bool :=
  if weekday c.pt = 5 then false
  else if weekday c.pt = 6 ∧ hour c.pt < 15 then false
  else if isCmeEquityBreak c.ct then false
  else true

section Futures

variable {c : Clocks}

theorem isCmeFuturesBreak_iff {t : ℤ} : isCmeFuturesBreak t = true ↔
    weekday t < 5 ∧ cmeBreakStartMins ≤ mins t ∧ mins t < cmeBreakEndMins := by
  have hweekend := @isWeekendClosure_iff t
  have hday := weekday_eq t
  have hmins := mins_eq t
  have hlow := minuteOfWeek_nonneg t
  unfold isCmeFuturesBreak cmeBreakStartMins cmeBreakEndMins
  split
  case isTrue h => exact iff_of_false Bool.false_ne_true (by have hbounds := hweekend.mp h; omega)
  case isFalse =>
    split
    case isTrue => exact iff_of_false Bool.false_ne_true (by omega)
    case isFalse => rw [decide_eq_true_iff]; omega

theorem isCmeEquityBreak_iff {t : ℤ} : isCmeEquityBreak t = true ↔ weekday t < 4 ∧ 960 ≤ mins t ∧ mins t < 1020 := by
  unfold isCmeEquityBreak hour
  split
  case isTrue => exact iff_of_false Bool.false_ne_true (by omega)
  case isFalse => rw [decide_eq_true_iff]; omega

theorem breaks_agree (h : c.Apart) :
    isCmeEquityBreak c.ct = true ↔ isCmeFuturesBreak c.et = true ∧ weekday c.et ≠ 4 := by
  rw [isCmeEquityBreak_iff, isCmeFuturesBreak_iff, h.ct]
  unfold weekday mins cmeBreakStartMins cmeBreakEndMins
  omega

/-- From Saturday 3:00 to Sunday 18:00 in New York, and in the breaks of Monday to
    Thursday. -/
theorem ticksExpectedNow_eq_false_iff (h : c.Apart) : ticksExpectedNow c = false ↔
    5 * 1440 + 180 ≤ minuteOfWeek c.et ∧ minuteOfWeek c.et < 6 * 1440 + 1080 ∨
      isCmeFuturesBreak c.et = true ∧ weekday c.et ≠ 4 := by
  have hpt := h.pt
  rw [← breaks_agree h]
  unfold ticksExpectedNow weekday hour mins minuteOfWeek
  split
  case isTrue => exact iff_of_true rfl (.inl (by omega))
  case isFalse =>
    split
    case isTrue => exact iff_of_true rfl (.inl (by omega))
    case isFalse =>
      have hweek : ¬ (5 * 1440 + 180 ≤ c.et % 10080 ∧ c.et % 10080 < 6 * 1440 + 1080) := by omega
      rw [or_iff_right hweek]
      cases isCmeEquityBreak c.ct <;> decide

/-- A poll that alerts is one at which ticks are expected. -/
theorem expected_of_alert {settings : WatchdogSettings} {n : ℕ} {poll : TickPoll}
    (h : (tickSilenceWatchdog settings).emit n poll ≠ []) : poll.ticksExpected = true := by
  have halert : (tickPoll settings n poll).2 = true := by
    by_contra hquiet
    exact h (if_neg hquiet)
  rcases lt_or_ge poll.elapsed settings.startupGraceS with hgrace | hgrace
  · rw [tickPoll_grace hgrace] at halert
    cases halert
  · have hsilent := ((tickPoll_evaluated hgrace n).2.mp halert).1
    exact (Bool.and_eq_true_iff.mp hsilent).2

/-- So the watchdog alerts neither in the weekend nor in a break, whatever it has counted. -/
theorem alert_when_open {settings : WatchdogSettings} {n : ℕ} {poll : TickPoll} (h : c.Apart)
    (hasked : poll.ticksExpected = ticksExpectedNow c) (halert : (tickSilenceWatchdog settings).emit n poll ≠ []) :
    (minuteOfWeek c.et < 5 * 1440 + 180 ∨ 6 * 1440 + 1080 ≤ minuteOfWeek c.et) ∧
      (isCmeFuturesBreak c.et = true → weekday c.et = 4) := by
  have hexpected : ¬ ticksExpectedNow c = false := by
    rw [← hasked, expected_of_alert halert]
    exact Bool.noConfusion
  rw [ticksExpectedNow_eq_false_iff h, not_or] at hexpected
  obtain ⟨hweek, hbreak⟩ := hexpected
  exact ⟨by omega, fun hin => not_not.mp fun hday => hbreak ⟨hin, hday⟩⟩

/-- What the break of the bots, that of the orders and the watchdog say of one moment. -/
structure Consistent (c : Clocks) : Prop where
  /-- On Fridays only the bots know a break. -/
  breaks : isCmeEquityBreak c.ct = true ↔ isCmeFuturesBreak c.et = true ∧ weekday c.et ≠ 4
  silent : ticksExpectedNow c = false → isWeekendClosure c.et = true ∨ isCmeFuturesBreak c.et = true
  /-- In the weekend ticks are expected on Friday night, and once the futures are open. -/
  weekend : isWeekendClosure c.et = true ∧ ticksExpectedNow c = true ↔
    4 * 1440 + 1200 ≤ minuteOfWeek c.et ∧ minuteOfWeek c.et < 5 * 1440 + 180 ∨
      6 * 1440 + 1080 ≤ minuteOfWeek c.et ∧ minuteOfWeek c.et < 6 * 1440 + 1200

theorem clocks_consistent (h : c.Apart) : Consistent c where
  breaks := breaks_agree h
  silent hsilent := by
    rw [isWeekendClosure_iff]
    rcases (ticksExpectedNow_eq_false_iff h).mp hsilent with hweek | hbreak
    · exact .inl (by omega)
    · exact .inr hbreak.1
  weekend := by
    have hday := weekday_eq c.et
    rw [← Bool.not_eq_false (ticksExpectedNow c), ticksExpectedNow_eq_false_iff h, isWeekendClosure_iff,
      isCmeFuturesBreak_iff]
    omega

/-- A Monday at 17:30 in New York. -/
theorem clocks_consistent_monday : Consistent ⟨1050, 990, 870⟩ := clocks_consistent ⟨rfl, rfl⟩

end Futures

end IbTrader.Engine.MarketHours
