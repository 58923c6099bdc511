/-
  IbTrader.Bots.ChartStop

  The stop of the chart-signal bot (`_on_fill`, `_evaluate_exit` and `_on_quote` of
  `ib_trader/bots/strategies/chart_signal.py`), over exact arithmetic.

  Three writers keep the water mark and the published stop: the entry fill, which seeds
  them, the close of a bar and a tick.  The last two compute the stop in the same way, the
  tighter of a line and of a band behind the water mark (`Doc.ratchet`), but a bar takes
  the entry line where it has got to and a tick takes it where it was at the entry.

  The exit on a counter line is an input of a tick.  Its cache, the alert for the futures
  dead zone, the log signals and the texts of `exit_detail` are left out.
-/

import Mathlib.Algebra.Order.Field.Rat
import IbTrader.Bots.BarAggregator
import IbTrader.Bots.Lifecycle

namespace IbTrader.Bots.ChartSignal

-- ============================================================================
-- Configuration and state
-- ============================================================================

structure Config where
  trailWidthPct : Option ℚ := none
  touchToleranceFraction : ℚ := 2 / 10000
  entryLineMaxAgeHours : ℚ := 8
  counterExitEnabled : Bool := true
  slLingerMarginalSeconds : ℚ := 10
  slCheckCleanSeconds : ℚ := 60
  contractMultiplier : ℚ := 1
  deriving DecidableEq, Repr

/-- The trail width of the evaluations. -/
def Config.trailWidth (config : Config) : ℚ := config.trailWidthPct.getD (3 / 10000)

/-- The trail width of the seed, which has a default of its own. -/
def Config.seedWidth (config : Config) : ℚ := config.trailWidthPct.getD (2 / 10000)

/-- `entry_line`. -/
structure EntryLine where
  direction : Direction := .long
  anchorTime : Option Datetime
  anchorPrice : ℚ := 0
  slopePerSec : ℚ := 0
  lineValueAtEntry : Option ℚ := none
  entryPath : String := "touch"
  marginal : Bool := false
  deriving DecidableEq, Repr

/-- What the bot document has of the position. -/
structure Doc where
  entryLine : Option EntryLine := none
  tradeSerial : Option ℤ := none
  entryPrice : ℚ := 0
  entryTime : Option Datetime := none
  qty : ℚ := 0
  lastPrice : Option ℚ := none
  unrealizedPnl : Option ℚ := none
  highWaterMark : Option ℚ := none
  lowWaterMark : Option ℚ := none
  activeStop : Option ℚ := none
  /-- `start_ts` of `sl_touch`. -/
  slTouch : Option Datetime := none
  slLastCheckTs : Option Datetime := none
  exitReason : Option String := none
  deriving DecidableEq, Repr

/-- The document to save, and the reason of the exit order if one is placed. -/
structure Outcome where
  doc : Doc
  exit : Option String := none
  deriving DecidableEq, Repr

/-- `total_seconds` of a difference. -/
def secondsSince (start now : Datetime) : ℚ := ((now - start : ℤ) : ℚ) / 1000000

-- ============================================================================
-- Directions
-- ============================================================================

/-- The better of two prices for the position, as of two water marks, and the tighter of
    two stops. -/
def better : Direction → ℚ → ℚ → ℚ
  | .long, a, b => max a b
  | .short, a, b => min a b

/-- The band behind the water mark. -/
def trailStop (d : Direction) (width waterMark : ℚ) : ℚ :=
  match d with
  | .long => waterMark * (1 - width)
  | .short => waterMark * (1 + width)

/-- The price has reached the level from the side of the position. -/
def reached (d : Direction) (price level : ℚ) : Bool :=
  match d with
  | .long => price ≤ level
  | .short => level ≤ price

/-- The price is beyond the level. -/
def beyond (d : Direction) (price level : ℚ) : Bool :=
  match d with
  | .long => price < level
  | .short => level < price

/-- The level moved away from the position. -/
def slack (d : Direction) (level tol : ℚ) : ℚ :=
  match d with
  | .long => level - tol
  | .short => level + tol

namespace Doc

/-- The direction of the position, long where there is no line. -/
def direction (doc : Doc) : Direction := doc.entryLine.elim .long (·.direction)

/-- `high_water_mark` of a long position, `low_water_mark` of a short one. -/
def waterMark (doc : Doc) : Direction → Option ℚ
  | .long => doc.highWaterMark
  | .short => doc.lowWaterMark

def setWaterMark (doc : Doc) (d : Direction) (price : ℚ) : Doc :=
  match d with
  | .long => { doc with highWaterMark := some price }
  | .short => { doc with lowWaterMark := some price }

/-- The water mark with a further price. -/
def nextMark (doc : Doc) (price : ℚ) : ℚ :=
  better doc.direction ((doc.waterMark doc.direction).getD price) price

/-- The band behind it. -/
def trail (doc : Doc) (config : Config) (price : ℚ) : ℚ :=
  trailStop doc.direction config.trailWidth (doc.nextMark price)

/-- The stop: the tighter of the line, if there is one, and of the band. -/
def stopAt (doc : Doc) (config : Config) (price : ℚ) (line : Option ℚ) : ℚ :=
  line.elim (doc.trail config price) fun value => better doc.direction value (doc.trail config price)

/-- The water mark and the stop are recorded. -/
def ratchet (doc : Doc) (config : Config) (price : ℚ) (line : Option ℚ) : Doc :=
  { doc.setWaterMark doc.direction (doc.nextMark price) with activeStop := some (doc.stopAt config price line) }

end Doc

-- ============================================================================
-- The entry fill
-- ============================================================================

/-- `OrderFilled`, with the time at which it is handled. -/
structure Fill where
  side : String
  qty : ℚ
  fillPrice : ℚ
  tradeSerial : Option ℤ := none
  now : Datetime
  deriving DecidableEq, Repr

/-- The fill is one of the entry leg. -/
def isEntryLeg (state : BotState) (doc : Doc) (fill : Fill) : Bool :=
  state = .awaitingExitTrigger ∧
    (doc.direction = .long ∧ fill.side = "BUY" ∨ doc.direction = .short ∧ fill.side = "SELL")

/-- What the entry fill writes. -/
def entered (config : Config) (doc : Doc) (fill : Fill) : Doc :=
  { doc.setWaterMark doc.direction fill.fillPrice with
    tradeSerial := fill.tradeSerial
    entryPrice := fill.fillPrice
    entryTime := some fill.now
    qty := fill.qty
    activeStop := some (trailStop doc.direction config.seedWidth fill.fillPrice)
    slTouch := none
    slLastCheckTs := some fill.now }

/-- `_on_fill`, of the entry leg. -/
def onFill (config : Config) (state : BotState) (doc : Doc) (fill : Fill) : Option Doc :=
  if isEntryLeg state doc fill then some (entered config doc fill) else none

/-- A fill of the entry leg. -/
theorem onFill_eq_some {config : Config} {state : BotState} {doc next : Doc} {fill : Fill}
    (h : onFill config state doc fill = some next) : next = entered config doc fill := by
  unfold onFill at h
  split at h
  · exact (Option.some.inj h).symm
  · exact absurd h.symm (Option.some_ne_none next)

-- ============================================================================
-- The close of a bar
-- ============================================================================

/-- The entry line where it has got to; none where the evaluation is skipped, for want of
    a line with an anchor or because it is too old. -/
def projectedLine (config : Config) (doc : Doc) (barTime : Datetime) : Option ℚ :=
  match doc.entryLine with
  | none => none
  | some line =>
    match line.anchorTime with
    | none => none
    | some anchorTime =>
      if line.anchorPrice ≤ 0 then none
      else if config.entryLineMaxAgeHours * 3600 < secondsSince anchorTime barTime then none
      else some (line.anchorPrice + line.slopePerSec * secondsSince anchorTime barTime)

/-- The bar has closed beyond the line, from which an acceleration entry is exempt. -/
def breachLine (config : Config) (doc : Doc) (barClose lineValue : ℚ) : Bool :=
  doc.entryLine.any (·.entryPath ≠ "accel") ∧
    beyond doc.direction barClose (slack doc.direction lineValue (|lineValue| * config.touchToleranceFraction))

/-- `_evaluate_exit`. -/
def evaluateExit (config : Config) (doc : Doc) (barTime : Datetime) (barClose : ℚ) : Outcome :=
  match projectedLine config doc barTime with
  | none => { doc }
  | some lineValue =>
    let line := breachLine config doc barClose lineValue
    let trail := beyond doc.direction barClose (doc.trail config barClose)
    let next := doc.ratchet config barClose (some lineValue)
    if line ∨ trail then
      let reason := if line ∧ trail then "both" else if trail then "trail_stop" else "line_breach"
      { doc := { next with exitReason := some reason }, exit := some reason }
    else { doc := next }

-- ============================================================================
-- A tick
-- ============================================================================

/-- The line as it was at the entry. -/
def frozenLine (doc : Doc) : Option ℚ := doc.entryLine.bind (·.lineValueAtEntry)

/-- `unrealized`. -/
def unrealized (config : Config) (doc : Doc) (last : ℚ) : ℚ :=
  match doc.direction with
  | .long => (last - doc.entryPrice) * doc.qty * config.contractMultiplier
  | .short => (doc.entryPrice - last) * doc.qty * config.contractMultiplier

/-- The timer of a marginal trade, and whether it fires. -/
def lingerTimer (config : Config) (doc : Doc) (now : Datetime) (breached : Bool) : Option Datetime × Bool :=
  if breached then
    match doc.slTouch with
    | none => (some now, false)
    | some start =>
      if config.slLingerMarginalSeconds ≤ secondsSince start now then (none, true) else (some start, false)
  else (none, false)

/-- The sample clock of a clean trade, and whether it fires; a clock that is not set is
    one at which the interval has passed. -/
def pollTimer (config : Config) (doc : Doc) (now : Datetime) (breached : Bool) : Option Datetime × Bool :=
  let sinceLast := doc.slLastCheckTs.elim config.slCheckCleanSeconds (secondsSince · now)
  if config.slCheckCleanSeconds ≤ sinceLast then (some now, breached) else (doc.slLastCheckTs, false)

/-- The trade is one with less confidence. -/
def isMarginal (doc : Doc) : Bool := doc.entryLine.any (·.marginal)

/-- The timer that the trade has is kept, and tells whether the stop fires. -/
def timed (config : Config) (doc next : Doc) (now : Datetime) (breached : Bool) : Doc × Bool :=
  if isMarginal doc then
    ({ next with slTouch := (lingerTimer config doc now breached).1 }, (lingerTimer config doc now breached).2)
  else
    ({ next with slLastCheckTs := (pollTimer config doc now breached).1 }, (pollTimer config doc now breached).2)

/-- The tick has reached the stop. -/
def breachedAt (config : Config) (doc : Doc) (mid : ℚ) : Bool :=
  reached doc.direction mid (doc.stopAt config mid (frozenLine doc))

/-- The rest of `_on_quote`, once no counter line has asked for an exit. -/
def onStop (config : Config) (doc : Doc) (now : Datetime) (mid : ℚ) : Outcome :=
  let next := doc.ratchet config mid (frozenLine doc)
  let (next, fire) := timed config doc next now (breachedAt config doc mid)
  if fire then { doc := { next with exitReason := some "trail_stop" }, exit := some "trail_stop" }
  else { doc := next }

/-- The exit that a counter line asks for. -/
def counterAsked (config : Config) (counterExit : Option String) : Option String :=
  if config.counterExitEnabled then counterExit else none

/-- `_on_quote`, with what the check of the counter lines comes to. -/
def onQuote (config : Config) (state : BotState) (doc : Doc) (now : Datetime) (mid : ℚ)
    (counterExit : Option String) : Outcome :=
  if state ≠ .awaitingExitTrigger then { doc }
  else if doc.entryPrice ≤ 0 ∨ doc.qty ≤ 0 then { doc }
  else if mid ≤ 0 then { doc }
  else
    let doc := { doc with lastPrice := some mid, unrealizedPnl := some (unrealized config doc mid) }
    match counterAsked config counterExit with
    | some label => { doc := { doc with exitReason := some label }, exit := some label }
    | none => onStop config doc now mid

-- ============================================================================
-- A position
-- ============================================================================

/-- What reaches the bot while it holds the position. -/
inductive Event where
  | bar (barTime : Datetime) (barClose : ℚ)
  | tick (now : Datetime) (mid : ℚ) (counterExit : Option String := none)
  deriving DecidableEq, Repr

def handle (config : Config) (doc : Doc) : Event → Outcome
  | .bar barTime barClose => evaluateExit config doc barTime barClose
  | .tick now mid counterExit => onQuote config .awaitingExitTrigger doc now mid counterExit

/-- The document before an event of the position; the patches of one are there at the
    next. -/
def docAt (config : Config) (start : Doc) (events : ℕ → Event) : ℕ → Doc
  | 0 => start
  | k + 1 => (handle config (docAt config start events k) (events k)).doc

end IbTrader.Bots.ChartSignal
