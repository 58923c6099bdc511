/-
  IbTrader.Bots.TrailingExit

  The exits of the sawtooth and of the close-trend bot (`_on_quote` of
  `ib_trader/bots/strategies/sawtooth_rsi.py` and of `close_trend_rsi.py`), over exact
  arithmetic.

  The two methods are kept apart in the source, and so are they here.  The log signals,
  the texts of the exits and of the alerts and what only these use are left out; of an
  alert its trigger is kept.
-/

import Mathlib.Algebra.Order.Field.Rat
import IbTrader.Bots.BarAggregator
import IbTrader.Bots.Lifecycle

namespace IbTrader.Bots.TrailingExit

-- ============================================================================
-- Quotes and configuration
-- ============================================================================

/-- `QuoteField`. -/
inductive QuoteField where
  | bid
  | ask
  | last
  | mid
  deriving DecidableEq, Repr

structure QuoteUpdate where
  bid : ℚ
  ask : ℚ
  last : ℚ
  deriving DecidableEq, Repr

/-- The midpoint, or the price there is where a side of the book is missing. -/
def QuoteUpdate.mid (event : QuoteUpdate) : ℚ :=
  if 0 < event.bid ∧ 0 < event.ask then (event.bid + event.ask) / 2
  else if 0 < event.last then event.last
  else if 0 < event.bid then event.bid
  else event.ask

/-- `getattr(event, price_field, event.mid)`. -/
def QuoteUpdate.getattr (event : QuoteUpdate) : QuoteField → ℚ
  | .bid => event.bid
  | .ask => event.ask
  | .last => event.last
  | .mid => event.mid

/-- `exit_cfg`. -/
structure ExitConfig where
  exitPrice : QuoteField := .mid
  hardStopLossPct : ℚ := 1 / 1000
  timeStopMinutes : Option ℚ := none
  trailActivationPct : ℚ := 5 / 10000
  trailWidthPct : ℚ := 15 / 10000
  deriving DecidableEq, Repr

-- ============================================================================
-- State and outcome
-- ============================================================================

/-- What the bot document has of the position; a quantity that does not parse is zero. -/
structure Doc where
  qty : ℚ := 0
  entryPrice : ℚ := 0
  entryTime : Option Datetime := none
  lastPrice : Option ℚ := none
  trailActivated : Bool := false
  highWaterMark : Option ℚ := none
  currentStop : Option ℚ := none
  trailResetCount : Option ℤ := none
  deriving DecidableEq, Repr

inductive ExitType where
  | hardStopLoss
  | trailingStop
  | timeStop
  deriving DecidableEq, Repr

/-- The order of `build_exit_actions`, and why it is placed. -/
structure ExitOrder where
  exitType : ExitType
  side : String := "SELL"
  qty : ℚ
  orderType : String := "smart_market"
  origin : String := "exit"
  deriving DecidableEq, Repr

/-- `build_exit_actions`. -/
def buildExitActions (doc : Doc) (exitType : ExitType) : ExitOrder :=
  { exitType, qty := doc.qty }

/-- The document with the patches of the event, the exit and the alert, if there are any. -/
structure Outcome where
  doc : Doc
  exit : Option ExitOrder := none
  alert : Option String := none
  deriving DecidableEq, Repr

-- ============================================================================
-- The parts of an evaluation
-- ============================================================================

/-- `hard_sl_price`. -/
def hardSlPrice (config : ExitConfig) (entryPrice : ℚ) : ℚ := entryPrice * (1 - config.hardStopLossPct)

/-- `pnl_pct`. -/
def pnlPct (entryPrice currentPrice : ℚ) : ℚ := (currentPrice - entryPrice) / entryPrice

/-- `elapsed_minutes`. -/
def elapsedMinutes (entryTime now : Datetime) : ℚ := ((now - entryTime : ℤ) : ℚ) / 1000000 / 60

/-- `int` of a number, which cuts off the fraction. -/
def truncated (x : ℚ) : ℤ := x.num.tdiv x.den

/-- The time stop has been reached; without one, or without an entry time, it is not. -/
def timeStopReached (config : ExitConfig) (entryTime : Option Datetime) (now : Datetime) : Bool :=
  match config.timeStopMinutes, entryTime with
  | some minutes, some entryTime => (truncated minutes : ℚ) ≤ elapsedMinutes entryTime now
  | some _, none => false
  | none, _ => false

/-- The patch that activates or raises the trail. -/
def raised (config : ExitConfig) (doc : Doc) (hwm : ℚ) : Doc :=
  { doc with
    highWaterMark := some hwm
    currentStop := some (hwm * (1 - config.trailWidthPct))
    trailResetCount := some (doc.trailResetCount.getD 0 + 1) }

-- ============================================================================
-- The sawtooth bot
-- ============================================================================

namespace SawtoothRsi

/-- `_on_quote`. -/
def onQuote (config : ExitConfig) (pos : BotState) (doc : Doc) (now : Datetime) (event : QuoteUpdate) : Outcome :=
  if pos ≠ .awaitingExitTrigger then { doc }
  else if doc.qty ≤ 0 then { doc, alert := some "BOT_INVARIANT_VIOLATED_QTY_ZERO" }
  else if doc.entryPrice ≤ 0 then { doc, alert := some "BOT_INVARIANT_VIOLATED_ENTRY_PRICE" }
  else
    let currentPrice := event.getattr config.exitPrice
    if currentPrice ≤ 0 then { doc }
    else
      let next := { doc with lastPrice := some currentPrice }
      if currentPrice ≤ hardSlPrice config doc.entryPrice then
        { doc := next, exit := some (buildExitActions doc .hardStopLoss) }
      else if timeStopReached config doc.entryTime now then
        { doc := next, exit := some (buildExitActions doc .timeStop) }
      else
        let hwm := doc.highWaterMark.getD currentPrice
        if ¬ doc.trailActivated then
          if config.trailActivationPct ≤ pnlPct doc.entryPrice currentPrice then
            { doc := { raised config next currentPrice with trailActivated := true } }
          else { doc := next }
        else if hwm < currentPrice then { doc := raised config next currentPrice }
        else
          let trailStop := doc.currentStop.getD 0
          if 0 < trailStop ∧ currentPrice ≤ trailStop then
            { doc := next, exit := some (buildExitActions doc .trailingStop) }
          else { doc := next }

end SawtoothRsi

-- ============================================================================
-- The close-trend bot
-- ============================================================================

namespace CloseTrendRsi

/-- `_on_quote`. -/
def onQuote (config : ExitConfig) (pos : BotState) (doc : Doc) (now : Datetime) (event : QuoteUpdate) : Outcome :=
  if pos ≠ .awaitingExitTrigger then { doc }
  else if doc.qty ≤ 0 then { doc, alert := some "BOT_INVARIANT_VIOLATED_QTY_ZERO" }
  else if doc.entryPrice ≤ 0 then { doc, alert := some "BOT_INVARIANT_VIOLATED" }
  else
    let currentPrice := event.getattr config.exitPrice
    if currentPrice ≤ 0 then { doc }
    else
      let next := { doc with lastPrice := some currentPrice }
      if currentPrice ≤ hardSlPrice config doc.entryPrice then
        { doc := next, exit := some (buildExitActions doc .hardStopLoss) }
      else if timeStopReached config doc.entryTime now then
        { doc := next, exit := some (buildExitActions doc .timeStop) }
      else
        let hwm := doc.highWaterMark.getD currentPrice
        if ¬ doc.trailActivated then
          if config.trailActivationPct ≤ pnlPct doc.entryPrice currentPrice then
            { doc := { raised config next currentPrice with trailActivated := true } }
          else { doc := next }
        else if hwm < currentPrice then { doc := raised config next currentPrice }
        else
          let trailStop := doc.currentStop.getD 0
          if 0 < trailStop ∧ currentPrice ≤ trailStop then
            { doc := next, exit := some (buildExitActions doc .trailingStop) }
          else { doc := next }

end CloseTrendRsi

end IbTrader.Bots.TrailingExit
