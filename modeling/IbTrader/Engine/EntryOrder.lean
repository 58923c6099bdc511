/-
  IbTrader.Engine.EntryOrder

  `execute_order` for every strategy (`ib_trader/engine/order.py`): what the
  coroutine has read of its order decides how it ends, and each way of ending
  makes its own records.

  A wait or a reprice loop is the statuses read when it is over; the smart-market
  walk is the run of `SmartMarket`.  The checks before the order is placed leave
  nothing behind and are not modelled.
-/

import IbTrader.Engine.OrderFlow

namespace IbTrader.Engine.OrderFlow

open Lib Fallible Data Closing
open SmartMarket (OrderStatus terminalStatuses)

-- ============================================================================
-- How the watching of the order ends
-- ============================================================================

inductive Ending where
  | raised
  /-- The order is not acknowledged, or refused at once. -/
  | rejected (status : String)
  /-- PreSubmitted in an active session. -/
  | notRouted
  /-- The order is left to itself, or has come to nothing; nothing is recorded. -/
  | letBe
  /-- IB has set the order Inactive. -/
  | inactive
  /-- `track.is_canceled`. -/
  | canceledByIb
  /-- Nothing has filled. -/
  | gaveUp
  /-- The order window is over without a fill. -/
  | expired
  /-- `_handle_fill`. -/
  | filled (qtyFilled : ℚ) (avgPrice : Option ℚ) (commission : ℚ)
  /-- `_handle_partial`. -/
  | partlyFilled (ibOrderId : ℤ) (qtyFilled : ℚ) (avgPrice : Option ℚ) (commission : ℚ)
  /-- The market order is refused, after `_handle_partial` if something has filled. -/
  | marketRefused (recorded : Option (ℚ × ℚ × ℚ))
  deriving DecidableEq, Repr

/-- The last status of the acknowledgement poll ends the order. -/
def ackRefused (status : String) : Bool :=
  status ∈ ["", "PendingSubmit"] || status ∈ ["Cancelled", "Inactive"]

/-- Limit and stop orders. -/
structure RestingReadings where
  ack : OrderStatus
  final : OrderStatus
  deriving DecidableEq, Repr

/-- `_execute_limit_order` and `_execute_stop_order`. -/
def RestingReadings.ending (qty : ℚ) (r : RestingReadings) : Ending :=
  if ackRefused r.ack.status then .rejected r.ack.status
  else if 0 < r.final.qtyFilled ∧ r.final.avgFillPrice.isSome ∧ qty ≤ r.final.qtyFilled then
    .filled r.final.qtyFilled r.final.avgFillPrice (r.final.commission.getD 0)
  else .letBe

structure MidReadings where
  ack : OrderStatus
  /-- The last status of the PreSubmitted settle wait. -/
  settled : OrderStatus := {}
  /-- `is_ib_session_active()`. -/
  sessionActive : Bool := true
  final : OrderStatus := {}
  /-- `_fill_commission`. -/
  fillCommission : Option ℚ := none
  deriving DecidableEq, Repr

/-- The outcome `_execute_mid_order` determines after its waits. -/
def MidReadings.outcome (ibOrderId : ℤ) (qty : ℚ) (r : MidReadings) : Ending :=
  let commission := r.fillCommission.getD (r.final.commission.getD 0)
  if 0 < r.final.qtyFilled ∧ r.final.avgFillPrice.isSome then
    if qty ≤ r.final.qtyFilled then .filled r.final.qtyFilled r.final.avgFillPrice commission
    else .partlyFilled ibOrderId r.final.qtyFilled r.final.avgFillPrice commission
  else if r.final.status = "Inactive" then .inactive
  else .expired

/-- `_execute_mid_order`. -/
def MidReadings.ending (ibOrderId : ℤ) (qty : ℚ) (r : MidReadings) : Ending :=
  if ackRefused r.ack.status then .rejected r.ack.status
  else if r.ack.status = "PreSubmitted" then
    if r.settled.status = "Filled" ∧ 0 < r.settled.qtyFilled ∧ truthy r.settled.avgFillPrice then
      .filled r.settled.qtyFilled r.settled.avgFillPrice (r.settled.commission.getD 0)
    else if r.settled.status = "PreSubmitted" then
      if r.sessionActive then .notRouted else .letBe
    else r.outcome ibOrderId qty
  else r.outcome ibOrderId qty

/-- The totals of an order's fill callback: `_fill_qty`, `_fill_notional` and
    `_fill_commission`. -/
structure CallbackTotals where
  qty : ℚ := 0
  notional : ℚ := 0
  commission : ℚ := 0
  deriving DecidableEq, Repr

/-- `_fill_commission` if there is one, else the status's. -/
def CallbackTotals.commissionOr (t : CallbackTotals) (status : OrderStatus) : ℚ :=
  if 0 < t.commission then t.commission else status.commission.getD 0

structure BidAskReadings where
  callback : CallbackTotals := {}
  final : OrderStatus
  isCanceled : Bool := false
  sessionActive : Bool := true
  deriving DecidableEq, Repr

/-- `_execute_bid_ask_order`. -/
def BidAskReadings.ending (ibOrderId : ℤ) (qty : ℚ) (r : BidAskReadings) : Ending :=
  let qtyFilled := if 0 < r.callback.qty then r.callback.qty else r.final.qtyFilled
  let avgPrice :=
    if 0 < r.callback.qty then some (r.callback.notional / r.callback.qty) else r.final.avgFillPrice
  let commission := r.callback.commissionOr r.final
  if 0 < qtyFilled ∧ avgPrice.isSome then
    if qty ≤ qtyFilled then .filled qtyFilled avgPrice commission
    else .partlyFilled ibOrderId qtyFilled avgPrice commission
  else if r.isCanceled then .canceledByIb
  else if r.final.status = "PreSubmitted" then if r.sessionActive then .notRouted else .letBe
  else .letBe

structure MarketReadings where
  callback : CallbackTotals := {}
  final : OrderStatus
  deriving DecidableEq, Repr

/-- `_execute_market_order`. -/
def MarketReadings.ending (ibOrderId : ℤ) (qty : ℚ) (r : MarketReadings) : Ending :=
  let qtyFilled := if 0 < r.callback.qty then r.callback.qty else r.final.qtyFilled
  let avgPrice :=
    if 0 < r.callback.qty then some (r.callback.notional / r.callback.qty) else r.final.avgFillPrice
  let commission :=
    if 0 < r.callback.qty then r.callback.commissionOr r.final else r.final.commission.getD 0
  if qty ≤ qtyFilled then .filled qtyFilled avgPrice commission
  else if 0 < qtyFilled then .partlyFilled ibOrderId qtyFilled avgPrice commission
  else .letBe

/-- What the engine has read of an order of the smart-market run says it is done. -/
def legDone (leg : SmartMarket.Leg) : Bool :=
  leg.isCanceled || leg.status.status ∈ terminalStatuses ||
    leg.order.requested ≤ leg.status.qtyFilled

/-- The ids of the orders of a smart-market run that meet a test. -/
def legIds (limitId marketId : ℤ) (run : SmartMarket.Run) (p : SmartMarket.Leg → Bool) : List ℤ :=
  (if run.limit.any p then [limitId] else []) ++ if run.market.any p then [marketId] else []

/-- `_execute_smart_market_order`. -/
def smartEnding (limitId marketId : ℤ) (run : SmartMarket.Run) : Ending :=
  match run.phase with
  | .done .raised => .raised
  | .done (.handleFill qtyFilled avgPrice commission) => .filled qtyFilled (some avgPrice) commission
  | .done (.handlePartial qtyFilled avgPrice commission .limit) =>
    .partlyFilled limitId qtyFilled (some avgPrice) commission
  | .done (.handlePartial qtyFilled avgPrice commission .market) =>
    .partlyFilled marketId qtyFilled (some avgPrice) commission
  | .done (.marketRefused recorded) => .marketRefused recorded
  | .done .cancelled => .gaveUp
  | .done (.capAlert _) | .done .nothingLeft => .letBe
  -- the coroutine still runs
  | _ => .letBe

-- ============================================================================
-- The command
-- ============================================================================

/-- What a coroutine has read of its order, by strategy. -/
inductive EntryRun where
  /-- An await of the coroutine raises. -/
  | raised
  /-- LIMIT and STOP. -/
  | resting (r : RestingReadings)
  | mid (r : MidReadings)
  | bidAsk (r : BidAskReadings)
  | market (r : MarketReadings)
  | smartMarket (marketId : ℤ) (run : SmartMarket.Run)

def EntryRun.ending (o : OrderContext) : EntryRun → Ending
  | .raised => .raised
  | .resting r => r.ending o.qtyRequested
  | .mid r => r.ending o.ibOrderId o.qtyRequested
  | .bidAsk r => r.ending o.ibOrderId o.qtyRequested
  | .market r => r.ending o.ibOrderId o.qtyRequested
  | .smartMarket marketId run => smartEnding o.ibOrderId marketId run

/-- The orders of the entry leg. -/
def EntryRun.orders (o : OrderContext) : EntryRun → List ℤ
  | .smartMarket marketId run => o.ibOrderId :: if run.market.isSome then [marketId] else []
  | _ => [o.ibOrderId]

/-- The orders the coroutine has read to be done. -/
def EntryRun.done (o : OrderContext) : EntryRun → List ℤ
  | .smartMarket marketId run => legIds o.ibOrderId marketId run legDone
  | _ => []

/-- The end of `_execute_mid_order` without a fill: the cancel and its race. -/
def expire (o : OrderContext) (cmd : Command) (a : Replies) : Flow Unit := do
  writeTxn (entryRow o .cancelAttempt (some o.ibOrderId) o.qtyRequested)
  let s ← cancelAndAwaitResolution o.ibOrderId o.qtyRequested a.settle
  if s.resolution = .filled then
    handleFill o cmd a s.qty (some (s.avgPrice.getD 0)) s.commission
  else if 0 < s.qty then do
    -- a late partial fill
    recordPartial o a o.ibOrderId s s.qty s.avgPrice s.commission
    runIf (!cmd.hasBotRef) (emitConsoleClosePnl o (some (s.avgPrice.getD 0)) a.recordPnl)
  else do
    let written ← finalizePartialCancel o o.ibOrderId s.resolution a.probe
    runIf written closeGroup

/-- What is recorded at each ending. -/
def finish (o : OrderContext) (cmd : Command) (a : Replies) : Ending → Flow Unit
  | .raised => throw .exception
  | .rejected status => do
    await a.cancel
    runIf (status ∈ terminalStatuses) (hear [o.ibOrderId])
    closeGroup
    writeTxn { entryRow o .placeRejected (some o.ibOrderId) o.qtyRequested with isTerminal := true }
    throw .exception
  | .notRouted => do
    await a.cancel
    closeGroup
  | .letBe => pure ()
  | .inactive => do
    hear [o.ibOrderId]
    writeTxn (entryRow o .cancelAttempt (some o.ibOrderId) o.qtyRequested)
    await a.cancel
    closeGroup
    writeCancelled o o.ibOrderId
  | .canceledByIb => do
    hear [o.ibOrderId]
    closeGroup
  | .gaveUp => do
    closeGroup
    writeCancelled o o.ibOrderId
  | .expired => expire o cmd a
  | .filled qtyFilled avgPrice commission => handleFill o cmd a qtyFilled avgPrice commission
  | .partlyFilled ibOrderId qtyFilled avgPrice commission =>
    handlePartial o cmd a ibOrderId qtyFilled avgPrice commission
  | .marketRefused none => throw .exception
  | .marketRefused (some (qtyFilled, avgPrice, commission)) => do
    handlePartial o cmd a o.ibOrderId qtyFilled (some avgPrice) commission
    throw .exception

/-- `execute_order`, from the order it sends. -/
def executeOrder (o : OrderContext) (cmd : Command) (placed : Reply Unit) (run : EntryRun)
    (a : Replies) : Flow Unit := do
  writeTxn (entryRow o .placeAttempt none o.qtyRequested)
  await placed
  writeTxn (entryRow o .placeAccepted (some o.ibOrderId) o.qtyRequested)
  modify fun c => { c with orders := run.orders o }
  hear (a.heard ++ run.done o)
  finish o cmd a (run.ending o)

end IbTrader.Engine.OrderFlow
