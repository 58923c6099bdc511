/-
  IbTrader.Engine.CloseFlow

  `execute_close` and `_execute_close_symbol` (`ib_trader/engine/order.py`): the
  cancels of the open exit orders, the closing order by strategy, and the sweep of
  the working orders of a ticker.

  The records of a close are those of `Closing`.  The rows of a sweep belong to no
  trade and are not kept; which orders are on the ticker, and its position, are
  given.
-/

import IbTrader.Engine.EntryOrder

namespace IbTrader.Engine.OrderFlow

open Lib Fallible Data Closing
open SmartMarket (OrderStatus WalkStatus terminalStatuses)

-- ============================================================================
-- Readings and replies
-- ============================================================================

inductive CloseStrategy where
  | limit
  | mid
  | bidAsk
  | market
  | smartMarket
  deriving DecidableEq, Repr

/-- What a `CloseCommand` asks for, with the multiplier of its contract. -/
structure CloseCommand where
  strategy : CloseStrategy
  multiplier : ℚ := 1
  deriving DecidableEq, Repr

/-- A quantity filled with its price and commission. -/
structure FillTotals where
  qty : ℚ
  avgPrice : Option ℚ
  commission : ℚ
  deriving DecidableEq, Repr

/-- What `execute_close` reads of its order when the wait is over. -/
structure CloseReading where
  callback : CallbackTotals := {}
  status : OrderStatus
  /-- `track.is_filled`. -/
  isFilled : Bool := false
  /-- The second status, and the totals by then. -/
  reread : OrderStatus := {}
  rereadCallback : CallbackTotals := {}
  deriving DecidableEq, Repr

/-- `_fill_notional / _fill_qty`, if something has filled. -/
def CallbackTotals.avgPrice (t : CallbackTotals) : Option ℚ :=
  if 0 < t.qty then some (t.notional / t.qty) else none

/-- The check for an immediate fill of a limit close. -/
def CloseReading.immediate (r : CloseReading) : FillTotals :=
  if 0 < r.callback.qty then
    { qty := r.callback.qty
      avgPrice := r.callback.avgPrice
      commission := r.callback.commissionOr r.status }
  else
    { qty := r.status.qtyFilled
      avgPrice := r.status.avgFillPrice
      commission := r.status.commission.getD 0 }

/-- The outcome `execute_close` determines. -/
def CloseReading.outcome (r : CloseReading) : FillTotals :=
  let qty :=
    if r.status.status = "Filled" ∧ 0 < r.status.qtyFilled then r.status.qtyFilled
    else if 0 < r.callback.qty then r.callback.qty
    else r.status.qtyFilled
  let avgPrice := if 0 < r.callback.qty then r.callback.avgPrice else r.status.avgFillPrice
  let commission := r.callback.commissionOr r.status
  -- a Filled without a quantity is read again
  if qty = 0 ∧ r.status.status = "Filled" ∧ r.isFilled = true then
    { qty := if 0 < r.reread.qtyFilled then r.reread.qtyFilled else r.rereadCallback.qty
      avgPrice := avgPrice.or (r.rereadCallback.avgPrice.or r.reread.avgFillPrice)
      commission := if commission = 0 then r.rereadCallback.commissionOr r.reread else commission }
  else { qty, avgPrice, commission }

/-- How the walk of a smart-market close ended. -/
structure CloseWalk where
  status : WalkStatus
  /-- `not is_outside_rth()` when the walk began. -/
  rth : Bool := true
  /-- The quantity read after the walk. -/
  qtyFilled : ℚ := 0
  deriving DecidableEq, Repr

/-- What the awaits of `execute_close` come back with. -/
structure CloseReplies where
  /-- `cancel_order` for an open exit order. -/
  cancelled : ℤ → Reply Unit := fun _ => { value := .ok () }
  /-- The contract and the prices. -/
  prepared : Reply Unit := { value := .ok () }
  placed : Reply ℤ
  /-- The last status of the acknowledgement poll, and the cancel it leads to. -/
  ack : Reply OrderStatus := { value := .ok { status := "Submitted" } }
  ackCancel : Reply Unit := { value := .ok () }
  walk : Reply CloseWalk := { value := .error .exception }
  /-- `_cancel_and_await_resolution` for the limit order of a smart-market close. -/
  settle : Reply SettleReading := { value := .error .exception }
  market : Reply ℤ := { value := .error .exception }
  marketStatus : Reply OrderStatus := { value := .error .exception }
  /-- The end of the wait. -/
  reading : Reply CloseReading := { value := .error .exception }
  cancel : Reply Unit := { value := .ok () }
  /-- The statuses polled after the cancel. -/
  polls : Reply (List OrderStatus) := { value := .ok [] }
  /-- `_cancel_and_await_resolution` in `_handle_close_partial`. -/
  settlePartial : Reply SettleReading := { value := .error .exception }
  /-- `_record_console_close_pnl`. -/
  recordPnl : Reply Unit := { value := .ok () }

-- ============================================================================
-- Records of a close
-- ============================================================================

/-- The record is made, then the console P&L. -/
def recordClose (recorded : Recorded) (recordPnl : Reply Unit) : Flow Unit := do
  modify fun c => { c with trade := recorded.trade }
  runIf recorded.closed (do noteTerminal (← get).orders)
  await recordPnl

/-- `_handle_close_fill`. -/
def closeFill (k : CloseContext) (a : CloseReplies) (qtyFilled avgPrice commission : ℚ) :
    Flow Unit := do
  recordClose (handleCloseFill (← get).trade k qtyFilled avgPrice commission) a.recordPnl

/-- `_handle_close_partial`. -/
def closePartial (k : CloseContext) (a : CloseReplies) (qtyFilled avgPrice commission : ℚ) :
    Flow Unit := do
  writeTxn (cancelAttemptRow k)
  let s ← cancelAndAwaitResolution k.ibOrderId k.qtyRequested a.settlePartial
  let effectiveAvg := s.effectiveAvg qtyFilled avgPrice
  let commission := s.finalCommission commission
  if s.resolution = .filled then
    closeFill k a (s.finalQty qtyFilled) (orElse effectiveAvg avgPrice) commission
  else
    recordClose (recordClosePartial (← get).trade k (s.finalQty qtyFilled) effectiveAvg commission)
      a.recordPnl

/-- A quantity read of the one order of the close. -/
def recordFill (k : CloseContext) (a : CloseReplies) (qtyFilled avgPrice commission : ℚ) :
    Flow Unit :=
  if k.qtyRequested ≤ qtyFilled then do
    hear [k.ibOrderId]
    closeFill k a qtyFilled avgPrice commission
  else closePartial k a qtyFilled avgPrice commission

-- ============================================================================
-- The closing order
-- ============================================================================

/-- The status with which the poll after the cancel finds a fill. -/
def raceFill : List OrderStatus → Option OrderStatus
  | [] => none
  | status :: later =>
    if 0 < status.qtyFilled then some status
    else if status.status ∈ ["Cancelled", "Inactive"] then none
    else raceFill later

/-- No fill: the cancel and ten polls. -/
def giveUpClose (k : CloseContext) (a : CloseReplies) : Flow Unit := do
  await a.cancel
  let polls ← await a.polls
  match raceFill (polls.take 10) with
  | some status =>
    recordFill k a status.qtyFilled (status.avgFillPrice.getD 0) (status.commission.getD 0)
  | none => pure ()

/-- The wait for the order and what comes of it. -/
def awaitClose (k : CloseContext) (a : CloseReplies) : Flow Unit := do
  let reading ← await a.reading
  let outcome := reading.outcome
  match outcome.avgPrice with
  | some avgPrice =>
    if 0 < outcome.qty then recordFill k a outcome.qty avgPrice outcome.commission
    else giveUpClose k a
  | none => giveUpClose k a

/-- A limit close records an immediate full fill and returns. -/
def limitClose (k : CloseContext) (a : CloseReplies) : Flow Unit := do
  let reading ← await a.reading
  let immediate := reading.immediate
  match immediate.avgPrice with
  | some avgPrice =>
    if 0 < immediate.qty ∧ k.qtyRequested ≤ immediate.qty then
      recordFill k a immediate.qty avgPrice immediate.commission
    else pure ()
  | none => pure ()

/-- The fills of the limit order and of the market order, booked under the limit
    order. -/
def recordCrossed (k : CloseContext) (a : CloseReplies) (s : Settlement) (status : OrderStatus) :
    Flow Unit :=
  let totalQty := s.qty + status.qtyFilled
  let blendedAvg :=
    (s.qty * s.avgPrice.getD 0 + status.qtyFilled * status.avgFillPrice.getD 0) / totalQty
  let commission := s.commission + status.commission.getD 0
  if 0 < totalQty then
    if k.qtyRequested ≤ totalQty then closeFill k a totalQty blendedAvg commission
    else closePartial k a totalQty blendedAvg commission
  else pure ()

/-- What the engine has read of a market order for `residual` says it is done. -/
def marketDone (status : OrderStatus) (residual : ℚ) : Bool :=
  status.status ∈ terminalStatuses || residual ≤ status.qtyFilled

/-- The walk has used up its time: the limit order is cancelled and a market order
    is sent for the rest. -/
def crossToMarket (k : CloseContext) (a : CloseReplies) : Flow Unit := do
  let s ← cancelAndAwaitResolution k.ibOrderId k.qtyRequested a.settle
  let residual := k.qtyRequested - s.qty
  if 0 < residual then do
    let marketId ← exceptException (do let id ← await a.market; pure (some id)) (pure none)
    match marketId with
    | none => awaitClose k a
    | some id => do
      modify fun c => { c with orders := c.orders ++ [id] }
      let status ← await a.marketStatus
      runIf (marketDone status residual) (hear [id])
      recordCrossed k a s status
  else awaitClose k a

/-- The post-walk dispatch of a smart-market close. -/
def smartMarketClose (k : CloseContext) (a : CloseReplies) : Flow Unit := do
  let walk ← await a.walk
  if walk.status.hitCap then pure ()
  else if walk.rth = true ∧ walk.status = .durationExpired ∧ walk.qtyFilled < k.qtyRequested then
    crossToMarket k a
  else awaitClose k a

/-- The acknowledgement poll and the strategy. -/
def watchClose (cmd : CloseCommand) (k : CloseContext) (a : CloseReplies) : Flow Unit :=
  if cmd.strategy = .market then awaitClose k a
  else do
    let ack ← await a.ack
    if ackRefused ack.status then await a.ackCancel
    else
      match cmd.strategy with
      | .limit => limitClose k a
      | .smartMarket => smartMarketClose k a
      | .mid | .bidAsk | .market => awaitClose k a

-- ============================================================================
-- Close by serial number
-- ============================================================================

/-- `get_open_for_trade`. -/
def getOpenForTrade (rows : List TransactionEvent) : List TransactionEvent :=
  (getTradeLegSummary rows).filter (!·.isTerminal)

/-- The open profit takers and stop losses, by order. -/
def openExits (rows : List TransactionEvent) : List (ℤ × TransactionEvent) :=
  (getOpenForTrade rows).filterMap fun leg =>
    match leg.ibOrderId with
    | some id =>
      if leg.legType ∈ [LegType.profitTaker, .stopLoss] ∧ id ≠ 0 then some (id, leg) else none
    | none => none

/-- A row of a cancel of an exit order. -/
def siblingRow (action : TransactionAction) (leg : TransactionEvent) : TransactionEvent :=
  placementRow action leg.ibOrderId leg.legType leg.side leg.quantity none

/-- The cancels of the linked open orders. -/
def cancelSiblings (cancelled : ℤ → Reply Unit) : List (ℤ × TransactionEvent) → Flow Unit
  | [] => pure ()
  | (id, leg) :: later => do
    writeTxn (siblingRow .cancelAttempt leg)
    await (cancelled id)
    writeTxn { siblingRow .cancelled leg with isTerminal := true }
    noteTerminal [id]
    cancelSiblings cancelled later

/-- A placement row of the close. -/
def closeRow (action : TransactionAction) (ibOrderId : Option ℤ) (side : Side)
    (qty multiplier : ℚ) : TransactionEvent :=
  placementRow action ibOrderId .close side qty (if multiplier = 0 then none else some multiplier)

/-- `execute_close`. -/
def executeClose (cmd : CloseCommand) (a : CloseReplies) : Flow Unit := do
  let rows := (← get).trade.rows
  match getEntryFill rows, closeQuantity rows with
  | some entry, some qtyToClose => do
    let side := entry.side.opposite
    cancelSiblings a.cancelled (openExits rows)
    await a.prepared
    writeTxn (closeRow .placeAttempt none side qtyToClose cmd.multiplier)
    let ibOrderId ← await a.placed
    writeTxn (closeRow .placeAccepted (some ibOrderId) side qtyToClose cmd.multiplier)
    modify fun c => { c with orders := [ibOrderId] }
    watchClose cmd { ibOrderId, side, qtyRequested := qtyToClose, multiplier := some cmd.multiplier } a
  -- no filled entry, or nothing left of it
  | _, _ => pure ()

-- ============================================================================
-- Close by ticker
-- ============================================================================

/-- A working order of the ticker, with what `cancel_order` comes back with. -/
structure WorkingOrder where
  ibOrderId : ℤ
  cancel : Reply Unit

/-- `_sweep`. -/
def sweep : List WorkingOrder → Flow Unit
  | [] => pure ()
  | order :: later => do
    -- a cancel that fails is alerted and the sweep goes on
    let cancelled ← exceptException (do await order.cancel; pure true) (pure false)
    runIf cancelled (noteTerminal [order.ibOrderId])
    sweep later

/-- The order that nets a position. -/
def nettingOrder (o : OrderContext) (positionQty : ℚ) : OrderContext :=
  { o with side := if 0 < positionQty then .sell else .buy, qtyRequested := |positionQty| }

/-- `_execute_close_symbol`; `working` is the snapshot taken before the order. -/
def executeCloseSymbol (o : OrderContext) (hasBotRef : Bool) (positionQty : ℚ)
    (working : Reply (List WorkingOrder)) (placed : Reply Unit) (run : EntryRun) (a : Replies) :
    Flow Unit := do
  let orders ← await working
  if positionQty = 0 then sweep orders
  else do
    let before := (← get).trade.rows.length
    executeOrder (nettingOrder o positionQty) { hasBotRef } placed run a
    let closeRows := (← get).trade.rows.drop before
    runIf (closeRows.any (·.isFill)) (sweep orders)

end IbTrader.Engine.OrderFlow
