/-
  IbTrader.Engine.SmartMarket

  One run of `_execute_smart_market_order` (`ib_trader/engine/order.py`): a limit
  order walked towards the far side, and in regular hours, when the walk has
  used up its time, a cancel of the limit order and a market order for the rest.

  The coroutine runs next to IB.  It gives up control at every `await`, so a run
  is a sequence of inputs: a piece of the coroutine up to its next `await`, an
  exception out of the call it awaits, or something IB or the IB client does to
  one of the two orders.  Each `Phase` is an `await` the coroutine is
  suspended at, with the locals that are still read after it.

  What the engine knows of an order is the status cached by the client.  It
  trails what IB has done: the cached quantity never exceeds the filled one, and
  the cached text says nothing about the book.  The waits for an event only
  decide how soon the next status is read, the heartbeat and the resync of the
  cancel wait only re-deliver statuses; none of them is a step of its own.
-/

import IbTrader.Data.Transactions
import IbTrader.Engine.Pricing
import IbTrader.Lib.VenueOrder

namespace IbTrader.Engine.SmartMarket

open Lib Data Pricing

-- ============================================================================
-- Orders at IB
-- ============================================================================

/-- What `get_order_status` returns.  The default is the `UNKNOWN` answer for an
    order that is not in the client's cache. -/
structure OrderStatus where
  status : String := "UNKNOWN"
  qtyFilled : ℚ := 0
  avgFillPrice : Option ℚ := none
  commission : Option ℚ := none
  deriving DecidableEq, Repr

/-- One of the two orders: at IB, in the client's cache, and in the engine. -/
structure Leg where
  order : VenueOrder ℚ
  status : OrderStatus := {}
  /-- `track.is_canceled`. -/
  isCanceled : Bool := false
  /-- `_fill_commission` of the order's fill callback. -/
  fillCommission : Option ℚ := none

/-- An order just placed. -/
def Leg.place (qty : ℚ) (h : 0 < qty) : Leg where
  order := VenueOrder.place qty h.le
  status := { status := "PendingSubmit" }

/-- What happens to an order outside the coroutine. -/
inductive LegEvent where
  /-- IB fills some more of the order. -/
  | fill (qty : ℚ)
  /-- The order leaves IB's book: cancelled, rejected or expired. -/
  | takenOff
  /-- The client caches an order status IB has sent. -/
  | orderStatus (status : OrderStatus)
  /-- The engine's `on_status` runs. -/
  | onStatus (status : String)
  /-- The engine's `on_fill` runs. -/
  | onFill (commission : ℚ)
  deriving DecidableEq, Repr

def Leg.handle (leg : Leg) : LegEvent → Leg
  | .fill qty => { leg with order := leg.order.fill qty }
  | .takenOff => { leg with order := leg.order.takeOff }
  | .orderStatus status =>
    -- IB reports fills late, never fills that did not happen
    if status.qtyFilled ≤ leg.order.filled then { leg with status := status } else leg
  | .onStatus status =>
    if status ∈ ["Cancelled", "Inactive"] then { leg with isCanceled := true } else leg
  | .onFill commission => { leg with fillCommission := some commission }

/-- `get_order_status`. -/
def getOrderStatus : Option Leg → OrderStatus
  | some leg => leg.status
  | none => {}

/-- `track.is_canceled`. -/
def isCanceled : Option Leg → Bool
  | some leg => leg.isCanceled
  | none => false

/-- `_fill_commission if _fill_commission is not None else status commission`. -/
def legCommission : Option Leg → ℚ
  | some leg => leg.fillCommission.getD (leg.status.commission.getD 0)
  | none => 0

-- ============================================================================
-- The coroutine
-- ============================================================================

/-- The order and the settings. -/
structure Order where
  side : Side
  qty : ℚ
  tickSize : ℚ
  /-- `smart_market_rth_duration_seconds`. -/
  rthDuration : ℚ := 10
  /-- `smart_market_eth_max_slippage_pct`. -/
  maxSlip : ℚ := 5 / 1000
  /-- `cancel_settle_timeout_seconds`. -/
  settleTimeout : ℚ := 120
  /-- `market_order_wait_seconds`. -/
  marketOrderWait : ℚ := 30
  /-- `execute_order` refuses any other quantity. -/
  qty_pos : 0 < qty

/-- `_slippage_floor`. -/
def slippageFloor (triggerPrice : ℚ) (side : Side) (maxSlipPct : ℚ) : ℚ :=
  match side with
  | .sell => quantizeCents (triggerPrice * (1 - maxSlipPct))
  | .buy => quantizeCents (triggerPrice * (1 + maxSlipPct))

/-- `_apply_cap`. -/
def applyCap (stepPrice floorPrice : ℚ) : Side → ℚ
  | .sell => max stepPrice floorPrice
  | .buy => min stepPrice floorPrice

/-- The `status` of the dict `_walk_limit_aggressive` returns; `hit_cap` is set
    for `cap_reached` alone. -/
inductive WalkStatus where
  | filledOrCanceled
  | durationExpired
  | filled
  | cancelled
  | terminal (status : String)
  | capReached
  | amendFailed
  deriving DecidableEq, Repr

def WalkStatus.hitCap (walk : WalkStatus) : Bool := walk = .capReached

/-- The locals of the walk. -/
structure Walk where
  triggerPrice : ℚ
  rth : Bool
  deadline : Option ℚ
  floorPrice : Option ℚ
  lastSent : ℚ
  deriving DecidableEq, Repr

/-- The locals of the cross to market after the walk. -/
structure Cross where
  triggerPrice : ℚ
  avgPrice : Option ℚ
  commission : ℚ
  deriving DecidableEq, Repr

/-- The locals of the cross to market after the cancel wait. -/
structure Residual where
  triggerPrice : ℚ
  finalQty : ℚ
  effectiveAvg : Option ℚ
  commission : ℚ
  residual : ℚ
  residual_pos : 0 < residual

inductive LegName where
  | limit
  | market
  deriving DecidableEq, Repr

/-- How a run ends: what it hands on to be recorded. -/
inductive Outcome where
  /-- An exception leaves the coroutine. -/
  | raised
  /-- `_handle_fill`. -/
  | handleFill (qtyFilled avgPrice commission : ℚ)
  /-- `_handle_partial`, which cancels the named order and sends none. -/
  | handlePartial (qtyFilled avgPrice commission : ℚ) (leg : LegName)
  /-- `_raise_eth_cap_alert`: the limit order is left resting. -/
  | capAlert (residual : ℚ)
  /-- The market order was refused, with the `_handle_partial` before the raise. -/
  | marketRefused (recorded : Option (ℚ × ℚ × ℚ))
  /-- The group is CLOSED and a CANCELLED row written. -/
  | cancelled
  /-- `residual <= 0` after a settle that is short of a full fill. -/
  | nothingLeft
  deriving DecidableEq, Repr

inductive Phase where
  /-- `_fresh_prices`. -/
  | quoting
  /-- `place_limit_order`. -/
  | placingLimit (triggerPrice floorPrice : ℚ) (rth : Bool)
  /-- The top of the walk's loop. -/
  | walkTop (walk : Walk)
  /-- `get_order_status` at the top of the loop. -/
  | walkStatus (walk : Walk)
  /-- The wait for a fill event and `_get_prices`. -/
  | walkPrices (walk : Walk)
  /-- `get_order_status` before the amend. -/
  | walkPreAmend (walk : Walk) (stepPrice : ℚ)
  /-- `amend_order`. -/
  | walkAmend (walk : Walk) (stepPrice : ℚ)
  /-- `get_order_status` after an amend that raised. -/
  | walkAmendCheck (walk : Walk)
  /-- `get_order_status` after the walk. -/
  | postWalk (walk : Walk) (exit : WalkStatus)
  /-- `cancel_order`. -/
  | cancelling (cross : Cross)
  /-- The top of the cancel wait's loop. -/
  | settleTop (cross : Cross) (deadline : ℚ)
  /-- `get_order_status` in the cancel wait. -/
  | settleStatus (cross : Cross) (deadline : ℚ)
  /-- `get_order_status` after the cancel wait ran out of time. -/
  | settleTimeout (cross : Cross)
  /-- `place_market_order`. -/
  | placingMarket (residual : Residual)
  /-- `_await_full_fill_or_timeout`. -/
  | awaitingMarket (residual : Residual) (deadline : ℚ)
  /-- `get_order_status` of the market order. -/
  | marketStatus (residual : Residual)
  | done (outcome : Outcome)

/-- A run: the two orders and where the coroutine is. -/
structure Run where
  limit : Option Leg := none
  market : Option Leg := none
  phase : Phase := .quoting

/-- What a piece of the coroutine reads other than the two orders. -/
structure Reading where
  now : ℚ := 0
  bid : ℚ := 0
  ask : ℚ := 0
  last : ℚ := 0
  outsideRth : Bool := false
  deriving DecidableEq, Repr

inductive Input where
  | limit (event : LegEvent)
  | market (event : LegEvent)
  /-- The call awaited returns and the coroutine runs on. -/
  | resume (reading : Reading)
  /-- The call awaited raises an `Exception`. -/
  | raises (now : ℚ)
  /-- The task is cancelled while it waits. -/
  | taskCancelled
  deriving DecidableEq, Repr

/-- A bid and an ask, from the last price when there is neither. -/
def quoteOrLast (r : Reading) : ℚ × ℚ :=
  if r.bid = 0 ∧ r.ask = 0 then (r.last, r.last) else (r.bid, r.ask)

/-- From the quotes to the limit order. -/
def quote (order : Order) (r : Reading) : Phase :=
  if r.bid = 0 ∧ r.ask = 0 ∧ r.last = 0 then .done .raised
  else
    match calcMid (quoteOrLast r).1 (quoteOrLast r).2 order.tickSize with
    | none => .done .raised
    | some triggerPrice =>
      .placingLimit triggerPrice (slippageFloor triggerPrice order.side order.maxSlip)
        (!r.outsideRth)

/-- One tick towards the far side, or the far side itself when it is beyond. -/
def nextStep (side : Side) (lastSent bid ask : ℚ) : ℚ :=
  match side with
  | .sell =>
    let stepPrice := lastSent - 1 / 100
    if 0 < bid ∧ bid < stepPrice then bid else stepPrice
  | .buy =>
    let stepPrice := lastSent + 1 / 100
    if 0 < ask ∧ stepPrice < ask then ask else stepPrice

/-- `walkPrices`: from the quotes to the price of the next amend. -/
def walkReprice (order : Order) (walk : Walk) (canceled : Bool) (r : Reading) : Phase :=
  if r.bid = 0 ∧ r.ask = 0 ∧ ¬0 < r.last then .walkTop walk
  else
    let (bid, ask) := quoteOrLast r
    let stepPrice := nextStep order.side walk.lastSent bid ask
    let capped := (walk.floorPrice.map (applyCap stepPrice · order.side)).getD stepPrice
    if walk.floorPrice = some capped ∧ walk.floorPrice = some walk.lastSent then
      .postWalk walk .capReached
    else if quantizeCents capped = walk.lastSent then .walkTop walk
    else if canceled then .postWalk walk .filledOrCanceled
    else .walkPreAmend walk (quantizeCents capped)

/-- The statuses after which the walk does not amend. -/
def terminalStatuses : List String := ["Filled", "Cancelled", "Inactive", "ApiCancelled"]

/-- `walkPreAmend`: the status read just before the amend. -/
def walkCheck (order : Order) (walk : Walk) (stepPrice : ℚ) (status : OrderStatus) : Phase :=
  if status.status ∈ terminalStatuses then .postWalk walk (.terminal status.status)
  else if order.qty ≤ status.qtyFilled then .postWalk walk .filled
  else .walkAmend walk stepPrice

/-- `walkAmendCheck`: the status read after an amend that raised. -/
def amendCheck (order : Order) (walk : Walk) (status : OrderStatus) : Phase :=
  if status.status ∈ terminalStatuses ∨ order.qty ≤ status.qtyFilled then
    .postWalk walk (if status.status = "" then .filled else .terminal status.status)
  else .postWalk walk .amendFailed

/-- The decision after the walk. -/
def postWalk (order : Order) (limit : Option Leg) (walk : Walk) (exit : WalkStatus) : Phase :=
  let status := getOrderStatus limit
  let commission := legCommission limit
  if order.qty ≤ status.qtyFilled ∧ status.avgFillPrice.isSome then
    .done (.handleFill status.qtyFilled (status.avgFillPrice.getD 0) commission)
  else if exit.hitCap then .done (.capAlert (order.qty - status.qtyFilled))
  else if walk.rth ∧ exit = .durationExpired then
    .cancelling {
      triggerPrice := walk.triggerPrice, avgPrice := status.avgFillPrice, commission }
  else if 0 < status.qtyFilled ∧ status.avgFillPrice.isSome then
    .done (.handlePartial status.qtyFilled (status.avgFillPrice.getD 0) commission .limit)
  else .done .cancelled

/-- `effective_avg or trigger_price`. -/
def avgOrTrigger (effectiveAvg : Option ℚ) (triggerPrice : ℚ) : ℚ :=
  match effectiveAvg with
  | some avg => if avg = 0 then triggerPrice else avg
  | none => triggerPrice

/-- What follows the cancel wait, whichever way it ended: the resolution is not
    looked at, only the status it returns. -/
def settled (order : Order) (cross : Cross) (status : OrderStatus) : Phase :=
  let finalQty := status.qtyFilled
  let finalComm := status.commission.getD 0
  let commission := if cross.commission < finalComm then finalComm else cross.commission
  let effectiveAvg := status.avgFillPrice.or cross.avgPrice
  if order.qty ≤ finalQty then
    .done (.handleFill finalQty (avgOrTrigger effectiveAvg cross.triggerPrice) commission)
  else if h : order.qty - finalQty ≤ 0 then .done .nothingLeft
  else
    .placingMarket {
      triggerPrice := cross.triggerPrice
      finalQty, effectiveAvg, commission
      residual := order.qty - finalQty
      residual_pos := not_le.mp h }

/-- The status cached for the limit order ends the cancel wait. -/
def Resolves (order : Order) (limit : Option Leg) : Prop :=
  order.qty ≤ (getOrderStatus limit).qtyFilled ∨
    (getOrderStatus limit).status ∈ ["Cancelled", "Inactive"] ∨ isCanceled limit = true

instance (order : Order) (limit : Option Leg) : Decidable (Resolves order limit) := by
  unfold Resolves; infer_instance

/-- Quantity-weighted average of the parts that have a price. -/
def aggregateAvg (parts : List (ℚ × Option ℚ)) (triggerPrice : ℚ) : ℚ :=
  let priced := parts.filterMap fun part =>
    if 0 < part.1 then part.2.map (part.1, ·) else none
  let denom := (priced.map Prod.fst).sum
  if 0 < denom then quantizeCents ((priced.map fun part => part.2 * part.1).sum / denom)
  else triggerPrice

/-- The two orders combined, once the market order has been waited for. -/
def combined (order : Order) (residual : Residual) (market : Option Leg) : Outcome :=
  let status := getOrderStatus market
  let totalFilled := residual.finalQty + status.qtyFilled
  let aggAvg := aggregateAvg [(residual.finalQty, residual.effectiveAvg),
    (status.qtyFilled, status.avgFillPrice)] residual.triggerPrice
  let aggComm := residual.commission + legCommission market
  if 0 < totalFilled then
    if order.qty ≤ totalFilled then .handleFill totalFilled aggAvg aggComm
    else .handlePartial totalFilled aggAvg aggComm .market
  else .cancelled

/-- The record made when the market order is refused. -/
def refusedRecord (residual : Residual) : Option (ℚ × ℚ × ℚ) :=
  if 0 < residual.finalQty then
    residual.effectiveAvg.map (residual.finalQty, ·, residual.commission)
  else none

/-- The coroutine from one `await` to the next. -/
def resume (order : Order) (run : Run) (r : Reading) : Run :=
  match run.phase with
  | .quoting => { run with phase := quote order r }
  | .placingLimit triggerPrice floorPrice rth =>
    { run with
      limit := some (Leg.place order.qty order.qty_pos)
      phase := .walkTop {
        triggerPrice, rth
        deadline := if rth then some (r.now + order.rthDuration) else none
        floorPrice := if rth then none else some floorPrice
        lastSent := triggerPrice } }
  | .walkTop walk =>
    if isCanceled run.limit then { run with phase := .postWalk walk .filledOrCanceled }
    else if (walk.deadline.any fun deadline => deadline ≤ r.now) then
      { run with phase := .postWalk walk .durationExpired }
    else { run with phase := .walkStatus walk }
  | .walkStatus walk =>
    let status := getOrderStatus run.limit
    if order.qty ≤ status.qtyFilled then { run with phase := .postWalk walk .filled }
    else if status.status ∈ ["Cancelled", "Inactive"] then
      { run with phase := .postWalk walk .cancelled }
    else { run with phase := .walkPrices walk }
  | .walkPrices walk => { run with phase := walkReprice order walk (isCanceled run.limit) r }
  | .walkPreAmend walk stepPrice =>
    { run with phase := walkCheck order walk stepPrice (getOrderStatus run.limit) }
  | .walkAmend walk stepPrice => { run with phase := .walkTop { walk with lastSent := stepPrice } }
  | .walkAmendCheck walk => { run with phase := amendCheck order walk (getOrderStatus run.limit) }
  | .postWalk walk exit => { run with phase := postWalk order run.limit walk exit }
  | .cancelling cross => { run with phase := .settleTop cross (r.now + order.settleTimeout) }
  | .settleTop cross deadline =>
    if deadline ≤ r.now then { run with phase := .settleTimeout cross }
    else { run with phase := .settleStatus cross deadline }
  | .settleStatus cross deadline =>
    if Resolves order run.limit then
      { run with phase := settled order cross (getOrderStatus run.limit) }
    else { run with phase := .settleTop cross deadline }
  | .settleTimeout cross => { run with phase := settled order cross (getOrderStatus run.limit) }
  | .placingMarket residual =>
    { run with
      market := some (Leg.place residual.residual residual.residual_pos)
      phase := .awaitingMarket residual (r.now + order.marketOrderWait) }
  | .awaitingMarket residual deadline =>
    if deadline ≤ r.now ∨ isCanceled run.market = true ∨
        residual.residual ≤ (getOrderStatus run.market).qtyFilled then
      { run with phase := .marketStatus residual }
    else run
  | .marketStatus residual => { run with phase := .done (combined order residual run.market) }
  | .done _ => run

/-- The call awaited raises. -/
def raises (order : Order) (run : Run) (now : ℚ) : Run :=
  match run.phase with
  | .walkPreAmend walk stepPrice =>
    -- `_pre = {"status": "", "qty_filled": 0}`
    { run with phase := walkCheck order walk stepPrice { status := "" } }
  | .walkAmend walk _ => { run with phase := .walkAmendCheck walk }
  | .walkAmendCheck walk => { run with phase := amendCheck order walk { status := "" } }
  | .cancelling cross =>
    -- CANCEL_SUBMIT_FAILED is logged and the wait goes on
    { run with phase := .settleTop cross (now + order.settleTimeout) }
  | .placingMarket residual => { run with phase := .done (.marketRefused (refusedRecord residual)) }
  | .done _ => run
  | _ => { run with phase := .done .raised }

/-- The task is cancelled. -/
def taskCancelled (run : Run) : Run :=
  match run.phase with
  | .done _ => run
  | _ => { run with phase := .done .raised }

/-- One input. -/
def step (order : Order) (run : Run) : Input → Run
  | .limit event => { run with limit := run.limit.map (·.handle event) }
  | .market event => { run with market := run.market.map (·.handle event) }
  | .resume r => resume order run r
  | .raises now => raises order run now
  | .taskCancelled => taskCancelled run

/-- The run from its start. -/
def runFrom (order : Order) (inputs : List Input) : Run := inputs.foldl (step order) {}

end IbTrader.Engine.SmartMarket
