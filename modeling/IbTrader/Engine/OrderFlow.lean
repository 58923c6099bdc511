/-
  IbTrader.Engine.OrderFlow

  The coroutines of the engine's order commands (`ib_trader/engine/order.py`) from
  what their awaits come back with, and the handlers they share: the full fill of
  an entry with its protective orders, the partial fill, and the cancel of what is
  left of an order.

  A coroutine runs from one await to the next without a break, so a run is
  determined by its replies.  A reply also says for which orders IB reported a
  terminal status while the coroutine waited; what IB has reported so far is part
  of the state, and is noted with every terminal record.  The price of an order is
  kept where it decides what happens.  Console output and logging are left out,
  an alert counts as raised when `log_and_alert` is called.
-/

import IbTrader.Lib.Fallible
import IbTrader.Engine.TradeHistory
import IbTrader.Engine.SmartMarket

namespace IbTrader.Engine.OrderFlow

open Lib Fallible Data Pricing Closing
open SmartMarket (OrderStatus)

-- ============================================================================
-- State
-- ============================================================================

/-- Why a coroutine is left. -/
inductive Raised where
  | exception
  /-- `asyncio.CancelledError`, which no `except Exception` catches. -/
  | taskCancelled
  deriving DecidableEq, Repr

/-- What an await comes back with. -/
structure Reply (α : Type) where
  value : Except Raised α
  /-- The orders for which IB reported a terminal status meanwhile. -/
  reported : List ℤ := []

/-- A CANCELLED row or a move of the group to CLOSED. -/
structure Terminal where
  /-- The orders of the leg it is about. -/
  orders : List ℤ
  /-- The orders IB had reported terminal by then. -/
  reported : List ℤ
  deriving DecidableEq, Repr

inductive ProtectiveLeg where
  | profitTaker
  | trailingStop
  | stopLoss
  deriving DecidableEq, Repr

/-- A protective order the engine sends, or declines to send. -/
structure ExitOrder where
  leg : ProtectiveLeg
  side : Side
  qty : ℚ
  price : Option ℚ := none
  ocaGroup : Option String := none
  deriving DecidableEq, Repr

inductive ExitAct where
  | placed (order : ExitOrder) (ibOrderId : ℤ)
  | failed (order : ExitOrder)
  | refused (order : ExitOrder)
  | alert (leg : ProtectiveLeg) (trigger : String)
  deriving DecidableEq, Repr

structure Ctx where
  trade : Trade := {}
  /-- The orders the coroutine has placed for its leg. -/
  orders : List ℤ := []
  /-- The orders IB has reported terminal. -/
  reported : List ℤ := []
  terminals : List Terminal := []
  exits : List ExitAct := []
  deriving DecidableEq, Repr

abbrev Flow := EStateM Raised Ctx

/-- IB has reported the orders terminal. -/
def hear (ids : List ℤ) : Flow Unit := modify fun c => { c with reported := c.reported ++ ids }

def await {α : Type} (r : Reply α) : Flow α := do
  hear r.reported
  match r.value with
  | .ok a => pure a
  | .error e => throw e

/-- `except Exception`. -/
def exceptException {α : Type} (x : Flow α) (handler : Flow α) : Flow α :=
  tryCatch x fun e => match e with
    | .exception => handler
    | .taskCancelled => throw .taskCancelled

def runIf (p : Bool) (x : Flow Unit) : Flow Unit := if p then x else pure ()

/-- `_write_txn`. -/
def writeTxn (event : TransactionEvent) : Flow Unit :=
  modify fun c => { c with trade.rows := insert c.trade.rows event }

/-- `update_pnl(trade_group.id, None, commission)`. -/
def updatePnl (commission : ℚ) : Flow Unit :=
  modify fun c => { c with trade.group := c.trade.group.updatePnl none commission }

/-- A terminal record about some orders is made. -/
def noteTerminal (orders : List ℤ) : Flow Unit := modify fun c =>
  { c with terminals := c.terminals ++ [{ orders, reported := c.reported }] }

/-- `update_status(trade_group.id, CLOSED)`. -/
def closeGroup : Flow Unit := do
  modify fun c => { c with trade.group := c.trade.group.closeIf true }
  noteTerminal (← get).orders

def alert (leg : ProtectiveLeg) (trigger : String) : Flow Unit :=
  modify fun c => { c with exits := c.exits ++ [.alert leg trigger] }

/-- One of the `place_…_order` calls of the client, for a protective order. -/
def placeExit (order : ExitOrder) (r : Reply ℤ) : Flow ℤ := do
  hear r.reported
  match r.value with
  | .ok id => do
    modify fun c => { c with exits := c.exits ++ [.placed order id] }
    pure id
  | .error e => do
    modify fun c => { c with exits := c.exits ++ [.failed order] }
    throw e

-- ============================================================================
-- Rules
-- ============================================================================

section Rules

variable {α : Type} {Q : α → Ctx → Prop} {R : Unit → Ctx → Prop} {E : Raised → Ctx → Prop}

@[simp] theorem wp_hear (ids : List ℤ) (c : Ctx) :
    wp (hear ids) R E c ↔ R () { c with reported := c.reported ++ ids } := Iff.rfl

@[simp] theorem wp_await (r : Reply α) (c : Ctx) :
    wp (await r) Q E c ↔
      match r.value with
      | .ok a => Q a { c with reported := c.reported ++ r.reported }
      | .error e => E e { c with reported := c.reported ++ r.reported } := by
  unfold await
  rw [wp_bind, wp_hear]
  cases r.value <;> rfl

@[simp] theorem wp_exceptException (x handler : Flow α) (c : Ctx) :
    wp (exceptException x handler) Q E c ↔
      wp x Q (fun e c' => match e with
        | .exception => wp handler Q E c'
        | .taskCancelled => E .taskCancelled c') c := by
  have hhandler : (fun e => wp (match e with
      | Raised.exception => handler
      | Raised.taskCancelled => throw Raised.taskCancelled) Q E) =
      fun e c' => match e with
        | .exception => wp handler Q E c'
        | .taskCancelled => E .taskCancelled c' := by
    funext e c'
    cases e <;> rfl
  unfold exceptException
  rw [wp_tryCatch, hhandler]

@[simp] theorem wp_runIf (p : Bool) (x : Flow Unit) (c : Ctx) :
    wp (runIf p x) R E c ↔ if p then wp x R E c else R () c := by
  unfold runIf
  rw [wp_ite]
  rfl

@[simp] theorem wp_writeTxn (event : TransactionEvent) (c : Ctx) :
    wp (writeTxn event) R E c ↔ R () { c with trade.rows := insert c.trade.rows event } := Iff.rfl

@[simp] theorem wp_updatePnl (commission : ℚ) (c : Ctx) :
    wp (updatePnl commission) R E c ↔
      R () { c with trade.group := c.trade.group.updatePnl none commission } := Iff.rfl

@[simp] theorem wp_noteTerminal (orders : List ℤ) (c : Ctx) :
    wp (noteTerminal orders) R E c ↔
      R () { c with terminals := c.terminals ++ [{ orders, reported := c.reported }] } := Iff.rfl

@[simp] theorem wp_alert (leg : ProtectiveLeg) (trigger : String) (c : Ctx) :
    wp (alert leg trigger) R E c ↔ R () { c with exits := c.exits ++ [.alert leg trigger] } :=
  Iff.rfl

@[simp] theorem wp_placeExit (order : ExitOrder) (r : Reply ℤ) (c : Ctx) {S : ℤ → Ctx → Prop} :
    wp (placeExit order r) S E c ↔
      match r.value with
      | .ok id =>
        S id { c with reported := c.reported ++ r.reported, exits := c.exits ++ [.placed order id] }
      | .error e =>
        E e { c with reported := c.reported ++ r.reported, exits := c.exits ++ [.failed order] } := by
  unfold placeExit
  rw [wp_bind, wp_hear]
  cases r.value <;> rfl

end Rules

/-- A preorder on states that only the rows and the terminal records decide. -/
class RecordOrder (P : Ctx → Ctx → Prop) : Prop extends Std.Refl P, IsTrans Ctx P where
  of_same : ∀ {c c' : Ctx}, c'.trade.rows = c.trade.rows → c'.terminals = c.terminals → P c c'

section Within

variable {α : Type} {P : Ctx → Ctx → Prop} [RecordOrder P]

theorem within_hear (ids : List ℤ) : Within P (hear ids) := fun _ => RecordOrder.of_same rfl rfl

theorem within_await (r : Reply α) : Within P (await r) := by
  intro c
  rw [wp_await]
  cases r.value <;> exact RecordOrder.of_same rfl rfl

theorem within_exceptException {x handler : Flow α} (hx : Within P x) (hhandler : Within P handler) :
    Within P (exceptException x handler) := by
  refine hx.tryCatch fun e => ?_
  cases e with
  | exception => exact hhandler
  | taskCancelled => exact within_throw _

theorem within_runIf {x : Flow Unit} (p : Bool) (hx : Within P x) : Within P (runIf p x) := by
  cases p with
  | false => exact within_pure ()
  | true => exact hx

theorem within_updatePnl (commission : ℚ) : Within P (updatePnl commission) :=
  fun _ => RecordOrder.of_same rfl rfl

theorem within_alert (leg : ProtectiveLeg) (trigger : String) : Within P (alert leg trigger) :=
  fun _ => RecordOrder.of_same rfl rfl

theorem within_placeExit (order : ExitOrder) (r : Reply ℤ) : Within P (placeExit order r) := by
  intro c
  rw [wp_placeExit]
  cases r.value <;> exact RecordOrder.of_same rfl rfl

end Within

theorem within_writeTxn {P : Ctx → Ctx → Prop} {event : TransactionEvent}
    (h : ∀ c : Ctx, P c { c with trade.rows := insert c.trade.rows event }) :
    Within P (writeTxn event) := h

-- ============================================================================
-- Orders and commands
-- ============================================================================

/-- `_OrderContext` of an entry. -/
structure OrderContext where
  tradeSerial : ℕ
  ibOrderId : ℤ
  side : Side
  qtyRequested : ℚ
  tickSize : ℚ := 1 / 100
  multiplier : ℚ := 1
  /-- `security_type == "FUT"`. -/
  isFut : Bool := false
  /-- `pre_position_qty` and `pre_position_avg_cost`. -/
  prePosition : Option (ℚ × ℚ) := none
  deriving DecidableEq, Repr

/-- What a `BuyCommand` or `SellCommand` asks for beside its order. -/
structure Command where
  profitAmount : Option ℚ := none
  takeProfitPrice : Option ℚ := none
  trailPercent : Option ℚ := none
  trailAmount : Option ℚ := none
  stopLoss : Option ℚ := none
  hasBotRef : Bool := false
  deriving DecidableEq, Repr

/-- `bool` of a `Decimal` that may be `None`. -/
def truthy (x : Option ℚ) : Bool := x.any (· ≠ 0)

/-- `has_profit`. -/
def Command.hasProfit (cmd : Command) : Bool := truthy cmd.takeProfitPrice || truthy cmd.profitAmount

/-- `has_trail`. -/
def Command.hasTrail (cmd : Command) : Bool := truthy cmd.trailPercent || truthy cmd.trailAmount

/-- `has_stop`. -/
def Command.hasStop (cmd : Command) : Bool := cmd.stopLoss.isSome

/-- The protective legs the command asks for. -/
def Command.requested (cmd : Command) : List ProtectiveLeg :=
  (if cmd.hasProfit then [.profitTaker] else []) ++
    ((if cmd.hasTrail then [.trailingStop] else []) ++ if cmd.hasStop then [.stopLoss] else [])

/-- `oca_group`. -/
def ocaGroup (o : OrderContext) (cmd : Command) : Option String :=
  if 2 ≤ cmd.requested.length then some s!"trade_{o.tradeSerial}_exit" else none

/-- A row of an order of the entry. -/
def entryRow (o : OrderContext) (action : TransactionAction) (ibOrderId : Option ℤ) (quantity : ℚ) :
    TransactionEvent where
  action := action
  ibOrderId := ibOrderId
  legType := .entry
  side := o.side
  quantity := quantity

/-- The FILLED row. -/
def filledRow (o : OrderContext) (qtyFilled : ℚ) (avgPrice : Option ℚ) (commission : ℚ) :
    TransactionEvent :=
  { entryRow o .filled (some o.ibOrderId) qtyFilled with
    ibFilledQty := some qtyFilled, ibAvgFillPrice := avgPrice, commission := some commission,
    isTerminal := true }

/-- The PARTIAL_FILL row. -/
def partialFillRow (o : OrderContext) (ibOrderId : ℤ) (finalQty : ℚ) (avgPrice : Option ℚ)
    (commission : ℚ) : TransactionEvent :=
  { entryRow o .partialFill (some ibOrderId) o.qtyRequested with
    ibFilledQty := some finalQty, ibAvgFillPrice := avgPrice, commission := some commission }

/-- A row of a protective order; `multiplier` is left out when it is one. -/
def exitRow (action : TransactionAction) (ibOrderId : Option ℤ) (legType : LegType) (side : Side)
    (qty multiplier : ℚ) : TransactionEvent :=
  placementRow action ibOrderId legType side qty
    (if multiplier = 0 ∨ multiplier = 1 then none else some multiplier)

-- ============================================================================
-- Replies
-- ============================================================================

/-- The reading that ends the wait of `_cancel_and_await_resolution`. -/
structure SettleReading where
  /-- The deadline has passed. -/
  timedOut : Bool := false
  status : OrderStatus := {}
  /-- `track.is_canceled`. -/
  isCanceled : Bool := false
  deriving DecidableEq, Repr

/-- What `_cancel_and_await_resolution` returns; the wait ends before its deadline
    for a full fill or a cancel only. -/
def SettleReading.settlement (r : SettleReading) (targetQty : ℚ) : Settlement where
  resolution :=
    if r.timedOut then .timeout
    else if targetQty ≤ r.status.qtyFilled then .filled
    else if r.status.status ∈ ["Cancelled", "Inactive"] ∨ r.isCanceled = true then .cancelled
    else .timeout
  qty := r.status.qtyFilled
  avgPrice := r.status.avgFillPrice
  commission := r.status.commission.getD 0

/-- What the awaits of the handlers come back with. -/
structure Replies where
  /-- The orders IB reported terminal before the coroutine came to its handler. -/
  heard : List ℤ := []
  /-- `cancel_order`, where the coroutine does not wait for the cancel. -/
  cancel : Reply Unit := { value := .ok () }
  /-- `_cancel_and_await_resolution`. -/
  settle : Reply SettleReading := { value := .error .exception }
  /-- `is_order_open_at_ib`. -/
  probe : Reply (Option Bool) := { value := .ok none }
  /-- `_record_console_close_pnl`. -/
  recordPnl : Reply Unit := { value := .ok () }
  profitTaker : Reply ℤ := { value := .error .exception }
  trailingStop : Reply ℤ := { value := .error .exception }
  stopLoss : Reply ℤ := { value := .error .exception }

-- ============================================================================
-- Protective orders
-- ============================================================================

/-- The price of the profit taker, if there is one. -/
def profitTakerPrice (o : OrderContext) (cmd : Command) (avgPrice : Option ℚ) (qtyFilled : ℚ) :
    Except Raised (Option ℚ) :=
  match cmd.takeProfitPrice, cmd.profitAmount with
  | some price, _ => .ok (some price)
  | none, some profitAmount =>
    match avgPrice with
    | none => .error .exception
    | some avg =>
      let tick := if o.tickSize = 0 then 1 / 100 else o.tickSize
      let mult := if o.multiplier = 0 then 1 else o.multiplier
      if qtyFilled = 0 then .error .exception
      else
        match snap (avg + direction o.side * (profitAmount / (qtyFilled * mult))) tick with
        | none => .error .exception
        | some price => .ok (some price)
  | none, none => .ok none

/-- A protective order on the other side of the entry. -/
def exitOrder (o : OrderContext) (leg : ProtectiveLeg) (qty : ℚ) (price : Option ℚ)
    (oca : Option String) : ExitOrder where
  leg := leg
  side := o.side.opposite
  qty := qty
  price := price
  ocaGroup := oca

def failExit {α : Type} (order : ExitOrder) (e : Raised) : Flow α := do
  modify fun c => { c with exits := c.exits ++ [.failed order] }
  throw e

/-- The order is sent, with its PLACE_ATTEMPT and PLACE_ACCEPTED rows. -/
def sendExit (o : OrderContext) (legType : LegType) (order : ExitOrder) (r : Reply ℤ) :
    Flow Unit := do
  writeTxn (exitRow .placeAttempt none legType order.side order.qty o.multiplier)
  let ibOrderId ← placeExit order r
  writeTxn (exitRow .placeAccepted (some ibOrderId) legType order.side order.qty o.multiplier)

/-- `place_profit_taker`. -/
def placeProfitTaker (o : OrderContext) (cmd : Command) (avgPrice : Option ℚ) (qtyFilled : ℚ)
    (oca : Option String) (r : Reply ℤ) : Flow Unit :=
  match profitTakerPrice o cmd avgPrice qtyFilled with
  | .error e => failExit (exitOrder o .profitTaker qtyFilled none oca) e
  | .ok none => pure ()
  | .ok (some price) => sendExit o .profitTaker (exitOrder o .profitTaker qtyFilled (some price) oca) r

/-- `wrong_side`: the stop is already penetrated at the fill. -/
def wrongSide (entrySide : Side) (stopPrice avgFillPrice : ℚ) : Prop :=
  match entrySide with
  | .buy => avgFillPrice ≤ stopPrice
  | .sell => stopPrice ≤ avgFillPrice

instance (side : Side) (stopPrice avgFillPrice : ℚ) :
    Decidable (wrongSide side stopPrice avgFillPrice) := by
  unfold wrongSide; cases side <;> infer_instance

/-- `place_stop_loss`. -/
def placeStopLoss (o : OrderContext) (stopPrice : ℚ) (avgPrice : Option ℚ) (qtyFilled : ℚ)
    (oca : Option String) (r : Reply ℤ) : Flow Unit :=
  let order := exitOrder o .stopLoss qtyFilled (some stopPrice) oca
  match avgPrice with
  -- the comparison with `None` raises
  | none => failExit order .exception
  | some avg =>
    if wrongSide o.side stopPrice avg then do
      modify fun c => { c with exits := c.exits ++ [.refused order] }
      alert .stopLoss "STOP_LOSS_WRONG_SIDE"
    else sendExit o .stopLoss order r

/-- The trailing stop: no row is written for it. -/
def placeTrailingStop (o : OrderContext) (qtyFilled : ℚ) (oca : Option String) (r : Reply ℤ) :
    Flow Unit :=
  exceptException (do let _ ← placeExit (exitOrder o .trailingStop qtyFilled none oca) r) (pure ())

/-- The protective orders `_handle_fill` places. -/
def placeExits (o : OrderContext) (cmd : Command) (a : Replies) (qtyFilled : ℚ)
    (avgPrice : Option ℚ) : Flow Unit := do
  let oca := ocaGroup o cmd
  runIf cmd.hasProfit (placeProfitTaker o cmd avgPrice qtyFilled oca a.profitTaker)
  runIf cmd.hasTrail (placeTrailingStop o qtyFilled oca a.trailingStop)
  match cmd.stopLoss with
  | none => pure ()
  | some stopPrice =>
    exceptException (placeStopLoss o stopPrice avgPrice qtyFilled oca a.stopLoss)
      (alert .stopLoss "STOP_LOSS_PLACE_FAILED")

-- ============================================================================
-- Fills of the entry
-- ============================================================================

/-- `_emit_console_close_pnl`: what it computes goes to the console. -/
def emitConsoleClosePnl (o : OrderContext) (avgPrice : Option ℚ) (r : Reply Unit) : Flow Unit :=
  match o.prePosition with
  | none => pure ()
  | some (preQty, preAvg) =>
    if preQty = 0 ∨ (0 < preQty ↔ o.side = .buy) then pure ()
    else
      match avgPrice with
      | none => throw .exception
      | some avg =>
        if avg ≠ 0 ∧ 1 / 2 < |avg - preAvg| / avg then pure () else await r

/-- `_handle_fill`. -/
def handleFill (o : OrderContext) (cmd : Command) (a : Replies) (qtyFilled : ℚ)
    (avgPrice : Option ℚ) (commission : ℚ) : Flow Unit := do
  updatePnl commission
  writeTxn (filledRow o qtyFilled avgPrice commission)
  -- `notional_value` multiplies the price
  runIf (o.isFut && avgPrice.isNone) (throw .exception)
  runIf (!cmd.hasBotRef) (emitConsoleClosePnl o avgPrice a.recordPnl)
  placeExits o cmd a qtyFilled avgPrice

/-- `_cancel_and_await_resolution`. -/
def cancelAndAwaitResolution (ibOrderId : ℤ) (targetQty : ℚ) (r : Reply SettleReading) :
    Flow Settlement := do
  let reading ← await r
  let settlement := reading.settlement targetQty
  runIf (settlement.resolution ≠ .timeout) (hear [ibOrderId])
  pure settlement

/-- A CANCELLED row of the entry. -/
def writeCancelled (o : OrderContext) (ibOrderId : ℤ) : Flow Unit := do
  writeTxn { entryRow o .cancelled (some ibOrderId) o.qtyRequested with isTerminal := true }
  noteTerminal (← get).orders

/-- `_finalize_partial_cancel`: whether the CANCELLED row was written. -/
def finalizePartialCancel (o : OrderContext) (ibOrderId : ℤ) (resolution : Resolution)
    (probe : Reply (Option Bool)) : Flow Bool :=
  if resolution = .cancelled then do
    writeCancelled o ibOrderId
    pure true
  else do
    -- a probe that fails counts as open
    let stillOpen ← exceptException (await probe) (pure none)
    if stillOpen = some false then do
      hear [ibOrderId]
      writeCancelled o ibOrderId
      pure true
    else pure false

/-- The larger of the caller's average price and IB's, with its quantity. -/
def effectiveAvg (s : Settlement) (qtyFilled : ℚ) (avgPrice : Option ℚ) : Option ℚ :=
  if qtyFilled < s.qty then s.avgPrice.or avgPrice else avgPrice

/-- The PARTIAL_FILL row, the commission and the cancel of the rest. -/
def recordPartial (o : OrderContext) (a : Replies) (ibOrderId : ℤ) (s : Settlement) (finalQty : ℚ)
    (avgPrice : Option ℚ) (commission : ℚ) : Flow Unit := do
  writeTxn (partialFillRow o ibOrderId finalQty avgPrice commission)
  updatePnl commission
  let _ ← finalizePartialCancel o ibOrderId s.resolution a.probe

/-- `_handle_partial`. -/
def handlePartial (o : OrderContext) (cmd : Command) (a : Replies) (ibOrderId : ℤ) (qtyFilled : ℚ)
    (avgPrice : Option ℚ) (commission : ℚ) : Flow Unit := do
  writeTxn (entryRow o .cancelAttempt (some ibOrderId) o.qtyRequested)
  let s ← cancelAndAwaitResolution ibOrderId o.qtyRequested a.settle
  let finalQty := s.finalQty qtyFilled
  let effectiveAvg := effectiveAvg s qtyFilled avgPrice
  let commission := s.finalCommission commission
  if s.resolution = .filled then handleFill o cmd a finalQty effectiveAvg commission
  else do
    recordPartial o a ibOrderId s finalQty effectiveAvg commission
    runIf (0 < finalQty && !cmd.hasBotRef) (emitConsoleClosePnl o effectiveAvg a.recordPnl)
    runIf cmd.hasProfit (placeProfitTaker o cmd effectiveAvg finalQty none a.profitTaker)

-- ============================================================================
-- Rules of the handlers
-- ============================================================================

@[simp] theorem wp_closeGroup {R : Unit → Ctx → Prop} {E : Raised → Ctx → Prop} (c : Ctx) :
    wp closeGroup R E c ↔ R () { c with
      trade.group := c.trade.group.closeIf true
      terminals := c.terminals ++ [{ orders := c.orders, reported := c.reported }] } := Iff.rfl

@[simp] theorem wp_writeCancelled {R : Unit → Ctx → Prop} {E : Raised → Ctx → Prop}
    (o : OrderContext) (ibOrderId : ℤ) (c : Ctx) :
    wp (writeCancelled o ibOrderId) R E c ↔ R () { c with
      trade.rows := insert c.trade.rows
        { entryRow o .cancelled (some ibOrderId) o.qtyRequested with isTerminal := true }
      terminals := c.terminals ++ [{ orders := c.orders, reported := c.reported }] } := Iff.rfl

theorem wp_cancelAndAwaitResolution {Q : Settlement → Ctx → Prop} {E : Raised → Ctx → Prop}
    (ibOrderId : ℤ) (targetQty : ℚ) (r : Reply SettleReading) (c : Ctx) :
    wp (cancelAndAwaitResolution ibOrderId targetQty r) Q E c ↔
      match r.value with
      | .error e => E e { c with reported := c.reported ++ r.reported }
      | .ok reading =>
        let s := reading.settlement targetQty
        Q s { c with
          reported := c.reported ++ r.reported ++ if s.resolution = .timeout then [] else [ibOrderId] } := by
  unfold cancelAndAwaitResolution
  rw [wp_bind, wp_await]
  cases r.value with
  | error e => exact Iff.rfl
  | ok reading =>
    dsimp only
    rw [wp_bind, wp_runIf]
    by_cases h : (reading.settlement targetQty).resolution = .timeout
    · simp [h]
    · simp [h]

-- ============================================================================
-- What the protective orders leave behind
-- ============================================================================

/-- A placement row of a profit taker or a stop loss, with the number IB gave it. -/
structure IsExitRow (a : Replies) (row : TransactionEvent) : Prop where
  legType : row.legType ∈ [LegType.profitTaker, .stopLoss]
  reportsFill : row.reportsFill = false
  numbered : ∀ id, row.ibOrderId = some id →
    a.profitTaker.value = .ok id ∨ a.stopLoss.value = .ok id

/-- Some placement rows of protective orders, and no terminal record. -/
structure ExitStep (a : Replies) (c c' : Ctx) : Prop where
  terminals : c'.terminals = c.terminals
  rows : ∃ rows, c'.trade.rows = c.trade.rows ++ rows ∧ ∀ row ∈ rows, IsExitRow a row

instance (a : Replies) : RecordOrder (ExitStep a) where
  refl c := ⟨rfl, [], by simp, by simp⟩
  trans c c' c'' h h' := by
    obtain ⟨rows, hrows, hall⟩ := h.rows
    obtain ⟨more, hmore, hall'⟩ := h'.rows
    refine ⟨h'.terminals.trans h.terminals, rows ++ more, ?_, ?_⟩
    · rw [hmore, hrows, List.append_assoc]
    · intro row hrow
      exact (List.mem_append.mp hrow).elim (hall row) (hall' row)
  of_same hrows hterminals := ⟨hterminals, [], by simp [hrows], by simp⟩

section ExitRows

variable {o : OrderContext} {cmd : Command} {a : Replies} {qtyFilled : ℚ} {avgPrice : Option ℚ}
  {oca : Option String}

theorem exitStep_writeTxn {event : TransactionEvent} (c : Ctx) (h : IsExitRow a event.stored) :
    ExitStep a c { c with trade.rows := insert c.trade.rows event } :=
  ⟨rfl, [event.stored], rfl, fun row hrow => by rwa [List.mem_singleton.mp hrow]⟩

theorem isExitRow_placement {action : TransactionAction} {ibOrderId : Option ℤ} {legType : LegType}
    {side : Side} {qty multiplier : ℚ} (hleg : legType ∈ [LegType.profitTaker, .stopLoss])
    (haction : action ∈ [TransactionAction.placeAttempt, .placeAccepted])
    (hid : ∀ id, ibOrderId = some id → a.profitTaker.value = .ok id ∨ a.stopLoss.value = .ok id) :
    IsExitRow a (exitRow action ibOrderId legType side qty multiplier).stored where
  legType := hleg
  reportsFill := by
    simp only [List.mem_cons, List.not_mem_nil, or_false] at haction
    rcases haction with rfl | rfl <;> rfl
  numbered := hid

theorem exitStep_sendExit {legType : LegType} {order : ExitOrder} {r : Reply ℤ}
    (hleg : legType ∈ [LegType.profitTaker, .stopLoss])
    (hr : ∀ id, r.value = .ok id → a.profitTaker.value = .ok id ∨ a.stopLoss.value = .ok id) :
    Within (ExitStep a) (sendExit o legType order r) := by
  have hattempt : ∀ c : Ctx, ExitStep a c { c with
      trade.rows := insert c.trade.rows
        (exitRow .placeAttempt none legType order.side order.qty o.multiplier) } :=
    fun c => exitStep_writeTxn c (isExitRow_placement hleg (by decide) (by simp))
  apply (within_writeTxn hattempt).bind
  intro _ c
  rw [wp_bind, wp_placeExit]
  cases hvalue : r.value with
  | error e => exact RecordOrder.of_same rfl rfl
  | ok id =>
    have hnumbered : ∀ id', some id = some id' →
        a.profitTaker.value = .ok id' ∨ a.stopLoss.value = .ok id' := by
      rintro _ ⟨⟩
      exact hr id hvalue
    have hplaced : ExitStep a c { c with
        reported := c.reported ++ r.reported, exits := c.exits ++ [.placed order id] } :=
      RecordOrder.of_same rfl rfl
    exact IsTrans.trans _ _ _ hplaced
      (exitStep_writeTxn _ (isExitRow_placement hleg (by decide) hnumbered))

theorem exitStep_placeProfitTaker :
    Within (ExitStep a) (placeProfitTaker o cmd avgPrice qtyFilled oca a.profitTaker) := by
  unfold placeProfitTaker
  split
  · exact fun c => RecordOrder.of_same rfl rfl
  · exact within_pure ()
  · exact exitStep_sendExit (by decide) fun _ => .inl

theorem exitStep_placeStopLoss {stopPrice : ℚ} :
    Within (ExitStep a) (placeStopLoss o stopPrice avgPrice qtyFilled oca a.stopLoss) := by
  unfold placeStopLoss
  cases avgPrice with
  | none => exact fun c => RecordOrder.of_same rfl rfl
  | some avg =>
    dsimp only
    split
    · exact fun c => RecordOrder.of_same rfl rfl
    · exact exitStep_sendExit (by decide) fun _ => .inr

theorem within_placeTrailingStop {P : Ctx → Ctx → Prop} [RecordOrder P] (r : Reply ℤ) :
    Within P (placeTrailingStop o qtyFilled oca r) :=
  within_exceptException ((within_placeExit _ r).bind fun _ => within_pure ()) (within_pure ())

theorem exitStep_placeExits : Within (ExitStep a) (placeExits o cmd a qtyFilled avgPrice) := by
  apply (within_runIf cmd.hasProfit exitStep_placeProfitTaker).bind
  intro _
  apply (within_runIf cmd.hasTrail (within_placeTrailingStop _)).bind
  intro _
  split
  · exact within_pure ()
  · exact within_exceptException exitStep_placeStopLoss (within_alert _ _)

theorem within_emitConsoleClosePnl {P : Ctx → Ctx → Prop} [RecordOrder P] (r : Reply Unit) :
    Within P (emitConsoleClosePnl o avgPrice r) := by
  unfold emitConsoleClosePnl
  split
  · exact within_pure ()
  · split
    · exact within_pure ()
    · split
      · exact within_throw _
      · split
        · exact within_pure ()
        · exact within_await r

end ExitRows

end IbTrader.Engine.OrderFlow
