/-
  IbTrader.Bots.Runtime

  The lifecycle methods of `StrategyBotRunner` and its order-event dispatch
  (`ib_trader/bots/runtime.py`).

  Each `on_*` method is one read-modify-write of the bot document under the
  state lock, so it is a function of the document it reads: `none` where the
  method refuses the event and writes nothing, else the document it saves and
  the effects it runs after the lock.  What the strategy answers to a fill or a
  rejection is outside the model; the position fields it may write on an entry
  fill are the ones the handler has just written.
-/

import IbTrader.Bots.Lifecycle
import IbTrader.Engine.OrderLedger

namespace IbTrader.Bots.Runtime

open Engine.OrderLedger (LedgerEvent)

/-- The strategy settings the handlers read, and the prefix of the bot's order
    references. -/
structure StrategyConfig where
  contractMultiplier : ℚ := 1
  stopOnExit : Bool := true
  orderRefPrefix : String := ""
  deriving DecidableEq, Repr

/-- `record_close_args`. -/
structure TradeClosed where
  realizedPnl : ℚ
  serial : Option Int
  symbol : Option String
  direction : Direction
  entryPrice : ℚ
  entryQty : ℚ
  exitPrice : ℚ
  exitQty : ℚ
  commission : ℚ
  entrySerial : Option Int
  exitSerial : Option Int
  entryIbOrderId : Option String
  exitIbOrderId : Option String
  deriving DecidableEq, Repr

/-- `retry_args`. -/
structure RetryExit where
  symbol : Option String
  qty : ℚ
  attempt : ℕ
  side : String
  deriving DecidableEq, Repr

/-- What a handler does outside the document. -/
inductive Effect where
  | recordTradeClosed (trade : TradeClosed)
  | retryExitOrder (retry : RetryExit)
  | cancelOrder (symbol : String)
  | pagerAlert (trigger : String) (residualQty : Option ℚ)
  | requestStop
  deriving DecidableEq, Repr

/-- A handler of the document. -/
abbrev Handler := BotDoc → Option (BotDoc × List Effect)

-- ============================================================================
-- Starting and stopping
-- ============================================================================

/-- `on_start`. -/
def onStart (symbol : Option String) : Handler := fun doc =>
  if doc.state = .off ∨ doc.state = .errored then
    some (({ doc.clearPositionFields with
             errorReason := none
             symbol := if symbol.getD "" = "" then doc.symbol else symbol }).withState
      .awaitingEntryTrigger, [])
  else none

/-- `if symbol: await self._handle_cancel_order(...)`. -/
def cancelInFlight (doc : BotDoc) : List Effect :=
  let symbol := doc.symbol.getD ""
  if symbol = "" then [] else [.cancelOrder symbol]

/-- `on_stop`. -/
def onStop : Handler := fun doc =>
  if doc.state = .off then none
  else
    let cancel :=
      if doc.state = .entryOrderPlaced ∨ doc.state = .exitOrderPlaced then cancelInFlight doc
      else []
    some (({ doc.clearPositionFields with errorReason := none }).withState .off, cancel)

/-- `on_force_stop`. -/
def onForceStop : Handler := fun doc =>
  some (({ doc with errorReason := some "force_stop" }).withState .errored, [])

/-- `on_crash`. -/
def onCrash : Handler := fun doc =>
  if doc.state = .off ∨ doc.state = .errored then none
  else some (({ doc with errorReason := some "crash" }).withState .errored,
    [.pagerAlert "BOT_CRASH" none])

/-- `on_ib_position_mismatch`. -/
def onIbPositionMismatch : Handler := fun doc =>
  if doc.state = .off ∨ doc.state = .errored then none
  else some (({ doc with errorReason := some "ib_mismatch" }).withState .errored, [])

-- ============================================================================
-- Placing and cancelling orders
-- ============================================================================

/-- The sentinel id of an order that is being placed. -/
def pendingOrderId : String := "__pending__"

/-- `on_place_entry_order`. -/
def onPlaceEntryOrder (symbol : String) (qty : ℚ) (origin : String) (ibOrderId : Option String)
    (serial : Option Int) : Handler := fun doc =>
  if doc.state = .awaitingEntryTrigger then
    some (({ doc with
             orderQty := some qty
             filledQty := 0
             serial := serial.or doc.serial
             orderOrigin := some origin
             symbol := if symbol = "" then doc.symbol else some symbol
             entryTimeSet := true
             ibOrderId := ibOrderId.or doc.ibOrderId }).withState .entryOrderPlaced, [])
  else none

/-- `on_place_exit_order`. -/
def onPlaceExitOrder (qty : ℚ) (origin : String) (ibOrderId : Option String) : Handler :=
  fun doc =>
  if doc.state = .awaitingExitTrigger then
    some (({ doc with
             orderQty := some qty
             filledQty := 0
             orderOrigin := some origin
             exitRetries := 0
             ibOrderId := ibOrderId.or doc.ibOrderId }).withState .exitOrderPlaced, [])
  else none

/-- The patch of `_run_pipeline` with the id the engine returned, skipped when a
    fill was faster. -/
def captureOrderId (cmdId : String) : Handler := fun doc =>
  if doc.state = .entryOrderPlaced ∨ doc.state = .exitOrderPlaced then
    some ({ doc with ibOrderId := some cmdId, awaitingIbOrderId := some cmdId }, [])
  else none

/-- `_revert_to_state`, called with one of the two states an order is placed
    from. -/
def revertToState (prior : BotState) : Handler := fun doc =>
  let patched := { doc with orderQty := none, filledQty := 0, awaitingIbOrderId := none }
  if prior = .awaitingEntryTrigger then some (patched.clearPositionFields.withState prior, [])
  else some (patched.withState prior, [])

/-- `on_entry_timeout`. -/
def onEntryTimeout : Handler := fun doc =>
  if doc.state = .entryOrderPlaced then
    some (doc.clearPositionFieldsForEntryTimeout.withState .awaitingEntryTrigger,
      cancelInFlight doc)
  else none

/-- `on_manual_close`. -/
def onManualClose : Handler := fun doc =>
  if doc.state = .awaitingExitTrigger ∨ doc.state = .exitOrderPlaced then
    some (doc.clearPositionFields.withState .awaitingEntryTrigger, [])
  else none

/-- `on_entry_cancelled`. -/
def onEntryCancelled : Handler := fun doc =>
  if doc.state = .entryOrderPlaced then
    some (doc.clearPositionFields.withState .awaitingEntryTrigger, [])
  else none

/-- `on_exit_cancelled`. -/
def onExitCancelled : Handler := fun doc =>
  if doc.state = .exitOrderPlaced then
    some (({ doc with orderQty := none, filledQty := 0 }).withState .awaitingExitTrigger, [])
  else none

/-- The revert of `force_quit` between cancelling an exit and placing the next
    one. -/
def forceQuitCancelAndReplace : Handler := fun doc =>
  if doc.state = .exitOrderPlaced then
    some (({ doc with orderQty := none, filledQty := 0 }).withState .awaitingExitTrigger, [])
  else none

-- ============================================================================
-- Fills
-- ============================================================================

/-- The arguments of `on_entry_filled` and `on_exit_filled`. -/
structure FillArgs where
  qty : ℚ
  price : ℚ
  terminal : Bool
  side : String
  commission : ℚ
  deriving DecidableEq, Repr

/-- The direction an entry on this side opens. -/
def entryDirection (side : String) : Direction := if side = "BUY" then .long else .short

/-- The document after the terminal fill of an entry order. -/
def entryActivated (args : FillArgs) (doc : BotDoc) : BotDoc :=
  { doc with
    state := .awaitingExitTrigger
    filledQty := args.qty
    qty := args.qty
    avgPrice := some args.price
    entryPrice := some args.price
    entryTimeSet := true
    entrySerial := doc.serial
    positionDirection := some (entryDirection args.side)
    entryIbOrderId := doc.ibOrderId }

/-- `on_entry_filled`. -/
def onEntryFilled (args : FillArgs) : Handler := fun doc =>
  if doc.state = .entryOrderPlaced ∨ doc.state = .awaitingEntryTrigger then
    if args.terminal = false then
      some ({ doc with filledQty := args.qty, qty := args.qty, avgPrice := some args.price }, [])
    else if args.qty = 0 then
      some (doc.clearPositionFields.withState .awaitingEntryTrigger, [])
    else some (entryActivated args doc, [])
  else none

/-- The direction of an exit: the one the entry wrote, else the one the side
    closes. -/
def exitDirection (args : FillArgs) (doc : BotDoc) : Direction :=
  doc.positionDirection.getD (if args.side = "SELL" then .long else .short)

/-- The profit `on_exit_filled` records when the position is flat. -/
def realizedPnl (config : StrategyConfig) (args : FillArgs) (doc : BotDoc) : ℚ :=
  let entryPrice := doc.entryPrice.getD 0
  if 0 < entryPrice then
    match exitDirection args doc with
    | .long => (args.price - entryPrice) * doc.qty * config.contractMultiplier
    | .short => (entryPrice - args.price) * doc.qty * config.contractMultiplier
  else 0

/-- `record_close_args` of `on_exit_filled`. -/
def tradeClosed (config : StrategyConfig) (args : FillArgs) (doc : BotDoc) : TradeClosed where
  realizedPnl := realizedPnl config args doc
  serial := doc.serial
  symbol := doc.symbol
  direction := exitDirection args doc
  entryPrice := doc.entryPrice.getD 0
  entryQty := doc.qty
  exitPrice := args.price
  exitQty := args.qty
  commission := args.commission
  entrySerial := doc.entrySerial.or doc.serial
  exitSerial := doc.serial
  entryIbOrderId := doc.entryIbOrderId
  exitIbOrderId := doc.ibOrderId

/-- `on_exit_filled`. -/
def onExitFilled (config : StrategyConfig) (args : FillArgs) : Handler := fun doc =>
  if doc.state = .exitOrderPlaced then
    if args.terminal = false then some ({ doc with filledQty := args.qty }, [])
    else
      let newPositionQty := max (doc.qty - args.qty) 0
      if newPositionQty = 0 then
        let pnl := realizedPnl config args doc
        let target := if config.stopOnExit then BotState.off else .awaitingEntryTrigger
        let stop := if config.stopOnExit then [Effect.requestStop] else []
        some (({ doc.clearPositionFields with
                 lastRealizedPnl := some pnl
                 exitRetries := 0 }).withState target,
          stop ++ [.recordTradeClosed (tradeClosed config args doc)])
      else if maxExitRetries ≤ doc.exitRetries then
        some (({ doc with
                 qty := newPositionQty
                 errorReason := some "exit_retries_exhausted" }).withState .errored,
          [.pagerAlert "BOT_EXIT_RETRIES_EXHAUSTED" (some newPositionQty)])
      else
        some (({ doc with
                 qty := newPositionQty
                 orderQty := some newPositionQty
                 filledQty := 0
                 exitRetries := doc.exitRetries + 1 }).withState .exitOrderPlaced,
          [.retryExitOrder
            { symbol := doc.symbol
              qty := newPositionQty
              attempt := doc.exitRetries + 1
              side := match exitDirection args doc with | .long => "SELL" | .short => "BUY" }])
  else none

/-- `_apply_fill` on the entry leg. -/
def applyEntryFill (args : FillArgs) (doc : BotDoc) : BotDoc :=
  { doc with
    qty := args.qty
    avgPrice := some args.price
    entryPrice := if doc.entryTimeSet then doc.entryPrice else some args.price
    entryTimeSet := true
    positionDirection := some (entryDirection args.side) }

/-- `_apply_fill` on the exit leg. -/
def applyExitFill (args : FillArgs) (doc : BotDoc) : BotDoc :=
  { doc with avgPrice := some args.price }

-- ============================================================================
-- Order-event dispatch
-- ============================================================================

/-- The statuses `_dispatch_event` treats as fills. -/
def fillStatuses : List String := ["Filled", "PartiallyFilled", "PartialFillCancelled"]

/-- The statuses `_dispatch_event` treats as a cancel when the event is
    terminal. -/
def cancelStatuses : List String := ["Cancelled", "Rejected"]

/-- `order_ref.startswith(order_ref_prefix)`. -/
def tagged (config : StrategyConfig) (event : LedgerEvent) : Bool :=
  config.orderRefPrefix.toList.isPrefixOf event.orderRef.toList

/-- The fill an event carries; `side or default`. -/
def fillArgs (event : LedgerEvent) (defaultSide : String) : FillArgs where
  qty := event.filledQty
  price := event.avgPrice.getD 0
  terminal := event.terminal
  side := if event.side = "" then defaultSide else event.side
  commission := event.totalCommission

@[simp] theorem fillArgs_side (event : LedgerEvent) : (fillArgs event "").side = event.side := by
  simp only [fillArgs]
  split
  case isTrue h => exact h.symm
  case isFalse => rfl

/-- What a handler leaves: a refused event leaves the document as it is. -/
def handled (h : Handler) (doc : BotDoc) : BotDoc × List Effect := (h doc).getD (doc, [])

/-- The fill branch of `_dispatch_event`: the event is routed by the state of the
    bot, not by the order it is about. -/
def dispatchFill (config : StrategyConfig) (event : LedgerEvent) (doc : BotDoc) :
    BotDoc × List Effect :=
  match doc.state with
  | .entryOrderPlaced | .awaitingEntryTrigger =>
    let r := handled (onEntryFilled (fillArgs event "BUY")) doc
    -- `_apply_fill` is passed the side as it came, not the default
    (if event.terminal then applyEntryFill (fillArgs event "") r.1 else r.1, r.2)
  | .exitOrderPlaced =>
    let r := handled (onExitFilled config (fillArgs event "SELL")) doc
    (if event.terminal then applyExitFill (fillArgs event "") r.1 else r.1, r.2)
  | .off | .errored | .awaitingExitTrigger => (doc, [])

/-- The cancel branch of `_dispatch_event`. -/
def dispatchCancel (doc : BotDoc) : BotDoc × List Effect :=
  match doc.state with
  | .entryOrderPlaced => handled onEntryCancelled doc
  | .exitOrderPlaced => handled onExitCancelled doc
  | .off | .errored | .awaitingEntryTrigger | .awaitingExitTrigger => (doc, [])

/-- `_dispatch_event` on the `order:updates` stream. -/
def dispatchOrderEvent (config : StrategyConfig) (event : LedgerEvent) (doc : BotDoc) :
    BotDoc × List Effect :=
  if tagged config event then
    if event.status ∈ fillStatuses then dispatchFill config event doc
    else if event.terminal ∧ event.status ∈ cancelStatuses then dispatchCancel doc
    else (doc, [])
  else (doc, [])

-- ============================================================================
-- What each event does
-- ============================================================================

section Dispatch

variable {config : StrategyConfig} {event : LedgerEvent} {doc : BotDoc}

theorem dispatch_of_not_tagged (h : tagged config event = false) :
    dispatchOrderEvent config event doc = (doc, []) := by
  simp [dispatchOrderEvent, h]

theorem dispatch_fill (htag : tagged config event = true) (hstatus : event.status ∈ fillStatuses) :
    dispatchOrderEvent config event doc = dispatchFill config event doc := by
  simp [dispatchOrderEvent, htag, hstatus]

theorem cancelStatus_not_fill {status : String} (h : status ∈ cancelStatuses) :
    status ∉ fillStatuses := by
  simp only [cancelStatuses, List.mem_cons, List.not_mem_nil, or_false] at h
  rcases h with rfl | rfl <;> decide

theorem dispatch_cancel (htag : tagged config event = true) (hterminal : event.terminal = true)
    (hstatus : event.status ∈ cancelStatuses) :
    dispatchOrderEvent config event doc = dispatchCancel doc := by
  simp [dispatchOrderEvent, htag, hterminal, hstatus, cancelStatus_not_fill hstatus]

/-- An event that is neither a fill nor a terminal cancel does nothing. -/
theorem dispatch_other (hfill : event.status ∉ fillStatuses)
    (hcancel : ¬(event.terminal = true ∧ event.status ∈ cancelStatuses)) :
    dispatchOrderEvent config event doc = (doc, []) := by
  unfold dispatchOrderEvent
  rw [if_neg hfill, if_neg hcancel, ite_self]

theorem dispatchFill_ignored
    (h : doc.state = .off ∨ doc.state = .errored ∨ doc.state = .awaitingExitTrigger) :
    dispatchFill config event doc = (doc, []) := by
  unfold dispatchFill
  rcases h with h | h | h <;> rw [h]

theorem dispatchFill_entry (h : doc.state = .entryOrderPlaced ∨ doc.state = .awaitingEntryTrigger) :
    dispatchFill config event doc =
      (if event.terminal then
         applyEntryFill (fillArgs event "") (handled (onEntryFilled (fillArgs event "BUY")) doc).1
       else (handled (onEntryFilled (fillArgs event "BUY")) doc).1,
       (handled (onEntryFilled (fillArgs event "BUY")) doc).2) := by
  unfold dispatchFill
  rcases h with h | h <;> rw [h]

theorem dispatchFill_exit (h : doc.state = .exitOrderPlaced) :
    dispatchFill config event doc =
      (if event.terminal then
         applyExitFill (fillArgs event "")
           (handled (onExitFilled config (fillArgs event "SELL")) doc).1
       else (handled (onExitFilled config (fillArgs event "SELL")) doc).1,
       (handled (onExitFilled config (fillArgs event "SELL")) doc).2) := by
  unfold dispatchFill
  rw [h]

/-- A progress event of an entry moves the cumulative quantity and average. -/
theorem dispatchFill_entry_progress
    (h : doc.state = .entryOrderPlaced ∨ doc.state = .awaitingEntryTrigger)
    (hterminal : event.terminal = false) :
    dispatchFill config event doc =
      ({ doc with
          filledQty := event.filledQty
          qty := event.filledQty
          avgPrice := some (event.avgPrice.getD 0) }, []) := by
  rw [dispatchFill_entry h]
  simp [handled, onEntryFilled, h, fillArgs, hterminal]

/-- A terminal fill of an entry activates the position, or clears it when
    nothing was filled; `_apply_fill` then writes the fill over it. -/
theorem dispatchFill_entry_terminal
    (h : doc.state = .entryOrderPlaced ∨ doc.state = .awaitingEntryTrigger)
    (hterminal : event.terminal = true) :
    dispatchFill config event doc =
      (applyEntryFill (fillArgs event "")
        (if event.filledQty = 0 then doc.clearPositionFields.withState .awaitingEntryTrigger
         else entryActivated (fillArgs event "BUY") doc), []) := by
  have hfill : handled (onEntryFilled (fillArgs event "BUY")) doc =
      (if event.filledQty = 0 then doc.clearPositionFields.withState .awaitingEntryTrigger
       else entryActivated (fillArgs event "BUY") doc, []) := by
    simp only [handled, onEntryFilled, h, if_true, fillArgs, hterminal, Bool.true_eq_false,
      if_false]
    split <;> rfl
  rw [dispatchFill_entry h, hfill, if_pos hterminal]

/-- A progress event of an exit moves `filled_qty` alone. -/
theorem dispatchFill_exit_progress (h : doc.state = .exitOrderPlaced)
    (hterminal : event.terminal = false) :
    dispatchFill config event doc = ({ doc with filledQty := event.filledQty }, []) := by
  rw [dispatchFill_exit h]
  simp [handled, onExitFilled, h, fillArgs, hterminal]

/-- A terminal fill of an exit is `on_exit_filled` and then the average price of
    `_apply_fill`. -/
theorem dispatchFill_exit_terminal (h : doc.state = .exitOrderPlaced)
    (hterminal : event.terminal = true) {r : BotDoc × List Effect}
    (hr : onExitFilled config (fillArgs event "SELL") doc = some r) :
    dispatchFill config event doc = (applyExitFill (fillArgs event "") r.1, r.2) := by
  rw [dispatchFill_exit h, handled, hr, if_pos hterminal, Option.getD_some]

theorem dispatchCancel_entry (h : doc.state = .entryOrderPlaced) :
    dispatchCancel doc = (doc.clearPositionFields.withState .awaitingEntryTrigger, []) := by
  have hstep : dispatchCancel doc = handled onEntryCancelled doc := by
    unfold dispatchCancel
    rw [h]
  rw [hstep, handled, onEntryCancelled, if_pos h, Option.getD_some]

theorem dispatchCancel_exit (h : doc.state = .exitOrderPlaced) :
    dispatchCancel doc =
      (({ doc with orderQty := none, filledQty := 0 }).withState .awaitingExitTrigger, []) := by
  have hstep : dispatchCancel doc = handled onExitCancelled doc := by
    unfold dispatchCancel
    rw [h]
  rw [hstep, handled, onExitCancelled, if_pos h, Option.getD_some]

theorem dispatchCancel_ignored (hentry : doc.state ≠ .entryOrderPlaced)
    (hexit : doc.state ≠ .exitOrderPlaced) : dispatchCancel doc = (doc, []) := by
  unfold dispatchCancel
  cases hs : doc.state with
  | entryOrderPlaced => exact absurd hs hentry
  | exitOrderPlaced => exact absurd hs hexit
  | off | errored | awaitingEntryTrigger | awaitingExitTrigger => rfl

/-- The event reaches a handler that moves the state, the position or its average
    price. -/
def Routed (config : StrategyConfig) (event : LedgerEvent) (doc : BotDoc) : Prop :=
  tagged config event = true ∧
    ((event.status ∈ fillStatuses ∧
        (doc.state = .entryOrderPlaced ∨ doc.state = .awaitingEntryTrigger ∨
          (doc.state = .exitOrderPlaced ∧ event.terminal = true))) ∨
      (event.terminal = true ∧ event.status ∈ cancelStatuses ∧
        (doc.state = .entryOrderPlaced ∨ doc.state = .exitOrderPlaced)))

instance (config : StrategyConfig) (event : LedgerEvent) (doc : BotDoc) :
    Decidable (Routed config event doc) := by
  unfold Routed; infer_instance

/-- An event that is not routed leaves the state, the position and its average
    price, and has no effects. -/
theorem dispatch_not_routed (h : ¬Routed config event doc) :
    (dispatchOrderEvent config event doc).1.state = doc.state ∧
      (dispatchOrderEvent config event doc).1.qty = doc.qty ∧
      (dispatchOrderEvent config event doc).1.avgPrice = doc.avgPrice ∧
      (dispatchOrderEvent config event doc).2 = [] := by
  cases htag : tagged config event with
  | false =>
    rw [dispatch_of_not_tagged htag]
    exact ⟨rfl, rfl, rfl, rfl⟩
  | true =>
    by_cases hfill : event.status ∈ fillStatuses
    · rw [dispatch_fill htag hfill]
      cases hs : doc.state with
      | entryOrderPlaced => exact absurd ⟨htag, .inl ⟨hfill, .inl hs⟩⟩ h
      | awaitingEntryTrigger => exact absurd ⟨htag, .inl ⟨hfill, .inr (.inl hs)⟩⟩ h
      | exitOrderPlaced =>
        have hprogress : event.terminal = false := by
          cases ht : event.terminal with
          | false => rfl
          | true => exact absurd ⟨htag, .inl ⟨hfill, .inr (.inr ⟨hs, ht⟩)⟩⟩ h
        rw [dispatchFill_exit_progress hs hprogress]
        exact ⟨hs, rfl, rfl, rfl⟩
      | off =>
        rw [dispatchFill_ignored (.inl hs)]
        exact ⟨hs, rfl, rfl, rfl⟩
      | errored =>
        rw [dispatchFill_ignored (.inr (.inl hs))]
        exact ⟨hs, rfl, rfl, rfl⟩
      | awaitingExitTrigger =>
        rw [dispatchFill_ignored (.inr (.inr hs))]
        exact ⟨hs, rfl, rfl, rfl⟩
    · by_cases hcancel : event.terminal = true ∧ event.status ∈ cancelStatuses
      · rw [dispatch_cancel htag hcancel.1 hcancel.2, dispatchCancel_ignored]
        · exact ⟨rfl, rfl, rfl, rfl⟩
        · intro hs
          exact h ⟨htag, .inr ⟨hcancel.1, hcancel.2, .inl hs⟩⟩
        · intro hs
          exact h ⟨htag, .inr ⟨hcancel.1, hcancel.2, .inr hs⟩⟩
      · rw [dispatch_other hfill hcancel]
        exact ⟨rfl, rfl, rfl, rfl⟩

/-- Placing an exit order moves the state and leaves the position. -/
theorem onPlaceExitOrder_accepted (h : doc.state = .awaitingExitTrigger) (qty : ℚ)
    (origin : String) (id : Option String) :
    ∃ placed, onPlaceExitOrder qty origin id doc = some (placed, []) ∧
      placed.state = .exitOrderPlaced ∧ placed.qty = doc.qty ∧
      placed.avgPrice = doc.avgPrice ∧ placed.entryPrice = doc.entryPrice ∧
      placed.positionDirection = doc.positionDirection :=
  ⟨_, if_pos h, rfl, rfl, rfl, rfl, rfl⟩

/-- The terminal fill that leaves the position flat. -/
theorem onExitFilled_flat (config : StrategyConfig) (args : FillArgs) (h : doc.state = .exitOrderPlaced)
    (hterminal : args.terminal = true) (hflat : doc.qty ≤ args.qty) :
    onExitFilled config args doc =
      some (({ doc.clearPositionFields with
               lastRealizedPnl := some (realizedPnl config args doc)
               exitRetries := 0 }).withState
          (if config.stopOnExit then BotState.off else .awaitingEntryTrigger),
        (if config.stopOnExit then [Effect.requestStop] else []) ++
          [.recordTradeClosed (tradeClosed config args doc)]) := by
  have hzero : max (doc.qty - args.qty) 0 = 0 := max_eq_right (sub_nonpos.mpr hflat)
  simp only [onExitFilled, h, if_true, hterminal, Bool.true_eq_false, if_false, hzero]

/-- The terminal fill that leaves a residual: a retry, or `ERRORED` once the
    retries are used up. -/
theorem onExitFilled_residual (config : StrategyConfig) (args : FillArgs) (h : doc.state = .exitOrderPlaced)
    (hterminal : args.terminal = true) (hrest : args.qty < doc.qty) :
    ∃ r, onExitFilled config args doc = some r ∧ r.1.qty = doc.qty - args.qty ∧
      r.1.entryPrice = doc.entryPrice ∧ r.1.positionDirection = doc.positionDirection ∧
      r.1.state = (if maxExitRetries ≤ doc.exitRetries then .errored else .exitOrderPlaced) ∧
      (∀ trade, .recordTradeClosed trade ∉ r.2) ∧
      ∀ retry, .retryExitOrder retry ∈ r.2 → retry.qty = doc.qty - args.qty := by
  have hpos : max (doc.qty - args.qty) 0 = doc.qty - args.qty :=
    max_eq_left (sub_nonneg.mpr hrest.le)
  have hne : doc.qty - args.qty ≠ 0 := ne_of_gt (sub_pos.mpr hrest)
  simp only [onExitFilled, h, if_true, hterminal, Bool.true_eq_false, if_false, hpos, hne]
  split
  · exact ⟨_, rfl, rfl, rfl, rfl, rfl, by simp, by simp⟩
  · refine ⟨_, rfl, rfl, rfl, rfl, rfl, by simp, ?_⟩
    intro retry hretry
    rw [List.mem_singleton, Effect.retryExitOrder.injEq] at hretry
    rw [hretry]

end Dispatch

end IbTrader.Bots.Runtime
