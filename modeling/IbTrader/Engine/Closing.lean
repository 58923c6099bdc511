/-
  IbTrader.Engine.Closing

  How a trade is closed: what `execute_close` sends, and the four functions that
  record an exit and decide whether the trade group is CLOSED
  (`ib_trader/engine/order.py`, `ib_trader/daemon/reconciler.py`).

  A trade is its rows and its group.  A function that records an exit returns the
  trade it leaves and whether it set the group to CLOSED.  Console output and
  logging are left out.
-/

import IbTrader.Data.Transactions

namespace IbTrader.Engine.Closing

open Data

-- ============================================================================
-- The trade
-- ============================================================================

/-- A row of the `trade_groups` table. -/
structure TradeGroup where
  status : TradeStatus := .opened
  realizedPnl : Option ℚ := none
  totalCommission : Option ℚ := none
  deriving DecidableEq, Repr

structure Trade where
  rows : List TransactionEvent := []
  group : TradeGroup := {}
  deriving DecidableEq, Repr

/-- A trade after an exit was recorded. -/
structure Recorded where
  trade : Trade
  /-- The group was set to CLOSED. -/
  closed : Bool
  deriving DecidableEq, Repr

/-- `update_pnl`: no profit leaves the one there is. -/
def TradeGroup.updatePnl (g : TradeGroup) (pnl : Option ℚ) (commission : ℚ) : TradeGroup :=
  { g with realizedPnl := pnl.or g.realizedPnl, totalCommission := some commission }

/-- `update_status(CLOSED)`, if it is called. -/
def TradeGroup.closeIf (g : TradeGroup) (closed : Bool) : TradeGroup :=
  if closed then { g with status := .closed } else g

@[simp] theorem TradeGroup.closeIf_status (g : TradeGroup) (closed : Bool) :
    (g.closeIf closed).status = if closed then .closed else g.status := by
  cases closed <;> rfl

/-- The order context of a close. -/
structure CloseContext where
  ibOrderId : ℤ
  side : Side
  qtyRequested : ℚ
  multiplier : Option ℚ := none
  deriving DecidableEq, Repr

-- ============================================================================
-- What execute_close sends
-- ============================================================================

/-- The filled quantity of the row `get_entry_fill` returns. -/
def entryFilledQty (rows : List TransactionEvent) : ℚ :=
  ((getEntryFill rows).bind (·.ibFilledQty)).getD 0

/-- The leg types `execute_close` and `_handle_close_fill` subtract. -/
def closedLegs : List LegType := [.close, .profitTaker]

/-- What `execute_close` sends to IB; `none` when it sends nothing, there being no
    filled entry or nothing left of it. -/
def closeQuantity (rows : List TransactionEvent) : Option ℚ :=
  if entryFilledQty rows ≤ 0 then none
  else
    let qtyToClose := entryFilledQty rows - countedQty closedLegs rows
    if qtyToClose ≤ 0 then none else some qtyToClose

-- ============================================================================
-- The engine's exit-fill handlers
-- ============================================================================

/-- A sum with a profit or commission that may be missing. -/
def addTo (existing : Option ℚ) (amount : ℚ) : ℚ := existing.getD 0 + amount

/-- `Decimal("1") if entry_side == "BUY" else Decimal("-1")`. -/
def direction : Side → ℚ
  | .buy => 1
  | .sell => -1

/-- `close_ctx.multiplier or Decimal("1")`. -/
def CloseContext.multiplierOrOne (ctx : CloseContext) : ℚ :=
  (ctx.multiplier.filter (· ≠ 0)).getD 1

/-- Profit of one close against the entry. -/
def closePnl (ctx : CloseContext) (rows : List TransactionEvent) (qty avgPrice commission : ℚ) : ℚ :=
  let entry := getEntryFill rows
  let entryPrice := (entry.bind (·.ibAvgFillPrice)).getD 0
  let entrySide := (entry.map (·.side)).getD ctx.side.opposite
  (avgPrice - entryPrice) * qty * ctx.multiplierOrOne * direction entrySide - commission

/-- The row of a complete close. -/
def closeFillRow (ctx : CloseContext) (qtyFilled avgPrice commission : ℚ) : TransactionEvent where
  action := .filled
  ibOrderId := some ctx.ibOrderId
  legType := .close
  side := ctx.side
  quantity := qtyFilled
  ibFilledQty := some qtyFilled
  ibAvgFillPrice := some avgPrice
  commission := some commission
  isTerminal := true

/-- `_handle_close_fill`. -/
def handleCloseFill (t : Trade) (ctx : CloseContext) (qtyFilled avgPrice commission : ℚ) :
    Recorded :=
  let rows := insert t.rows (closeFillRow ctx qtyFilled avgPrice commission)
  let realizedPnl := addTo t.group.realizedPnl (closePnl ctx rows qtyFilled avgPrice commission)
  let totalCommission := addTo t.group.totalCommission commission
  let remaining := entryFilledQty rows - countedQty closedLegs rows
  { trade := {
      rows
      group := (t.group.updatePnl (some realizedPnl) totalCommission).closeIf (remaining ≤ 0) }
    closed := remaining ≤ 0 }

/-- How `_cancel_and_await_resolution` ended. -/
inductive Resolution where
  | filled
  | cancelled
  | timeout
  deriving DecidableEq, Repr

/-- What `_cancel_and_await_resolution` returned. -/
structure Settlement where
  resolution : Resolution
  qty : ℚ := 0
  avgPrice : Option ℚ := none
  commission : ℚ := 0
  deriving DecidableEq, Repr

/-- The larger of the caller's quantity and IB's. -/
def Settlement.finalQty (s : Settlement) (qtyFilled : ℚ) : ℚ :=
  if qtyFilled < s.qty then s.qty else qtyFilled

/-- The average price that goes with it. -/
def Settlement.effectiveAvg (s : Settlement) (qtyFilled avgPrice : ℚ) : ℚ :=
  if qtyFilled < s.qty then s.avgPrice.getD avgPrice else avgPrice

/-- The larger of the two commissions. -/
def Settlement.finalCommission (s : Settlement) (commission : ℚ) : ℚ :=
  if commission < s.commission then s.commission else commission

/-- The row of the cancel `_handle_close_partial` attempts. -/
def cancelAttemptRow (ctx : CloseContext) : TransactionEvent where
  action := .cancelAttempt
  ibOrderId := some ctx.ibOrderId
  legType := .close
  side := ctx.side
  quantity := ctx.qtyRequested

/-- The row of a partial close. -/
def closePartialRow (ctx : CloseContext) (finalQty avgPrice commission : ℚ) : TransactionEvent where
  action := .partialFill
  ibOrderId := some ctx.ibOrderId
  legType := .close
  side := ctx.side
  quantity := ctx.qtyRequested
  ibFilledQty := some finalQty
  ibAvgFillPrice := some avgPrice
  commission := some commission

/-- `_handle_close_partial` when the cancel did not lose to a fill. -/
def recordClosePartial (t : Trade) (ctx : CloseContext) (finalQty avgPrice commission : ℚ) :
    Recorded :=
  let rows := insert t.rows (closePartialRow ctx finalQty avgPrice commission)
  let realizedPnl := addTo t.group.realizedPnl (closePnl ctx rows finalQty avgPrice commission)
  let totalCommission := addTo t.group.totalCommission commission
  { trade := { rows, group := t.group.updatePnl (some realizedPnl) totalCommission }
    closed := false }

/-- `effective_avg or avg_price`. -/
def orElse (x y : ℚ) : ℚ := if x = 0 then y else x

/-- `_handle_close_partial`. -/
def handleClosePartial (t : Trade) (ctx : CloseContext) (qtyFilled avgPrice commission : ℚ)
    (s : Settlement) : Recorded :=
  let t := { t with rows := insert t.rows (cancelAttemptRow ctx) }
  let finalQty := s.finalQty qtyFilled
  let effectiveAvg := s.effectiveAvg qtyFilled avgPrice
  let commission := s.finalCommission commission
  match s.resolution with
  | .filled => handleCloseFill t ctx finalQty (orElse effectiveAvg avgPrice) commission
  | .cancelled | .timeout => recordClosePartial t ctx finalQty effectiveAvg commission

/-- The rows a partial close adds. -/
def closePartialRows (ctx : CloseContext) (qtyFilled avgPrice commission : ℚ) (s : Settlement) :
    List TransactionEvent :=
  let finalQty := s.finalQty qtyFilled
  let effectiveAvg := s.effectiveAvg qtyFilled avgPrice
  let commission := s.finalCommission commission
  [cancelAttemptRow ctx,
    match s.resolution with
    | .filled => closeFillRow ctx finalQty (orElse effectiveAvg avgPrice) commission
    | .cancelled | .timeout => closePartialRow ctx finalQty effectiveAvg commission]

/-- The first of the multipliers that is positive, else one. -/
def firstPositive (multipliers : List (Option ℚ)) : ℚ :=
  ((multipliers.filterMap id).find? (0 < ·)).getD 1

/-- The row of a fill of a resting exit order. -/
def autonomousFillRow (placement : TransactionEvent) (qtyFilled avgPrice commission : ℚ) :
    TransactionEvent where
  action := .filled
  ibOrderId := placement.ibOrderId
  legType := placement.legType
  side := placement.side
  quantity := qtyFilled
  ibFilledQty := some qtyFilled
  ibAvgFillPrice := some avgPrice
  commission := some commission
  multiplier := placement.multiplier
  isTerminal := true

/-- The placement row of an order. -/
def placementOf (rows : List TransactionEvent) (ibOrderId : ℤ) : Option TransactionEvent :=
  rows.reverse.find? fun t => t.ibOrderId = some ibOrderId ∧ t.action = .placeAccepted

/-- `handle_autonomous_close_fill`; `none` is its `False`: the order is no exit
    order, it has a fill row, or there is no entry fill with a price. -/
def handleAutonomousCloseFill (t : Trade) (ibOrderId : ℤ) (qtyFilled avgPrice commission : ℚ) :
    Option Recorded :=
  match placementOf t.rows ibOrderId, getEntryFill t.rows with
  | some placement, some entry =>
    if placement.legType ∉ [LegType.profitTaker, .stopLoss] then none
    else if (getFilledLegs t.rows).any (·.ibOrderId = some ibOrderId) then none
    else
      match entry.ibAvgFillPrice with
      | none => none
      | some entryPrice =>
        let multiplier := firstPositive [placement.multiplier, entry.multiplier]
        let thisPnl :=
          (avgPrice - entryPrice) * qtyFilled * multiplier * direction entry.side - commission
        let rows := insert t.rows (autonomousFillRow placement qtyFilled avgPrice commission)
        -- `entry_txn.ib_filled_qty or qty_filled`
        let entryFilledQty := orElse entry.filledQty qtyFilled
        let seen := (getFilledLegs rows).any fun leg =>
          leg.ibOrderId = some ibOrderId ∧ leg.action = .filled
        let closedQty := countedQty exitLegs rows + if seen then 0 else qtyFilled
        let remaining := entryFilledQty - closedQty
        some {
          trade := {
            rows
            group := (t.group.updatePnl (some (addTo t.group.realizedPnl thisPnl))
              (addTo t.group.totalCommission commission)).closeIf (remaining ≤ 0) }
          closed := remaining ≤ 0 }
  | _, _ => none

-- ============================================================================
-- The daemon
-- ============================================================================

/-- Price times quantity of the FILLED and PARTIAL_FILL rows of some leg types. -/
def filledValue (legs : List LegType) (rows : List TransactionEvent) : ℚ :=
  (((getFilledLegs rows).filter (·.legType ∈ legs)).map
    fun t => t.ibAvgFillPrice.getD 0 * t.filledQty).sum

/-- The realized profit `_maybe_close_trade_group` computes; none without an entry
    or an exit. -/
def daemonPnl (rows : List TransactionEvent) : Option ℚ :=
  let multiplier := firstPositive (rows.map (·.multiplier))
  let entries := (getFilledLegs rows).filter (·.legType = .entry)
  let exits := (getFilledLegs rows).filter (·.legType ∈ exitLegs)
  match entries.getLast? with
  | some entry =>
    if exits.isEmpty then none
    else some ((filledValue exitLegs rows - filledValue [.entry] rows) * multiplier *
      direction entry.side)
  | none => none

/-- `_maybe_close_trade_group`: the group is closed when the last row of every
    order is terminal. -/
def maybeCloseTradeGroup (t : Trade) : Recorded :=
  let legSummary := getTradeLegSummary t.rows
  if legSummary = [] then { trade := t, closed := false }
  else if legSummary.any (!·.isTerminal) then { trade := t, closed := false }
  else
    let totalCommission := (t.rows.map (·.commission.getD 0)).sum
    let group :=
      match daemonPnl t.rows with
      | some pnl => t.group.updatePnl (some pnl) totalCommission
      | none => t.group
    { trade := { t with group := group.closeIf true }, closed := true }

/-- What `get_order_status` answers for an order IB no longer lists as open. -/
structure FinalStatus where
  status : String
  qtyFilled : ℚ := 0
  avgFillPrice : Option ℚ := none
  commission : Option ℚ := none
  deriving DecidableEq, Repr

/-- `CANCELED_STATUSES`. -/
def canceledStatuses : List String := ["Cancelled", "Inactive", "ApiCancelled"]

/-- The RECONCILED row of an order that filled. -/
def reconciledFillRow (txn : TransactionEvent) (status : FinalStatus) : TransactionEvent where
  action := .reconciled
  ibOrderId := txn.ibOrderId
  legType := txn.legType
  side := txn.side
  quantity := txn.quantity
  ibFilledQty := some status.qtyFilled
  ibAvgFillPrice := some (status.avgFillPrice.getD 0)
  commission := some (status.commission.getD 0)
  multiplier := txn.multiplier
  isTerminal := true

/-- The RECONCILED row of an order that was cancelled. -/
def reconciledCancelRow (txn : TransactionEvent) : TransactionEvent where
  action := .reconciled
  ibOrderId := txn.ibOrderId
  legType := txn.legType
  side := txn.side
  quantity := txn.quantity
  multiplier := txn.multiplier
  isTerminal := true

/-- The RECONCILED row of an order that filled or was cancelled. -/
def reconciledRow (txn : TransactionEvent) (status : FinalStatus) : TransactionEvent :=
  if status.status = "Filled" then reconciledFillRow txn status else reconciledCancelRow txn

/-- `run_reconciliation` for one order of the trade that IB does not list as open, on
    whatever the client answers; `none` when it leaves the order as it is.  The client
    in use knows its orders by text and answers nothing of them (`runReconciliation_eq`
    of `IbTrader.Engine.BookedFills`). -/
def reconcileOrder (t : Trade) (ibOrderId : ℤ) (status : FinalStatus) : Option Recorded :=
  match latestByIbOrderId t.rows ibOrderId with
  | none => none
  | some txn =>
    if txn.isTerminal then none
    else if status.status = "Filled" then
      some (maybeCloseTradeGroup { t with rows := insert t.rows (reconciledFillRow txn status) })
    else if status.status ∈ canceledStatuses then
      some (maybeCloseTradeGroup { t with rows := insert t.rows (reconciledCancelRow txn) })
    else none

-- ============================================================================
-- What they write
-- ============================================================================

/-- What is sent is positive and the entry's row less the rows subtracted. -/
theorem closeQuantity_some {rows : List TransactionEvent} {q : ℚ}
    (h : closeQuantity rows = some q) :
    0 < q ∧ q = entryFilledQty rows - countedQty closedLegs rows := by
  unfold closeQuantity at h
  split at h
  · cases h
  · dsimp only at h
    split at h
    · cases h
    case isFalse hpos =>
      obtain rfl := Option.some.inj h
      exact ⟨not_le.mp hpos, rfl⟩

@[simp] theorem handleCloseFill_rows (t : Trade) (ctx : CloseContext) (qty avgPrice commission : ℚ) :
    (handleCloseFill t ctx qty avgPrice commission).trade.rows =
      insert t.rows (closeFillRow ctx qty avgPrice commission) := rfl

@[simp] theorem recordClosePartial_rows (t : Trade) (ctx : CloseContext)
    (qty avgPrice commission : ℚ) :
    (recordClosePartial t ctx qty avgPrice commission).trade.rows =
      insert t.rows (closePartialRow ctx qty avgPrice commission) := rfl

@[simp] theorem maybeCloseTradeGroup_rows (t : Trade) :
    (maybeCloseTradeGroup t).trade.rows = t.rows := by
  unfold maybeCloseTradeGroup
  dsimp only
  split
  · rfl
  · split <;> rfl

/-- A partial close adds its cancel row, then records as a complete close or as a
    partial one. -/
theorem handleClosePartial_cases (t : Trade) (ctx : CloseContext) (qty avgPrice commission : ℚ)
    (s : Settlement) :
    (s.resolution = .filled ∧ ∃ price c, handleClosePartial t ctx qty avgPrice commission s =
        handleCloseFill { t with rows := insert t.rows (cancelAttemptRow ctx) } ctx
          (s.finalQty qty) price c) ∨
      (s.resolution ≠ .filled ∧ ∃ price c, handleClosePartial t ctx qty avgPrice commission s =
        recordClosePartial { t with rows := insert t.rows (cancelAttemptRow ctx) } ctx
          (s.finalQty qty) price c) := by
  unfold handleClosePartial
  cases h : s.resolution with
  | filled => exact .inl ⟨rfl, _, _, rfl⟩
  | cancelled => exact .inr ⟨Resolution.noConfusion, _, _, rfl⟩
  | timeout => exact .inr ⟨Resolution.noConfusion, _, _, rfl⟩

@[simp] theorem handleClosePartial_rows (t : Trade) (ctx : CloseContext)
    (qty avgPrice commission : ℚ) (s : Settlement) :
    (handleClosePartial t ctx qty avgPrice commission s).trade.rows =
      (closePartialRows ctx qty avgPrice commission s).foldl insert t.rows := by
  unfold handleClosePartial closePartialRows
  cases s.resolution <;> rfl

theorem Settlement.le_finalQty (s : Settlement) (qty : ℚ) : qty ≤ s.finalQty qty := by
  unfold Settlement.finalQty
  split
  case isTrue h => exact h.le
  case isFalse => exact le_rfl

theorem placementOf_some {rows : List TransactionEvent} {id : ℤ} {placement : TransactionEvent}
    (h : placementOf rows id = some placement) :
    placement ∈ rows ∧ placement.ibOrderId = some id := by
  have hfound := List.find?_some h
  simp only [decide_eq_true_eq] at hfound
  exact ⟨List.mem_reverse.mp (List.mem_of_find?_eq_some h), hfound.1⟩

theorem placementOf_insert (rows : List TransactionEvent) (event : TransactionEvent) (id : ℤ) :
    placementOf (insert rows event) id =
      if event.ibOrderId = some id ∧ event.action = .placeAccepted then some event.stored
      else placementOf rows id := by
  unfold placementOf Data.insert
  rw [List.reverse_append, List.reverse_singleton, List.singleton_append, List.find?_cons]
  by_cases h : event.ibOrderId = some id ∧ event.action = .placeAccepted
  · rw [if_pos h]
    have hrow : event.stored.ibOrderId = some id ∧ event.stored.action = .placeAccepted := h
    simp [hrow]
  · rw [if_neg h]
    have hrow : ¬ (event.stored.ibOrderId = some id ∧ event.stored.action = .placeAccepted) := h
    simp only [hrow, decide_false]

/-- A row that is no placement row of the order leaves its placement row. -/
theorem placementOf_insert_of_ne {event : TransactionEvent} {id : ℤ}
    (h : event.action ≠ .placeAccepted ∨ event.ibOrderId ≠ some id)
    (rows : List TransactionEvent) : placementOf (insert rows event) id = placementOf rows id := by
  rw [placementOf_insert, if_neg]
  rintro ⟨hid, haction⟩
  rcases h with h | h
  · exact h haction
  · exact h hid

/-- A fill of a resting exit order is recorded for a profit taker or stop loss
    without a fill row. -/
theorem handleAutonomousCloseFill_some {t : Trade} {id : ℤ} {qty avgPrice commission : ℚ}
    {recorded : Recorded} (h : handleAutonomousCloseFill t id qty avgPrice commission = some recorded) :
    ∃ placement entry, placementOf t.rows id = some placement ∧
      placement.legType ∈ [LegType.profitTaker, .stopLoss] ∧
      (∀ leg ∈ getFilledLegs t.rows, leg.ibOrderId ≠ some id) ∧
      getEntryFill t.rows = some entry ∧
      recorded.trade.rows = insert t.rows (autonomousFillRow placement qty avgPrice commission) ∧
      (recorded.closed = true ↔ orElse entry.filledQty qty -
        countedQty exitLegs recorded.trade.rows ≤ 0) ∧
      recorded.trade.group.status = if recorded.closed then .closed else t.group.status := by
  unfold handleAutonomousCloseFill at h
  split at h
  case h_2 => cases h
  case h_1 placement entry hplacement hentry =>
    obtain ⟨-, hid⟩ := placementOf_some hplacement
    split at h
    · cases h
    case isFalse hleg =>
      split at h
      · cases h
      case isFalse hnone =>
        split at h
        · cases h
        case h_2 entryPrice hprice =>
          have hseen : (getFilledLegs (insert t.rows (autonomousFillRow placement qty avgPrice
              commission))).any (fun leg => leg.ibOrderId = some id ∧ leg.action = .filled) = true := by
            rw [List.any_eq_true]
            refine ⟨autonomousFillRow placement qty avgPrice commission, ?_, ?_⟩
            · exact List.mem_filter.mpr ⟨List.mem_append_right _ (List.mem_singleton.mpr rfl), rfl⟩
            · simp [autonomousFillRow, hid]
          obtain rfl := Option.some.inj h
          refine ⟨placement, entry, hplacement, not_not.mp hleg, ?_, hentry, rfl, ?_, ?_⟩
          · intro leg hleg hid
            exact hnone (List.any_eq_true.mpr ⟨leg, hleg, by simpa using hid⟩)
          · dsimp only
            rw [if_pos hseen, add_zero, decide_eq_true_eq]
          · exact TradeGroup.closeIf_status _ _

@[simp] theorem reconciledRow_action (txn : TransactionEvent) (status : FinalStatus) :
    (reconciledRow txn status).action = .reconciled := by unfold reconciledRow; split <;> rfl

@[simp] theorem reconciledRow_ibOrderId (txn : TransactionEvent) (status : FinalStatus) :
    (reconciledRow txn status).ibOrderId = txn.ibOrderId := by unfold reconciledRow; split <;> rfl

@[simp] theorem reconciledRow_legType (txn : TransactionEvent) (status : FinalStatus) :
    (reconciledRow txn status).legType = txn.legType := by unfold reconciledRow; split <;> rfl

/-- The daemon writes a RECONCILED row for an order whose last row is open. -/
theorem reconcileOrder_some {t : Trade} {id : ℤ} {status : FinalStatus} {recorded : Recorded}
    (h : reconcileOrder t id status = some recorded) :
    ∃ txn, latestByIbOrderId t.rows id = some txn ∧
      recorded = maybeCloseTradeGroup { t with rows := insert t.rows (reconciledRow txn status) } := by
  unfold reconcileOrder at h
  split at h
  · cases h
  case h_2 txn htxn =>
    refine ⟨txn, htxn, ?_⟩
    unfold reconciledRow
    split at h
    · cases h
    · split at h
      case isTrue hfilled =>
        rw [if_pos hfilled]
        exact (Option.some.inj h).symm
      case isFalse hfilled =>
        rw [if_neg hfilled]
        split at h
        · exact (Option.some.inj h).symm
        · cases h

end IbTrader.Engine.Closing
