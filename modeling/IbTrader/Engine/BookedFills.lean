/-
  IbTrader.Engine.BookedFills

  The two places that book fills no command books: the global `on_fill`
  (`ib_trader/engine/main.py`), for profit takers and stop losses, and
  `run_reconciliation` of the daemon.

  The rows of a trade grow by the rows its commands write and by the executions IB
  delivers to `on_fill`, in any order.  Of an order without an exit placement row
  only the commands book anything (`fillQtys_book`); a profit taker or stop loss is
  booked whole when its only execution finds the placement row and the priced
  entry (`booked_exit_iff`).  The daemon adds nothing (`runReconciliation_eq`): the
  orders it asks the client for are numbers, the client's keys are text.
-/

import IbTrader.Engine.SplitFills
import IbTrader.Engine.SmartMarket

namespace IbTrader.Engine.Booking

open Lib Data Closing
open SmartMarket (OrderStatus)

-- ============================================================================
-- What is booked of an order
-- ============================================================================

/-- A FILLED, PARTIAL_FILL or RECONCILED row of the order. -/
def bookRow (id : ℤ) (t : TransactionEvent) : Bool := t.reportsFill && t.ibOrderId = some id

/-- The `ib_filled_qty` of these rows. -/
def fillQtys (id : ℤ) (rows : List TransactionEvent) : List ℚ :=
  (rows.filter (bookRow id)).map (·.filledQty)

/-- The largest of them, zero without one. -/
def booked (id : ℤ) (rows : List TransactionEvent) : ℚ :=
  CumulativeReports.peak (fillReports (rows.filter (·.reportsFill))) (some id)

theorem booked_eq (id : ℤ) (rows : List TransactionEvent) :
    booked id rows = (fillQtys id rows).foldr max 0 := by
  unfold booked CumulativeReports.peak fillReports fillQtys
  congr 1
  rw [List.filter_map, List.map_map, List.filter_filter]
  have hfilter : (fun t : TransactionEvent =>
      ((fun report : Option ℤ × ℚ => decide (report.1 = some id)) ∘
        fun t : TransactionEvent => (t.ibOrderId, t.filledQty)) t && t.reportsFill) = bookRow id := by
    funext t
    simp [bookRow, Bool.and_comm]
  rw [hfilter]
  rfl

@[simp] theorem bookRow_stored (id : ℤ) (t : TransactionEvent) :
    bookRow id t.stored = bookRow id t := rfl

theorem fillQtys_append (id : ℤ) (rows more : List TransactionEvent) :
    fillQtys id (rows ++ more) = fillQtys id rows ++ fillQtys id more := by
  rw [fillQtys, List.filter_append, List.map_append]
  rfl

theorem fillQtys_insert (id : ℤ) (rows : List TransactionEvent) (event : TransactionEvent) :
    fillQtys id (insert rows event) =
      fillQtys id rows ++ if bookRow id event then [event.filledQty] else [] := by
  rw [Data.insert, fillQtys_append]
  congr 1
  unfold fillQtys
  rw [List.filter_singleton, bookRow_stored]
  cases bookRow id event <;> rfl

-- ============================================================================
-- The daemon
-- ============================================================================

/-- A key of a Python dict: `1` and `"1"` are two keys. -/
inductive DictKey where
  | int (n : ℤ)
  | str (s : String)
  deriving DecidableEq, Repr

/-- `dict.get`. -/
def dictGet {α : Type} (entries : List (DictKey × α)) (key : DictKey) : Option α :=
  (entries.find? (·.1 = key)).map Prod.snd

/-- The IB client of the daemon.  `get_open_orders` gives the `ib_order_id` of an
    order as text, and so are the keys of `__active_trades`. -/
structure DaemonClient where
  openOrders : List String
  activeTrades : List (String × OrderStatus)

/-- `ib_by_id`. -/
def DaemonClient.ibById (ib : DaemonClient) : List (DictKey × Unit) :=
  ib.openOrders.map fun id => (.str id, ())

/-- `get_order_status`, with the key it is given. -/
def DaemonClient.getOrderStatus (ib : DaemonClient) (ibOrderId : DictKey) : OrderStatus :=
  (dictGet (ib.activeTrades.map fun trade => (.str trade.1, trade.2)) ibOrderId).getD {}

/-- What the daemon reads of it. -/
def finalStatus (status : OrderStatus) : FinalStatus where
  status := status.status
  qtyFilled := status.qtyFilled
  avgFillPrice := status.avgFillPrice
  commission := status.commission

/-- One order of the loop of `run_reconciliation`; `ib_order_id` of a row is an
    integer. -/
def reconcileRow (ib : DaemonClient) (t : Trade) (txn : TransactionEvent) : Trade :=
  match txn.ibOrderId with
  | none => t
  | some id =>
    if id = 0 then t
    else if (dictGet ib.ibById (.int id)).isSome then t
    else
      ((reconcileOrder t id (finalStatus (ib.getOrderStatus (.int id)))).map (·.trade)).getD t

/-- `run_reconciliation`, for the open orders of a trade. -/
def runReconciliation (ib : DaemonClient) (t : Trade) : Trade :=
  ((getTradeLegSummary t.rows).filter (!·.isTerminal)).foldl (reconcileRow ib) t

/-- No key of text is the number. -/
theorem getOrderStatus_int (ib : DaemonClient) (id : ℤ) : ib.getOrderStatus (.int id) = {} := by
  unfold DaemonClient.getOrderStatus dictGet
  rw [List.find?_eq_none.mpr]
  · rfl
  · intro entry hentry
    obtain ⟨trade, -, rfl⟩ := List.mem_map.mp hentry
    simp

theorem reconcileRow_eq (ib : DaemonClient) (t : Trade) (txn : TransactionEvent) :
    reconcileRow ib t txn = t := by
  have hunknown : ∀ id, reconcileOrder t id (finalStatus {}) = none := by
    intro id
    unfold reconcileOrder
    split
    · rfl
    · split
      · rfl
      · rw [if_neg (by decide), if_neg (by decide)]
  unfold reconcileRow
  split
  · rfl
  · rw [getOrderStatus_int, hunknown]
    simp

/-- Whatever the client holds, the pass leaves the books as they are. -/
theorem runReconciliation_eq (ib : DaemonClient) (t : Trade) : runReconciliation ib t = t := by
  unfold runReconciliation
  induction (getTradeLegSummary t.rows).filter (!·.isTerminal) with
  | nil => rfl
  | cons txn later ih => rwa [List.foldl_cons, reconcileRow_eq]

-- ============================================================================
-- Rows and executions
-- ============================================================================

/-- A fill IB reports: some quantity. -/
structure Execution where
  fill : Fill
  pos : 0 < fill.qty

/-- How the rows of a trade grow. -/
inductive BookStep where
  /-- A command writes a row. -/
  | write (event : TransactionEvent)
  /-- `on_fill` runs for an execution of an order. -/
  | deliver (ibOrderId : ℤ) (execution : Execution)

def bookStep (t : Trade) : BookStep → Trade
  | .write event => { t with rows := insert t.rows event }
  | .deliver id execution => deliverFill id t execution.fill

/-- The trade after the steps. -/
def book (t : Trade) (steps : List BookStep) : Trade := steps.foldl bookStep t

/-- The rows the commands have written. -/
def written (rows : List TransactionEvent) : List BookStep → List TransactionEvent
  | [] => rows
  | .write event :: later => written (insert rows event) later
  | .deliver _ _ :: later => written rows later

/-- What IB has filled of an order. -/
def filledQty (id : ℤ) : List BookStep → ℚ
  | [] => 0
  | .write _ :: later => filledQty id later
  | .deliver other execution :: later =>
    (if other = id then execution.fill.qty else 0) + filledQty id later

theorem filledQty_nonneg (id : ℤ) (steps : List BookStep) : 0 ≤ filledQty id steps := by
  induction steps with
  | nil => exact le_rfl
  | cons step later ih =>
    cases step with
    | write event => exact ih
    | deliver other execution =>
      refine add_nonneg ?_ ih
      split
      · exact execution.pos.le
      · exact le_rfl

/-- The books take an execution of the order. -/
def Takes (id : ℤ) (rows : List TransactionEvent) : Prop :=
  IsExitOrder rows id ∧ Unfilled rows id ∧ EntryPriced rows

/-- An execution adds a fill row of its order, or nothing. -/
theorem deliverFill_cases (id : ℤ) (t : Trade) (f : Fill) :
    (Takes id t.rows ∧ ∃ placement, placement.ibOrderId = some id ∧
        placement.legType ∈ [LegType.profitTaker, .stopLoss] ∧
        (deliverFill id t f).rows =
          insert t.rows (autonomousFillRow placement f.qty f.avgPrice f.commission)) ∨
      (¬Takes id t.rows ∧ deliverFill id t f = t) := by
  unfold deliverFill
  cases hrecorded : handleAutonomousCloseFill t id f.qty f.avgPrice f.commission with
  | some recorded =>
    obtain ⟨placement, entry, hplacement, hleg, -, -, hrows, -⟩ :=
      handleAutonomousCloseFill_some hrecorded
    have hexit : IsExitOrder t.rows id := ⟨placement, hplacement, hleg⟩
    have hopen := (handleAutonomousCloseFill_isSome_iff hexit f).mp (by rw [hrecorded]; rfl)
    exact .inl ⟨⟨hexit, hopen⟩, placement, (placementOf_some hplacement).2, hleg, hrows⟩
  | none =>
    refine .inr ⟨fun htakes => ?_, rfl⟩
    have hsome := (handleAutonomousCloseFill_isSome_iff htakes.1 f).mpr htakes.2
    rw [hrecorded] at hsome
    cases hsome

/-- An execution of another order adds nothing to what is booked. -/
theorem fillQtys_deliverFill_of_ne {id other : ℤ} (h : other ≠ id) (t : Trade) (f : Fill) :
    fillQtys id (deliverFill other t f).rows = fillQtys id t.rows := by
  obtain ⟨-, placement, hid, -, hrows⟩ | ⟨-, hsame⟩ := deliverFill_cases other t f
  · have hrow : bookRow id (autonomousFillRow placement f.qty f.avgPrice f.commission) = false := by
      simp [bookRow, autonomousFillRow, hid, h]
    rw [hrows, fillQtys_insert, hrow]
    simp
  · rw [hsame]

-- ============================================================================
-- Orders that only their command books
-- ============================================================================

/-- No row places the order as a profit taker or stop loss. -/
def NoExitPlacement (id : ℤ) (rows : List TransactionEvent) : Prop :=
  ∀ t ∈ rows, t.ibOrderId = some id → t.action = .placeAccepted →
    t.legType ∉ [LegType.profitTaker, .stopLoss]

theorem NoExitPlacement.not_isExitOrder {id : ℤ} {rows : List TransactionEvent}
    (h : NoExitPlacement id rows) : ¬IsExitOrder rows id := by
  rintro ⟨placement, hplacement, hleg⟩
  have hfound := List.find?_some hplacement
  simp only [decide_eq_true_eq] at hfound
  exact h placement (placementOf_some hplacement).1 hfound.1 hfound.2 hleg

theorem noExitPlacement_insert {id : ℤ} {rows : List TransactionEvent} {event : TransactionEvent} :
    NoExitPlacement id (insert rows event) ↔ NoExitPlacement id rows ∧
      (event.ibOrderId = some id → event.action = .placeAccepted →
        event.legType ∉ [LegType.profitTaker, .stopLoss]) := by
  unfold NoExitPlacement Data.insert
  rw [List.forall_mem_append, List.forall_mem_singleton]
  rfl

theorem noExitPlacement_written {id : ℤ} {rows : List TransactionEvent} (steps : List BookStep)
    (h : NoExitPlacement id (written rows steps)) : NoExitPlacement id rows := by
  induction steps generalizing rows with
  | nil => exact h
  | cons step later ih =>
    cases step with
    | write event => exact (noExitPlacement_insert.mp (ih h)).1
    | deliver other execution => exact ih h

/-- Of an order that is no exit order, what is booked is what the commands book. -/
theorem fillQtys_book {id : ℤ} (steps : List BookStep) (t : Trade) (rows : List TransactionEvent)
    (ht : NoExitPlacement id t.rows) (hqtys : fillQtys id t.rows = fillQtys id rows)
    (h : NoExitPlacement id (written rows steps)) :
    fillQtys id (book t steps).rows = fillQtys id (written rows steps) := by
  induction steps generalizing t rows with
  | nil => exact hqtys
  | cons step later ih =>
    cases step with
    | write event =>
      have hevent := (noExitPlacement_insert.mp (noExitPlacement_written later h)).2
      refine ih _ (insert rows event) (noExitPlacement_insert.mpr ⟨ht, hevent⟩) ?_ h
      change fillQtys id (insert t.rows event) = fillQtys id (insert rows event)
      rw [fillQtys_insert, fillQtys_insert, hqtys]
    | deliver other execution =>
      obtain ⟨htakes, placement, -, -, hrows⟩ | ⟨-, hsame⟩ :=
        deliverFill_cases other t execution.fill
      · have hne : other ≠ id := by
          rintro rfl
          exact ht.not_isExitOrder htakes.1
        refine ih _ rows ?_ ?_ h
        · change NoExitPlacement id (deliverFill other t execution.fill).rows
          rw [hrows]
          exact noExitPlacement_insert.mpr ⟨ht, fun _ haction => by cases haction⟩
        · exact (fillQtys_deliverFill_of_ne hne t execution.fill).trans hqtys
      · refine ih _ rows ?_ ?_ h
        · change NoExitPlacement id (deliverFill other t execution.fill).rows
          rwa [hsame]
        · change fillQtys id (deliverFill other t execution.fill).rows = fillQtys id rows
          rwa [hsame]

-- ============================================================================
-- Profit takers and stop losses
-- ============================================================================

/-- Two lists of rows show a handler the same placements and the same entry. -/
structure SameReads (rows rows' : List TransactionEvent) : Prop where
  placement : ∀ id, placementOf rows' id = placementOf rows id
  filled : rows'.find? (fun t => t.legType = .entry ∧ t.action = .filled) =
    rows.find? (fun t => t.legType = .entry ∧ t.action = .filled)
  partialFill : rows'.reverse.find? (fun t => t.legType = .entry ∧ t.action = .partialFill) =
    rows.reverse.find? (fun t => t.legType = .entry ∧ t.action = .partialFill)

section SameReads

variable {rows rows' : List TransactionEvent}

theorem SameReads.isExitOrder (h : SameReads rows rows') (id : ℤ) :
    IsExitOrder rows' id ↔ IsExitOrder rows id := by rw [IsExitOrder, h.placement, IsExitOrder]

theorem SameReads.entryPriced (h : SameReads rows rows') : EntryPriced rows' ↔ EntryPriced rows := by
  rw [EntryPriced, getEntryFill, h.filled, h.partialFill, EntryPriced, getEntryFill]

theorem SameReads.insert (h : SameReads rows rows') (event : TransactionEvent) :
    SameReads (insert rows event) (insert rows' event) where
  placement id := by rw [placementOf_insert, placementOf_insert, h.placement]
  filled := by simp only [Data.insert, List.find?_append, h.filled]
  partialFill := by
    simp only [Data.insert, List.reverse_append, List.find?_append, h.partialFill]

/-- A fill of an exit order is not among what they read. -/
theorem SameReads.insert_exit (h : SameReads rows rows') {event : TransactionEvent}
    (haction : event.action = .filled) (hleg : event.legType ∈ [LegType.profitTaker, .stopLoss]) :
    SameReads rows (Data.insert rows' event) := by
  have hentry : event.stored.legType ≠ .entry := by
    change event.legType ≠ .entry
    intro hentry
    rw [hentry] at hleg
    exact absurd hleg (by decide)
  refine ⟨fun id => ?_, ?_, ?_⟩
  · rw [placementOf_insert, if_neg (by simp [haction]), h.placement]
  · simpa [Data.insert, List.find?_append, hentry] using h.filled
  · simpa [Data.insert, hentry] using h.partialFill

end SameReads

/-- Rows only add to the fill rows. -/
theorem unfilled_of_insert {id : ℤ} {rows : List TransactionEvent} {event : TransactionEvent}
    (h : Unfilled (insert rows event) id) : Unfilled rows id := by
  intro leg hleg
  refine h leg ?_
  rw [getFilledLegs, Data.insert, List.filter_append]
  exact List.mem_append_left _ hleg

theorem unfilled_of_fillQtys {id : ℤ} {rows : List TransactionEvent} (h : fillQtys id rows = []) :
    Unfilled rows id := by
  intro leg hleg hid
  obtain ⟨hmem, hfill⟩ := List.mem_filter.mp hleg
  have hrow : leg ∈ rows.filter (bookRow id) :=
    List.mem_filter.mpr ⟨hmem, by simp [bookRow, TransactionEvent.reportsFill, hfill, hid]⟩
  rw [List.map_eq_nil_iff.mp h] at hrow
  cases hrow

/-- The order does not fill, or its first execution finds the placement row and the
    priced entry and is the only one. -/
def BookedWhole (id : ℤ) : List TransactionEvent → List BookStep → Prop
  | _, [] => True
  | rows, .write event :: later => BookedWhole id (insert rows event) later
  | rows, .deliver other _ :: later =>
    if other = id then IsExitOrder rows id ∧ EntryPriced rows ∧ filledQty id later = 0
    else BookedWhole id rows later

/-- The commands write no fill row of the order. -/
def NoFillWritten (id : ℤ) (steps : List BookStep) : Prop :=
  ∀ event, .write event ∈ steps → bookRow id event = false

section ExitOrders

variable {id : ℤ} {step : BookStep} {later : List BookStep}

theorem NoFillWritten.tail (h : NoFillWritten id (step :: later)) : NoFillWritten id later :=
  fun event hmem => h event (List.mem_cons_of_mem step hmem)

theorem fillQtys_write {event : TransactionEvent} (h : bookRow id event = false)
    (rows : List TransactionEvent) : fillQtys id (insert rows event) = fillQtys id rows := by
  rw [fillQtys_insert, h]
  simp

/-- A row of the fill stays the only one. -/
theorem fillQtys_book_of_filled (steps : List BookStep) (t : Trade)
    (hfilled : ¬Unfilled t.rows id) (h : NoFillWritten id steps) :
    fillQtys id (book t steps).rows = fillQtys id t.rows := by
  induction steps generalizing t with
  | nil => rfl
  | cons step later ih =>
    cases step with
    | write event =>
      have hrow := h event List.mem_cons_self
      have hkept : ¬Unfilled (insert t.rows event) id := fun h => hfilled (unfilled_of_insert h)
      rw [book, List.foldl_cons]
      exact (ih _ hkept h.tail).trans (fillQtys_write hrow t.rows)
    | deliver other execution =>
      rw [book, List.foldl_cons]
      obtain ⟨htakes, placement, hid, -, hrows⟩ | ⟨-, hsame⟩ :=
        deliverFill_cases other t execution.fill
      · have hne : other ≠ id := by
          rintro rfl
          exact hfilled htakes.2.1
        have hkept : ¬Unfilled (deliverFill other t execution.fill).rows id := by
          rw [hrows]
          exact fun h => hfilled (unfilled_of_insert h)
        exact (ih _ hkept h.tail).trans (fillQtys_deliverFill_of_ne hne t execution.fill)
      · change fillQtys id (book (deliverFill other t execution.fill) later).rows = _
        rw [hsame]
        exact ih t hfilled h.tail

/-- An execution the books take is booked with its quantity, and closes them. -/
theorem fillQtys_of_taken {t : Trade} {f : Fill} {placement : TransactionEvent}
    (hid : placement.ibOrderId = some id) (hqtys : fillQtys id t.rows = [])
    (hrows : (deliverFill id t f).rows =
      insert t.rows (autonomousFillRow placement f.qty f.avgPrice f.commission)) :
    fillQtys id (deliverFill id t f).rows = [f.qty] ∧ ¬Unfilled (deliverFill id t f).rows id := by
  have hrow : bookRow id (autonomousFillRow placement f.qty f.avgPrice f.commission) = true := by
    simp [bookRow, autonomousFillRow, hid, TransactionEvent.reportsFill, TransactionEvent.isFill]
  rw [hrows]
  refine ⟨?_, fun hunfilled => ?_⟩
  · rw [fillQtys_insert, hqtys, hrow]
    rfl
  · refine hunfilled (autonomousFillRow placement f.qty f.avgPrice f.commission).stored ?_ hid
    rw [getFilledLegs_insert_of_fill rfl]
    exact List.mem_append_right _ (List.mem_singleton.mpr rfl)

/-- What is booked of an order that had no fill row is no more than it fills. -/
theorem booked_le (steps : List BookStep) (t : Trade) (hqtys : fillQtys id t.rows = [])
    (h : NoFillWritten id steps) : booked id (book t steps).rows ≤ filledQty id steps := by
  induction steps generalizing t with
  | nil =>
    rw [booked_eq]
    change (fillQtys id t.rows).foldr max 0 ≤ 0
    rw [hqtys]
    exact le_rfl
  | cons step later ih =>
    rw [book, List.foldl_cons]
    cases step with
    | write event => exact ih _ ((fillQtys_write (h event List.mem_cons_self) t.rows).trans hqtys) h.tail
    | deliver other execution =>
      rw [filledQty]
      by_cases hother : other = id
      · subst hother
        rw [if_pos rfl]
        obtain ⟨-, placement, hid, -, hrows⟩ | ⟨-, hsame⟩ := deliverFill_cases other t execution.fill
        · obtain ⟨hone, hfilled⟩ := fillQtys_of_taken hid hqtys hrows
          have hbook := fillQtys_book_of_filled later _ hfilled h.tail
          rw [booked_eq, ← book, bookStep, hbook, hone]
          have hrest := filledQty_nonneg other later
          have hpos := execution.pos
          simp only [List.foldr_cons, List.foldr_nil]
          rw [max_eq_left hpos.le]
          linarith
        · have hle := ih t hqtys h.tail
          have hpos := execution.pos
          change booked other (book (deliverFill other t execution.fill) later).rows ≤ _
          rw [hsame]
          linarith
      · rw [if_neg hother, zero_add]
        exact ih _ ((fillQtys_deliverFill_of_ne hother t execution.fill).trans hqtys) h.tail

/-- A profit taker or stop loss is booked with what it fills exactly when it does not
    fill, or fills in one execution that finds its placement row and the entry. -/
theorem booked_exit_iff (steps : List BookStep) (t : Trade) (rows : List TransactionEvent)
    (hreads : SameReads rows t.rows) (hqtys : fillQtys id t.rows = []) (h : NoFillWritten id steps) :
    booked id (book t steps).rows = filledQty id steps ↔ BookedWhole id rows steps := by
  induction steps generalizing t rows with
  | nil =>
    rw [booked_eq]
    change (fillQtys id t.rows).foldr max 0 = 0 ↔ True
    rw [hqtys]
    simp
  | cons step later ih =>
    rw [book, List.foldl_cons]
    cases step with
    | write event =>
      exact ih _ _ (hreads.insert event)
        ((fillQtys_write (h event List.mem_cons_self) t.rows).trans hqtys) h.tail
    | deliver other execution =>
      rw [filledQty, BookedWhole]
      by_cases hother : other = id
      · subst hother
        rw [if_pos rfl, if_pos rfl]
        have htakes : Takes other t.rows ↔ IsExitOrder rows other ∧ EntryPriced rows := by
          rw [Takes, hreads.isExitOrder, hreads.entryPriced]
          exact ⟨fun h => ⟨h.1, h.2.2⟩, fun h => ⟨h.1, unfilled_of_fillQtys hqtys, h.2⟩⟩
        obtain ⟨htaken, placement, hid, -, hrows⟩ | ⟨hnot, hsame⟩ :=
          deliverFill_cases other t execution.fill
        · obtain ⟨hone, hfilled⟩ := fillQtys_of_taken hid hqtys hrows
          have hbook := fillQtys_book_of_filled later _ hfilled h.tail
          obtain ⟨hexit, hpriced⟩ := htakes.mp htaken
          rw [booked_eq, ← book, bookStep, hbook, hone]
          simp only [List.foldr_cons, List.foldr_nil, max_eq_left execution.pos.le]
          constructor
          · intro heq
            exact ⟨hexit, hpriced, by linarith⟩
          · rintro ⟨-, -, hrest⟩
            rw [hrest, add_zero]
        · have hle := booked_le later t hqtys h.tail
          have hpos := execution.pos
          change booked other (book (deliverFill other t execution.fill) later).rows = _ ↔ _
          rw [hsame]
          refine iff_of_false (fun heq => by linarith) fun hwhole => hnot ?_
          exact htakes.mpr ⟨hwhole.1, hwhole.2.1⟩
      · rw [if_neg hother, if_neg hother, zero_add]
        refine ih _ rows ?_ ((fillQtys_deliverFill_of_ne hother t execution.fill).trans hqtys) h.tail
        change SameReads rows (deliverFill other t execution.fill).rows
        obtain ⟨-, placement, -, hleg, hrows⟩ | ⟨-, hsame⟩ := deliverFill_cases other t execution.fill
        · rw [hrows]
          exact hreads.insert_exit rfl hleg
        · rwa [hsame]

end ExitOrders

end IbTrader.Engine.Booking
