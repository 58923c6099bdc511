/-
  IbTrader.Data.Transactions

  The transaction rows of one trade and the queries on them
  (`ib_trader/data/models.py`, `data/repositories/transaction_repository.py`).

  The table is append-only: rows are kept in the order of their `id`.  The rows
  here are those that carry the `trade_id` of the trade, and every writer that
  sets it sets the leg type with it.  `Decimal` columns are rationals; the
  multiplier, a text column, is the number its text denotes.  `requested_at` and
  the descriptive columns no query reads are left out.
-/

import Mathlib.Algebra.BigOperators.Group.List.Basic
import Mathlib.Algebra.Order.Ring.Rat
import IbTrader.Lib.CumulativeReports
import IbTrader.Lib.Latest

namespace IbTrader.Data

open Lib

-- ============================================================================
-- Rows
-- ============================================================================

inductive Side where
  | buy
  | sell
  deriving DecidableEq, Repr

def Side.opposite : Side → Side
  | .buy => .sell
  | .sell => .buy

inductive LegType where
  | entry
  | profitTaker
  | stopLoss
  | close
  deriving DecidableEq, Repr

inductive TransactionAction where
  | placeAttempt
  | placeAccepted
  | placeRejected
  | amended
  | partialFill
  | filled
  | cancelAttempt
  | cancelled
  | errorTerminal
  | reconciled
  | discrepancy
  deriving DecidableEq, Repr

inductive TradeStatus where
  | opened
  | closed
  | partlyFilled
  deriving DecidableEq, Repr

/-- A row of the `transactions` table. -/
structure TransactionEvent where
  action : TransactionAction
  ibOrderId : Option ℤ := none
  legType : LegType
  side : Side
  quantity : ℚ
  ibFilledQty : Option ℚ := none
  ibAvgFillPrice : Option ℚ := none
  commission : Option ℚ := none
  multiplier : Option ℚ := none
  isTerminal : Bool := false
  deriving DecidableEq, Repr

/-- `_TERMINAL_ACTIONS`. -/
def terminalActions : List TransactionAction :=
  [.filled, .cancelled, .placeRejected, .errorTerminal, .reconciled]

/-- The filled quantity of a row, zero when it has none. -/
def TransactionEvent.filledQty (t : TransactionEvent) : ℚ := t.ibFilledQty.getD 0

/-- The row as it is stored: a terminal action makes it terminal. -/
def TransactionEvent.stored (t : TransactionEvent) : TransactionEvent :=
  { t with isTerminal := t.isTerminal || t.action ∈ terminalActions }

/-- `insert`. -/
def insert (rows : List TransactionEvent) (event : TransactionEvent) : List TransactionEvent :=
  rows ++ [event.stored]

-- ============================================================================
-- Queries
-- ============================================================================

/-- A FILLED or PARTIAL_FILL row. -/
def TransactionEvent.isFill (t : TransactionEvent) : Bool :=
  t.action ∈ [TransactionAction.filled, .partialFill]

/-- `get_filled_legs`. -/
def getFilledLegs (rows : List TransactionEvent) : List TransactionEvent := rows.filter (·.isFill)

/-- `get_entry_fill`: the first FILLED row of the entry, else its last
    PARTIAL_FILL row. -/
def getEntryFill (rows : List TransactionEvent) : Option TransactionEvent :=
  (rows.find? fun t => t.legType = .entry ∧ t.action = .filled).or
    (rows.reverse.find? fun t => t.legType = .entry ∧ t.action = .partialFill)

/-- `get_trade_leg_summary`: the last row of each order. -/
def getTradeLegSummary : List TransactionEvent → List TransactionEvent
  | [] => []
  | t :: later =>
    if t.ibOrderId.isSome ∧ ∀ u ∈ later, u.ibOrderId ≠ t.ibOrderId then
      t :: getTradeLegSummary later
    else getTradeLegSummary later

/-- The last row of an order. -/
def latestByIbOrderId (rows : List TransactionEvent) (ibOrderId : ℤ) : Option TransactionEvent :=
  rows.reverse.find? (·.ibOrderId = some ibOrderId)

/-- Sum of the filled quantities of the FILLED and PARTIAL_FILL rows of some leg
    types. -/
def countedQty (legs : List LegType) (rows : List TransactionEvent) : ℚ :=
  (((getFilledLegs rows).filter (·.legType ∈ legs)).map (·.filledQty)).sum

/-- The last row of an order is a row of that order. -/
theorem latestByIbOrderId_some {rows : List TransactionEvent} {id : ℤ} {t : TransactionEvent}
    (h : latestByIbOrderId rows id = some t) : t ∈ rows ∧ t.ibOrderId = some id := by
  have hmem := List.mem_of_find?_eq_some h
  exact ⟨List.mem_reverse.mp hmem, by simpa using List.find?_some h⟩

theorem getTradeLegSummary_eq_latest (rows : List TransactionEvent) :
    getTradeLegSummary rows = latest (·.ibOrderId) rows := by
  induction rows with
  | nil => rfl
  | cons t later ih => rw [getTradeLegSummary, latest, ih]

theorem getTradeLegSummary_sublist (rows : List TransactionEvent) :
    (getTradeLegSummary rows).Sublist rows := by
  rw [getTradeLegSummary_eq_latest]
  exact latest_sublist _ rows

/-- It has one row an order. -/
theorem getTradeLegSummary_nodup (rows : List TransactionEvent) :
    ((getTradeLegSummary rows).map (·.ibOrderId)).Nodup := by
  rw [getTradeLegSummary_eq_latest]
  exact latest_nodup _ rows

theorem getTradeLegSummary_isSome {rows : List TransactionEvent} {t : TransactionEvent}
    (h : t ∈ getTradeLegSummary rows) : t.ibOrderId.isSome = true := by
  rw [getTradeLegSummary_eq_latest] at h
  have hsome := isSome_of_mem_latest h
  exact hsome

@[simp] theorem stored_isFill (t : TransactionEvent) : t.stored.isFill = t.isFill := rfl

theorem getFilledLegs_insert_of_not_fill {event : TransactionEvent} (h : event.isFill = false)
    (rows : List TransactionEvent) : getFilledLegs (insert rows event) = getFilledLegs rows := by
  simp [getFilledLegs, insert, List.filter_append, h]

theorem getFilledLegs_insert_of_fill {event : TransactionEvent} (h : event.isFill = true)
    (rows : List TransactionEvent) :
    getFilledLegs (insert rows event) = getFilledLegs rows ++ [event.stored] := by
  simp [getFilledLegs, insert, List.filter_append, h]

/-- A fill row adds its quantity to that of its leg type. -/
theorem countedQty_insert (legs : List LegType) (rows : List TransactionEvent)
    {event : TransactionEvent} (h : event.isFill = true) :
    countedQty legs (insert rows event) =
      countedQty legs rows + if event.legType ∈ legs then event.filledQty else 0 := by
  rw [countedQty, getFilledLegs_insert_of_fill h, List.filter_append, List.map_append,
    List.sum_append, countedQty]
  congr 1
  by_cases hleg : event.legType ∈ legs
  · rw [if_pos hleg, List.filter_singleton, show event.stored.legType = event.legType from rfl]
    simp [hleg, TransactionEvent.stored, TransactionEvent.filledQty]
  · rw [if_neg hleg, List.filter_singleton, show event.stored.legType = event.legType from rfl]
    simp [hleg]

/-- The entry fill row is a FILLED or PARTIAL_FILL row of the entry. -/
theorem getEntryFill_some {rows : List TransactionEvent} {t : TransactionEvent}
    (h : getEntryFill rows = some t) : t ∈ getFilledLegs rows ∧ t.legType = .entry := by
  rcases Option.or_eq_some_iff.mp h with hfull | ⟨-, hpartial⟩
  · have hfound := List.find?_some hfull
    simp only [decide_eq_true_eq] at hfound
    refine ⟨List.mem_filter.mpr ⟨List.mem_of_find?_eq_some hfull, ?_⟩, hfound.1⟩
    simp [TransactionEvent.isFill, hfound.2]
  · have hfound := List.find?_some hpartial
    simp only [decide_eq_true_eq] at hfound
    refine ⟨List.mem_filter.mpr
      ⟨List.mem_reverse.mp (List.mem_of_find?_eq_some hpartial), ?_⟩, hfound.1⟩
    simp [TransactionEvent.isFill, hfound.2]

/-- Where the entry has a FILLED or PARTIAL_FILL row there is an entry fill row. -/
theorem getEntryFill_isSome {rows : List TransactionEvent} {t : TransactionEvent}
    (h : t ∈ getFilledLegs rows) (hleg : t.legType = .entry) : (getEntryFill rows).isSome = true := by
  obtain ⟨hrow, hfill⟩ := List.mem_filter.mp h
  have haction : t.action = .filled ∨ t.action = .partialFill := by
    simpa [TransactionEvent.isFill] using hfill
  rw [getEntryFill, Option.isSome_or, Bool.or_eq_true]
  rcases haction with haction | haction
  · refine .inl (List.find?_isSome.mpr ⟨t, hrow, ?_⟩)
    simp [hleg, haction]
  · refine .inr (List.find?_isSome.mpr ⟨t, List.mem_reverse.mpr hrow, ?_⟩)
    simp [hleg, haction]

-- ============================================================================
-- What the rows establish
-- ============================================================================

/-- A row that reports how much of its order has filled: the engine's FILLED and
    PARTIAL_FILL rows, and the RECONCILED rows of the daemon. -/
def TransactionEvent.reportsFill (t : TransactionEvent) : Bool :=
  t.isFill || t.action = .reconciled

/-- The rows as reports of cumulative filled quantity, by order. -/
def fillReports (rows : List TransactionEvent) : List (Option ℤ × ℚ) :=
  rows.map fun t => (t.ibOrderId, t.filledQty)

/-- The filled quantity the engine has recorded for some leg types. -/
def engineQty (legs : List LegType) (rows : List TransactionEvent) : ℚ :=
  CumulativeReports.total (fillReports ((getFilledLegs rows).filter (·.legType ∈ legs)))

/-- The filled quantity recorded for some leg types, by the engine or the daemon. -/
def recordedQty (legs : List LegType) (rows : List TransactionEvent) : ℚ :=
  CumulativeReports.total
    (fillReports ((rows.filter (·.reportsFill)).filter (·.legType ∈ legs)))

/-- The leg types that take a position off. -/
def exitLegs : List LegType := [.close, .profitTaker, .stopLoss]

/-- The filled entry quantity. -/
def entryQty (rows : List TransactionEvent) : ℚ := recordedQty [.entry] rows

/-- The filled quantity summed over all exit legs. -/
def exitQty (rows : List TransactionEvent) : ℚ := recordedQty exitLegs rows

theorem engineQty_le_recordedQty {legs more : List LegType} (hlegs : legs ⊆ more)
    (rows : List TransactionEvent) : engineQty legs rows ≤ recordedQty more rows := by
  refine CumulativeReports.total_mono ?_
  rintro report hreport
  obtain ⟨t, ht, rfl⟩ := List.mem_map.mp hreport
  obtain ⟨hfill, hleg⟩ := List.mem_filter.mp ht
  obtain ⟨hrow, hisfill⟩ := List.mem_filter.mp hfill
  refine List.mem_map.mpr ⟨t, List.mem_filter.mpr ⟨List.mem_filter.mpr ⟨hrow, ?_⟩, ?_⟩, rfl⟩
  · rw [TransactionEvent.reportsFill, hisfill, Bool.true_or]
  · simpa using hlegs (by simpa using hleg)

/-- A row that reports a fill bounds what is recorded from below. -/
theorem filledQty_le_recordedQty {legs : List LegType} {rows : List TransactionEvent}
    {t : TransactionEvent} (ht : t ∈ rows) (hreports : t.reportsFill = true)
    (hleg : t.legType ∈ legs) : t.filledQty ≤ recordedQty legs rows := by
  have hrow : t ∈ (rows.filter (·.reportsFill)).filter (·.legType ∈ legs) :=
    List.mem_filter.mpr ⟨List.mem_filter.mpr ⟨ht, hreports⟩, decide_eq_true hleg⟩
  have hreport : (t.ibOrderId, t.filledQty) ∈
      fillReports ((rows.filter (·.reportsFill)).filter (·.legType ∈ legs)) :=
    List.mem_map.mpr ⟨t, hrow, rfl⟩
  exact CumulativeReports.le_total hreport

/-- Rows only add to what is recorded. -/
theorem recordedQty_mono (legs : List LegType) {rows more : List TransactionEvent}
    (h : rows ⊆ more) : recordedQty legs rows ≤ recordedQty legs more := by
  refine CumulativeReports.total_mono ?_
  rintro report hreport
  obtain ⟨t, ht, rfl⟩ := List.mem_map.mp hreport
  obtain ⟨hfill, hleg⟩ := List.mem_filter.mp ht
  obtain ⟨hrow, hreports⟩ := List.mem_filter.mp hfill
  exact List.mem_map.mpr
    ⟨t, List.mem_filter.mpr ⟨List.mem_filter.mpr ⟨h hrow, hreports⟩, hleg⟩, rfl⟩

/-- Where no order has two FILLED or PARTIAL_FILL rows, adding these rows up is
    adding up what the orders filled. -/
theorem countedQty_eq_engineQty {rows : List TransactionEvent} (legs : List LegType)
    (hnodup : ((getFilledLegs rows).map (·.ibOrderId)).Nodup)
    (hpos : ∀ t ∈ getFilledLegs rows, 0 ≤ t.filledQty) :
    countedQty legs rows = engineQty legs rows := by
  have hkeys : ((fillReports ((getFilledLegs rows).filter (·.legType ∈ legs))).map Prod.fst).Nodup := by
    rw [fillReports, List.map_map]
    exact hnodup.sublist (List.filter_sublist.map _)
  rw [engineQty, CumulativeReports.total_eq_sum hkeys, countedQty, fillReports, List.map_map]
  · rfl
  · intro report hreport
    obtain ⟨t, ht, rfl⟩ := List.mem_map.mp hreport
    exact hpos t (List.mem_filter.mp ht).1

end IbTrader.Data
