/-
  IbTrader.Ib.OpenOrders

  The open orders of the IB client (`get_open_orders`, `ib_trader/ib/insync_client.py`),
  from what the three requests to IB return.

  An order can come more than once: bound, with the orderId of this client, and unbound,
  with orderId 0.  The row kept of a permId is replaced in place by that of a bound copy;
  `seen_perm` holds the rows of the result themselves, so it is read off the result.  The
  numbers of an order are rationals, of which IB's unset price is one.
-/

import Mathlib.Algebra.Order.Ring.Rat
import Mathlib.Data.List.Infix
import IbTrader.Data.Python
import IbTrader.Ib.CancelGate
import IbTrader.Lib.KeepOne

namespace IbTrader.Ib.OpenOrders

open Data Lib
open CancelGate (terminalStatuses)

-- ============================================================================
-- Trades and rows
-- ============================================================================

/-- An order that IB reports, with its contract and its status. -/
structure Trade where
  orderId : ℤ := 0
  permId : ℤ := 0
  status : String := ""
  symbol : String := ""
  localSymbol : String := ""
  action : String := ""
  totalQuantity : ℚ := 0
  orderType : String := ""
  lmtPrice : Option ℚ := none
  filled : ℚ := 0
  avgFillPrice : ℚ := 0
  orderRef : String := ""
  secType : String := ""
  conId : ℤ := 0
  lastTradeDateOrContractMonth : Option String := none
  tradingClass : Option String := none
  multiplier : Option String := none
  auxPrice : Option ℚ := none
  trailStopPrice : Option ℚ := none
  trailingPercent : Option ℚ := none
  deriving DecidableEq, Repr

/-- A row of the result. -/
structure Row where
  ibOrderId : String
  permId : Option ℤ
  symbol : String
  localSymbol : String
  side : String
  qty : ℚ
  orderType : String
  limitPrice : Option ℚ
  status : String
  qtyFilled : ℚ
  avgFillPrice : Option ℚ
  orderRef : String
  secType : String
  conId : ℤ
  expiry : Option String
  tradingClass : Option String
  multiplier : Option String
  stopPrice : Option ℚ
  trailingPercent : Option ℚ
  deriving DecidableEq, Repr

/-- `_cleanf`. -/
def cleanf (v : Option ℚ) : Option ℚ := v.filter fun f => ¬ (f = 0 ∨ 10 ^ 300 < f)

/-- `limit_price`. -/
def limitPrice (v : Option ℚ) : Option ℚ := v.filter fun f => 0 < f ∧ f < 10 ^ 300

namespace Trade

/-- `stop_price`, for which the order type says where to look first. -/
def stopPrice (t : Trade) : Option ℚ :=
  if "TRAIL".toList <:+: (upper t.orderType).toList then (cleanf t.trailStopPrice).or (cleanf t.auxPrice)
  else (cleanf t.auxPrice).or (cleanf t.trailStopPrice)

/-- The row of an order, whose key is its orderId if it has one. -/
def row (t : Trade) : Row where
  ibOrderId := toString (if t.orderId = 0 then t.permId else t.orderId)
  permId := if t.permId = 0 then none else some t.permId
  symbol := t.symbol
  localSymbol := either t.localSymbol t.symbol
  side := t.action
  qty := t.totalQuantity
  orderType := t.orderType
  limitPrice := limitPrice t.lmtPrice
  status := t.status
  qtyFilled := t.filled
  avgFillPrice := if t.avgFillPrice = 0 then none else some t.avgFillPrice
  orderRef := t.orderRef
  secType := either t.secType "STK"
  conId := t.conId
  expiry := given t.lastTradeDateOrContractMonth
  tradingClass := given t.tradingClass
  multiplier := given t.multiplier
  stopPrice := t.stopPrice
  trailingPercent := cleanf t.trailingPercent

/-- The status is that of a working order. -/
def live (t : Trade) : Bool := t.status ∉ terminalStatuses ∧ t.status ≠ ""

/-- The order is one of this client. -/
def bound (t : Trade) : Bool := t.orderId ≠ 0

end Trade

-- ============================================================================
-- `get_open_orders`
-- ============================================================================

/-- `completed_perms`; none is a request that failed. -/
def completedPerms (completed : Option (List ℤ)) : List ℤ := (completed.getD []).filter (· ≠ 0)

/-- The row of an order, if it is kept. -/
def rowOf (completed : List ℤ) (t : Trade) : Option Row :=
  if t.status ∈ terminalStatuses then none
  else if t.status = "" then none
  else if t.orderId = 0 ∧ t.permId = 0 then none
  else if t.permId ≠ 0 ∧ t.permId ∈ completed then none
  else some t.row

/-- A row of this client is better than one that has only its permId for a key. -/
def better (prior row : Row) : Bool :=
  match row.permId with
  | some pid => prior.ibOrderId = toString pid ∧ row.ibOrderId ≠ toString pid
  | none => false

/-- `_get_open_orders_unlocked`, of the open and the completed orders. -/
def getOpenOrders (openTrades : List Trade) (completed : Option (List ℤ)) : List Row :=
  keepOne Row.permId better (openTrades.filterMap (rowOf (completedPerms completed)))

-- ============================================================================
-- One row an order
-- ============================================================================

/-- What is returned of some orders. -/
structure Merged (trades : List Trade) (completed : List ℤ) (rows : List Row) : Prop where
  /-- There is one row for each permId that is live and not completed, and no other. -/
  perms : ∀ pid, rows.countP (·.permId = some pid) =
    if pid ≠ 0 ∧ pid ∉ completed ∧ ∃ t ∈ trades, t.live ∧ t.permId = pid then 1 else 0
  /-- It is that of a live copy, and of a bound one if there is one. -/
  copies : ∀ row ∈ rows, ∀ pid, row.permId = some pid → ∃ t ∈ trades, t.live ∧ t.permId = pid ∧ row = t.row ∧
    ((∃ u ∈ trades, u.live ∧ u.permId = pid ∧ u.bound) → t.bound)
  /-- The other rows are those of the live bound orders without a permId. -/
  unplaced : rows.filter (·.permId = none) =
    (trades.filter fun t => t.live ∧ t.permId = 0 ∧ t.bound).map Trade.row

section Merge

variable {trades : List Trade} {completed : List ℤ} {t : Trade} {row : Row} {pid : ℤ}

theorem rowOf_eq_some : rowOf completed t = some row ↔
    t.live ∧ ¬ (t.orderId = 0 ∧ t.permId = 0) ∧ ¬ (t.permId ≠ 0 ∧ t.permId ∈ completed) ∧ t.row = row := by
  unfold rowOf Trade.live
  split_ifs with hterminal hempty hkey hcompleted
  · simp [hterminal]
  · simp [hempty]
  · simp [hkey]
  · simp [hcompleted]
  · rw [Option.some.injEq, decide_eq_true_iff]
    exact ⟨fun hrow => ⟨⟨hterminal, hempty⟩, hkey, hcompleted, hrow⟩, fun h => h.2.2.2⟩

theorem row_permId : t.row.permId = some pid ↔ t.permId = pid ∧ pid ≠ 0 := by
  unfold Trade.row
  dsimp only
  split
  case isTrue h =>
    refine ⟨fun hnone => absurd hnone.symm (Option.some_ne_none pid), fun ⟨hpid, hne⟩ => ?_⟩
    exact absurd (hpid.symm.trans h) hne
  case isFalse h =>
    rw [Option.some.injEq]
    exact ⟨fun hpid => ⟨hpid, hpid ▸ h⟩, And.left⟩

theorem row_permId_eq_none : t.row.permId = none ↔ t.permId = 0 := by
  unfold Trade.row
  dsimp only
  split
  case isTrue h => exact iff_of_true rfl h
  case isFalse h => exact iff_of_false (Option.some_ne_none _) h

/-- The key of an order is its permId exactly if it is unbound. -/
theorem row_ibOrderId (hids : t.orderId ≠ 0 → t.orderId ≠ t.permId) :
    t.row.ibOrderId ≠ toString t.permId ↔ t.bound := by
  unfold Trade.row Trade.bound
  dsimp only
  rw [decide_eq_true_iff, toString_int_injective.ne_iff]
  split
  case isTrue h => exact iff_of_false (fun hne => hne rfl) (fun hne => hne h)
  case isFalse h => exact iff_of_true (hids h) h

/-- The rows of a permId are those of its live copies, if it is not completed. -/
theorem mem_rows_of_perm : row ∈ (trades.filterMap (rowOf completed)).filter (·.permId = some pid) ↔
    pid ≠ 0 ∧ pid ∉ completed ∧ ∃ t ∈ trades, t.live ∧ t.permId = pid ∧ t.row = row := by
  rw [List.mem_filter, List.mem_filterMap, decide_eq_true_iff]
  constructor
  · rintro ⟨⟨t, ht, hrow⟩, hperm⟩
    obtain ⟨hlive, -, hcompleted, rfl⟩ := rowOf_eq_some.mp hrow
    obtain ⟨rfl, hne⟩ := row_permId.mp hperm
    exact ⟨hne, fun hmem => hcompleted ⟨hne, hmem⟩, t, ht, hlive, rfl, rfl⟩
  · rintro ⟨hne, hcompleted, t, ht, hlive, rfl, rfl⟩
    refine ⟨⟨t, ht, rowOf_eq_some.mpr ⟨hlive, fun h => hne h.2, fun h => hcompleted h.2, rfl⟩⟩, ?_⟩
    exact row_permId.mpr ⟨rfl, hne⟩

/-- The rows without a permId. -/
theorem rows_unplaced : (trades.filterMap (rowOf completed)).filter (·.permId = none) =
    (trades.filter fun t => t.live ∧ t.permId = 0 ∧ t.bound).map Trade.row := by
  rw [List.filter_filterMap, ← List.filterMap_eq_map, List.filterMap_filter]
  refine List.filterMap_congr fun t _ => Option.ext fun row => ?_
  rw [Option.filter_eq_some_iff, rowOf_eq_some, decide_eq_true_iff]
  constructor
  · rintro ⟨⟨hlive, hkey, -, rfl⟩, hnone⟩
    have hperm := row_permId_eq_none.mp hnone
    have hbound : t.bound := decide_eq_true fun h => hkey ⟨h, hperm⟩
    rw [if_pos (decide_eq_true ⟨hlive, hperm, hbound⟩)]
    rfl
  · intro h
    split at h
    case isFalse => cases h
    case isTrue hall =>
      obtain ⟨hlive, hperm, hbound⟩ := of_decide_eq_true hall
      obtain rfl := Option.some.inj h
      refine ⟨⟨hlive, fun hkey => of_decide_eq_true hbound hkey.1, fun hmem => hmem.1 hperm, rfl⟩, ?_⟩
      exact row_permId_eq_none.mpr hperm

/-- The rows of a permId that are kept. -/
theorem filter_getOpenOrders (trades : List Trade) (completed : Option (List ℤ)) (pid : ℤ) :
    (getOpenOrders trades completed).filter (·.permId = some pid) =
      (preferred (fun row => row.ibOrderId ≠ toString pid)
        ((trades.filterMap (rowOf (completedPerms completed))).filter (·.permId = some pid))).toList := by
  refine filter_keepOne fun prior _ row _ _ hrow => ?_
  unfold better
  rw [hrow]
  simp only [ne_eq, Bool.decide_and, decide_not, Bool.not_not]

/-- Each order is returned once, and bound if it can be. -/
theorem getOpenOrders_merged (trades : List Trade) (completed : Option (List ℤ))
    (hids : ∀ t ∈ trades, t.orderId ≠ 0 → t.orderId ≠ t.permId) :
    Merged trades (completedPerms completed) (getOpenOrders trades completed) where
  perms pid := by
    rw [List.countP_eq_length_filter, filter_getOpenOrders]
    split
    case isTrue h =>
      obtain ⟨hne, hcompleted, t, ht, hlive, hperm⟩ := h
      have hmem := mem_rows_of_perm.mpr ⟨hne, hcompleted, t, ht, hlive, hperm, rfl⟩
      rw [Option.length_toList, if_pos (isSome_preferred.mpr (List.ne_nil_of_mem hmem))]
    case isFalse h =>
      have hnil : (trades.filterMap (rowOf (completedPerms completed))).filter (·.permId = some pid) = [] := by
        refine List.eq_nil_iff_forall_not_mem.mpr fun row hrow => h ?_
        obtain ⟨hne, hcompleted, t, ht, hlive, hperm, -⟩ := mem_rows_of_perm.mp hrow
        exact ⟨hne, hcompleted, t, ht, hlive, hperm⟩
      rw [hnil]
      rfl
  copies row hrow pid hpid := by
    have hkept : row ∈ (getOpenOrders trades completed).filter (·.permId = some pid) :=
      List.mem_filter.mpr ⟨hrow, decide_eq_true hpid⟩
    rw [filter_getOpenOrders, Option.mem_toList] at hkept
    obtain ⟨hmem, hbest⟩ := mem_preferred hkept
    obtain ⟨hne, hcompleted, t, ht, hlive, rfl, rfl⟩ := mem_rows_of_perm.mp hmem
    refine ⟨t, ht, hlive, rfl, rfl, fun ⟨u, hu, hulive, huperm, hubound⟩ => ?_⟩
    have hurow := mem_rows_of_perm.mpr ⟨hne, hcompleted, u, hu, hulive, huperm, rfl⟩
    have hgood : u.row.ibOrderId ≠ toString t.permId := huperm ▸ (row_ibOrderId (hids u hu)).mpr hubound
    exact (row_ibOrderId (hids t ht)).mp (of_decide_eq_true (hbest ⟨u.row, hurow, decide_eq_true hgood⟩))
  unplaced := filter_keepOne_none.trans rows_unplaced

end Merge

/-- An order that comes unbound and bound, and one that is cancelled. -/
def threeTrades : List Trade :=
  [{ permId := 7, status := "Submitted" }, { orderId := 3, permId := 7, status := "Submitted" },
    { orderId := 4, permId := 8, status := "Cancelled" }]

theorem getOpenOrders_merged_threeTrades :
    Merged threeTrades (completedPerms (some [9])) (getOpenOrders threeTrades (some [9])) :=
  getOpenOrders_merged threeTrades (some [9]) (by decide)

example : (getOpenOrders threeTrades (some [9])).map (·.ibOrderId) = ["3"] := by decide

end IbTrader.Ib.OpenOrders
