/-
  IbTrader.Data.Ledger

  The whole `transactions` table (`ib_trader/data/models.py`,
  `data/repositories/transaction_repository.py`): the rows of every trade, with the
  columns that link them, and the queries over all of them.

  Rows are kept in the order of their `id`.  Times are readings of one clock.
  `Decimal` columns are rationals.  The error and option columns, which no function
  here reads or copies, are left out.
-/

import Mathlib.Data.List.AList
import IbTrader.Data.Transactions

namespace IbTrader.Data

open Lib

-- ============================================================================
-- Rows
-- ============================================================================

/-- A row of the `transactions` table, of any trade. -/
structure LedgerRow where
  ibOrderId : Option ℤ := none
  ibPermId : Option ℤ := none
  action : TransactionAction
  symbol : String := ""
  side : Side := .buy
  orderType : String := ""
  quantity : ℚ := 0
  limitPrice : Option ℚ := none
  accountId : String := ""
  ibStatus : Option String := none
  ibFilledQty : Option ℚ := none
  ibAvgFillPrice : Option ℚ := none
  commission : Option ℚ := none
  tradeSerial : Option ℤ := none
  tradeId : Option String := none
  legType : Option LegType := none
  requestedAt : ℚ
  ibRespondedAt : Option ℚ := none
  isTerminal : Bool := false
  securityType : Option String := none
  expiry : Option String := none
  tradingClass : Option String := none
  multiplier : Option String := none
  conId : Option ℤ := none
  correlationId : Option String := none
  deriving DecidableEq, Repr

/-- The row as it is stored: a terminal action makes it terminal. -/
def LedgerRow.stored (t : LedgerRow) : LedgerRow :=
  { t with isTerminal := t.isTerminal || t.action ∈ terminalActions }

/-- `insert`, of several rows one after the other. -/
def insertAll (rows events : List LedgerRow) : List LedgerRow := rows ++ events.map (·.stored)

-- ============================================================================
-- Queries
-- ============================================================================

/-- `get_open_orders`: the last row of each order, where it is not terminal. -/
def getOpenOrders (rows : List LedgerRow) : List LedgerRow :=
  (latest (·.ibOrderId) rows).filter (!·.isTerminal)

/-- `get_recent_cancelled`: the last row of each order in the window, where it is
    CANCELLED. -/
def getRecentCancelled (rows : List LedgerRow) (cutoff : ℚ) : List LedgerRow :=
  (latest (·.ibOrderId) (rows.filter (cutoff ≤ ·.requestedAt))).filter (·.action = .cancelled)

theorem mem_getOpenOrders {rows : List LedgerRow} {t : LedgerRow} :
    t ∈ getOpenOrders rows ↔ t ∈ latest (·.ibOrderId) rows ∧ t.isTerminal = false := by
  simp [getOpenOrders]

theorem mem_getRecentCancelled {rows : List LedgerRow} {cutoff : ℚ} {t : LedgerRow} :
    t ∈ getRecentCancelled rows cutoff ↔
      t ∈ latest (·.ibOrderId) (rows.filter (cutoff ≤ ·.requestedAt)) ∧ t.action = .cancelled := by
  simp [getRecentCancelled]

theorem getOpenOrders_isSome {rows : List LedgerRow} {t : LedgerRow} (h : t ∈ getOpenOrders rows) :
    t.ibOrderId.isSome = true := by
  have hsome := isSome_of_mem_latest (mem_getOpenOrders.mp h).1
  exact hsome

theorem getRecentCancelled_isSome {rows : List LedgerRow} {cutoff : ℚ} {t : LedgerRow}
    (h : t ∈ getRecentCancelled rows cutoff) : t.ibOrderId.isSome = true := by
  have hsome := isSome_of_mem_latest (mem_getRecentCancelled.mp h).1
  exact hsome

theorem getOpenOrders_nodup (rows : List LedgerRow) :
    ((getOpenOrders rows).map (·.ibOrderId)).Nodup :=
  (latest_nodup _ rows).sublist (List.filter_sublist.map _)

theorem getRecentCancelled_nodup (rows : List LedgerRow) (cutoff : ℚ) :
    ((getRecentCancelled rows cutoff).map (·.ibOrderId)).Nodup :=
  (latest_nodup _ _).sublist (List.filter_sublist.map _)

-- ============================================================================
-- Commissions
-- ============================================================================

/-- A FILLED or PARTIAL_FILL row. -/
def LedgerRow.isFill (t : LedgerRow) : Bool := t.action ∈ [TransactionAction.filled, .partialFill]

/-- A FILLED or PARTIAL_FILL row of the order. -/
def LedgerRow.isFillOf (id : ℤ) (t : LedgerRow) : Bool := t.isFill && t.ibOrderId = some id

/-- The `trade_serial` of the first FILLED or PARTIAL_FILL row of an order. -/
def tradeSerialOf (rows : List LedgerRow) (id : ℤ) : Option ℤ :=
  (rows.find? (·.isFillOf id)).bind (·.tradeSerial)

/-- `add_commission`: the rows, and how many of them it has updated. -/
def addCommission (rows : List LedgerRow) (id : ℤ) (delta : ℚ) : List LedgerRow × ℕ :=
  (rows.map fun t =>
      if t.isFillOf id then { t with commission := some (t.commission.getD 0 + delta) } else t,
    rows.countP (·.isFillOf id))

/-- `sum_commission_for_trade_serial`. -/
def sumCommissionForTradeSerial (rows : List LedgerRow) (serial : ℤ) : ℚ :=
  ((rows.filter fun t => t.isFill ∧ t.tradeSerial = some serial).map (·.commission.getD 0)).sum

/-- The commission of the FILLED and PARTIAL_FILL rows of some serials in a window of
    time, each row once. -/
def sumCommissionBetween (rows : List LedgerRow) (serials : List ℤ) (lo hi : ℚ) : ℚ :=
  ((rows.filter fun t => t.isFill ∧ t.tradeSerial.any (· ∈ serials) ∧
    lo ≤ t.requestedAt ∧ t.requestedAt ≤ hi).map (·.commission.getD 0)).sum

-- ============================================================================
-- Queries by trade
-- ============================================================================

/-- The rows of a trade. -/
def ofTrade (rows : List LedgerRow) (tradeId : String) : List LedgerRow :=
  rows.filter (·.tradeId = some tradeId)

/-- `get_trade_leg_summary`: the last row of each order of the trade. -/
def tradeLegSummary (rows : List LedgerRow) (tradeId : String) : List LedgerRow :=
  latest (·.ibOrderId) (ofTrade rows tradeId)

/-- `attempts`: whether each correlation id with a placement is confirmed. -/
abbrev Attempts := AList fun _ : Option String => Bool

/-- The loop body of `has_unconfirmed_placements`. -/
def attemptsStep (attempts : Attempts) (t : LedgerRow) : Attempts :=
  if t.action = .placeAttempt then
    if t.correlationId ∈ attempts then attempts else attempts.insert t.correlationId false
  else if t.action = .placeAccepted then attempts.insert t.correlationId true
  else if t.isTerminal then attempts.insert t.correlationId true
  else attempts

/-- `has_unconfirmed_placements`. -/
def hasUnconfirmedPlacements (rows : List LedgerRow) (tradeId : String) : Bool :=
  ((ofTrade rows tradeId).foldl attemptsStep ∅).entries.any fun attempt => !attempt.2

/-- A row that confirms the placements of its correlation id. -/
def LedgerRow.confirms (t : LedgerRow) : Bool :=
  t.action ≠ .placeAttempt && (t.action = .placeAccepted || t.isTerminal)

/-- A row changes what is noted of its own correlation id. -/
theorem lookup_attemptsStep (attempts : Attempts) (t : LedgerRow) (cid : Option String) :
    (attemptsStep attempts t).lookup cid =
      if t.correlationId = cid then
        if t.confirms then some true
        else if t.action = .placeAttempt then (attempts.lookup cid).or (some false)
        else attempts.lookup cid
      else attempts.lookup cid := by
  by_cases hcid : t.correlationId = cid
  · subst hcid
    rw [if_pos rfl]
    unfold attemptsStep
    by_cases hattempt : t.action = .placeAttempt
    · have hnot : ¬t.confirms = true := by simp [LedgerRow.confirms, hattempt]
      rw [if_pos hattempt, if_neg hnot, if_pos hattempt]
      split
      case isTrue hmem =>
        obtain ⟨noted, hnoted⟩ := Option.isSome_iff_exists.mp (AList.lookup_isSome.mpr hmem)
        rw [hnoted, Option.some_or]
      case isFalse hmem =>
        rw [AList.lookup_insert, AList.lookup_eq_none.mpr hmem, Option.none_or]
    · rw [if_neg hattempt]
      split
      case isTrue haccepted =>
        rw [AList.lookup_insert, if_pos (by simp [LedgerRow.confirms, haccepted])]
      case isFalse haccepted =>
        split
        case isTrue hterminal =>
          rw [AList.lookup_insert, if_pos (by simp [LedgerRow.confirms, hattempt, hterminal])]
        case isFalse hopen =>
          rw [if_neg (by simp [LedgerRow.confirms, haccepted, hopen])]
  · rw [if_neg hcid]
    have hother : ∀ b, (attempts.insert t.correlationId b).lookup cid = attempts.lookup cid :=
      fun _ => AList.lookup_insert_ne (Ne.symm hcid)
    unfold attemptsStep
    split
    case isTrue => split <;> simp only [hother]
    case isFalse =>
      split
      case isTrue => exact hother _
      case isFalse => split <;> simp only [hother]

/-- What the loop has noted of a correlation id. -/
theorem lookup_attempts (rows : List LedgerRow) (cid : Option String) :
    (rows.foldl attemptsStep ∅).lookup cid =
      if rows.any fun t => t.confirms && t.correlationId = cid then some true
      else if rows.any fun t => t.action = .placeAttempt && t.correlationId = cid then some false
      else none := by
  induction rows using List.reverseRecOn with
  | nil => rfl
  | append_singleton rows t ih =>
    rw [List.foldl_append, List.foldl_cons, List.foldl_nil, lookup_attemptsStep, ih]
    simp only [List.any_append, List.any_cons, List.any_nil, Bool.or_false]
    by_cases hcid : t.correlationId = cid
    · by_cases hconfirms : t.confirms = true
      · simp [hcid, hconfirms]
      · by_cases hattempt : t.action = .placeAttempt
        · simp only [hcid, hconfirms, hattempt, Bool.false_and, Bool.or_false, if_true, decide_true,
            Bool.true_and, Bool.or_true, Bool.false_eq_true, if_false]
          split
          · rfl
          · split <;> rfl
        · simp [hcid, hconfirms, hattempt]
    · simp [hcid]

/-- A trade has unconfirmed placements where no row confirms the correlation id of
    some PLACE_ATTEMPT row. -/
theorem hasUnconfirmedPlacements_iff {rows : List LedgerRow} {tradeId : String} :
    hasUnconfirmedPlacements rows tradeId = true ↔
      ∃ t ∈ ofTrade rows tradeId, t.action = .placeAttempt ∧
        ∀ u ∈ ofTrade rows tradeId, u.correlationId = t.correlationId → u.confirms = false := by
  unfold hasUnconfirmedPlacements
  rw [List.any_eq_true]
  constructor
  · rintro ⟨⟨cid, confirmed⟩, hmem, hnot⟩
    have hfalse : confirmed = false := by simpa using hnot
    subst hfalse
    have hlookup := AList.mem_lookup_iff.mpr hmem
    rw [Option.mem_def, lookup_attempts] at hlookup
    split at hlookup
    case isTrue => cases hlookup
    case isFalse hnone =>
      split at hlookup
      case isFalse => cases hlookup
      case isTrue hattempt =>
        obtain ⟨t, ht, htrue⟩ := List.any_eq_true.mp hattempt
        rw [Bool.and_eq_true, decide_eq_true_eq, decide_eq_true_eq] at htrue
        refine ⟨t, ht, htrue.1, fun u hu hcid => ?_⟩
        by_contra hconfirms
        refine hnone (List.any_eq_true.mpr ⟨u, hu, ?_⟩)
        simpa [hcid, htrue.2] using hconfirms
  · rintro ⟨t, ht, hattempt, hnone⟩
    have hno : ¬((ofTrade rows tradeId).any fun u =>
        u.confirms && u.correlationId = t.correlationId) = true := by
      intro hany
      obtain ⟨u, hu, htrue⟩ := List.any_eq_true.mp hany
      rw [Bool.and_eq_true, decide_eq_true_eq] at htrue
      rw [hnone u hu htrue.2] at htrue
      cases htrue.1
    have hyes : ((ofTrade rows tradeId).any fun u =>
        u.action = .placeAttempt && u.correlationId = t.correlationId) = true :=
      List.any_eq_true.mpr ⟨t, ht, by simp [hattempt]⟩
    refine ⟨⟨t.correlationId, false⟩, AList.mem_lookup_iff.mp ?_, rfl⟩
    rw [Option.mem_def, lookup_attempts, if_neg hno, if_pos hyes]

-- ============================================================================
-- Linkage
-- ============================================================================

/-- What ties a row to its trade. -/
structure Linkage where
  tradeId : Option String
  legType : Option LegType
  tradeSerial : Option ℤ
  deriving DecidableEq, Repr

def LedgerRow.linkage (t : LedgerRow) : Linkage := ⟨t.tradeId, t.legType, t.tradeSerial⟩

/-- The value of a column that the rows of an order record last. -/
def recorded {β : Type} (column : LedgerRow → Option β) (rows : List LedgerRow) (id : ℤ) : Option β :=
  rows.reverse.findSome? fun t => if t.ibOrderId = some id then column t else none

/-- The trade id, leg type and serial number of an order, as its rows record them. -/
def orderLinkage (rows : List LedgerRow) (id : ℤ) : Linkage where
  tradeId := recorded (·.tradeId) rows id
  legType := recorded (·.legType) rows id
  tradeSerial := recorded (·.tradeSerial) rows id

section Recorded

variable {β : Type} {column : LedgerRow → Option β} {rows more : List LedgerRow} {id : ℤ}

theorem recorded_append : recorded column (rows ++ more) id =
    (recorded column more id).or (recorded column rows id) := by
  rw [recorded, List.reverse_append, List.findSome?_append]
  rfl

/-- Rows that repeat what is recorded of their orders, or leave it out, change
    nothing. -/
theorem recorded_append_of_repeats
    (h : ∀ t ∈ more, t.ibOrderId = some id → column t = none ∨ column t = recorded column rows id) :
    recorded column (rows ++ more) id = recorded column rows id := by
  rw [recorded_append]
  cases hmore : recorded column more id with
  | none => rfl
  | some x =>
    obtain ⟨t, ht, hx⟩ := List.exists_of_findSome?_eq_some hmore
    split at hx
    case isTrue hid =>
      rcases h t (List.mem_reverse.mp ht) hid with hnone | hsame
      · cases hnone.symm.trans hx
      · rw [Option.some_or, ← hsame, hx]
    case isFalse => cases hx

end Recorded

end IbTrader.Data
