/-
  IbTrader.Daemon.Reconciler

  The passes of the daemon over the ledger (`ib_trader/daemon/reconciler.py`), as
  the rows they write.

  No pass reads a row it has written itself, so each is a function of the ledger
  it starts from: `run_reconciliation` of the open orders the client does not list
  (`reconcileLoop_eq`), the other two of a filter of one query.  They write at most
  one row an order (`written_nodup`), so what a pass leaves open is what was open,
  with its own rows in place of those of their orders (`getOpenOrders_next`).
-/

import IbTrader.Data.Ledger
import IbTrader.Engine.BookedFills

namespace IbTrader.Daemon

open Lib Data
open Engine.Closing (FinalStatus canceledStatuses)
open Engine.Booking (DictKey DaemonClient)

-- ============================================================================
-- What the passes read of IB
-- ============================================================================

/-- What the client answers during a pass; `none` where the call raises. -/
structure IbSnapshot where
  /-- `get_open_orders`: the `ib_order_id` of each order. -/
  openOrders : Option (List DictKey)
  /-- `get_order_status`, with the key it is given. -/
  orderStatus : DictKey → Option FinalStatus

/-- `int`, of a number or of the text of one. -/
def toInt : DictKey → Option ℤ
  | .int n => some n
  | .str s => s.toInt?

/-- `ib_open_ids`; `none` where the call or a conversion raises. -/
def IbSnapshot.ibOpenIds (ib : IbSnapshot) : Option (List ℤ) :=
  ib.openOrders.bind fun orders => orders.mapM toInt

/-- IB reports the order open. -/
def IbSnapshot.ReportsOpen (ib : IbSnapshot) (id : ℤ) : Prop :=
  ∃ orders, ib.openOrders = some orders ∧ ∃ key ∈ orders, toInt key = some id

-- ============================================================================
-- `run_reconciliation`
-- ============================================================================

/-- The RECONCILED row of an order. -/
def reconciledRow (txn : LedgerRow) (ibStr : String) (now : ℚ) : LedgerRow where
  ibOrderId := txn.ibOrderId
  ibPermId := txn.ibPermId
  action := .reconciled
  symbol := txn.symbol
  side := txn.side
  orderType := txn.orderType
  quantity := txn.quantity
  limitPrice := txn.limitPrice
  accountId := txn.accountId
  ibStatus := some ibStr
  tradeSerial := txn.tradeSerial
  tradeId := txn.tradeId
  legType := txn.legType
  requestedAt := now
  ibRespondedAt := some now
  isTerminal := true
  securityType := txn.securityType
  expiry := txn.expiry
  tradingClass := txn.tradingClass
  multiplier := txn.multiplier
  conId := txn.conId

/-- The row for what the client answers, if IB is done with the order. -/
def finalRow (txn : LedgerRow) (now : ℚ) (status : FinalStatus) : Option LedgerRow :=
  if status.status = "Filled" then
    some { reconciledRow txn status.status now with
      ibFilledQty := some status.qtyFilled
      ibAvgFillPrice := some (status.avgFillPrice.getD 0)
      commission := some (status.commission.getD 0) }
  else if status.status ∈ canceledStatuses then some (reconciledRow txn status.status now)
  else none

/-- The loop of `run_reconciliation` over the open orders; an exception of
    `get_order_status` ends it. -/
def reconcileLoop (ib : IbSnapshot) (ibById : List DictKey) (now : ℚ) :
    List LedgerRow → List LedgerRow
  | [] => []
  | txn :: later =>
    match txn.ibOrderId with
    | none => reconcileLoop ib ibById now later
    | some id =>
      if id = 0 then reconcileLoop ib ibById now later
      else if .int id ∈ ibById then reconcileLoop ib ibById now later
      else
        match ib.orderStatus (.int id) with
        | none => []
        | some status =>
          (finalRow txn now status).toList ++ reconcileLoop ib ibById now later

/-- The rows `run_reconciliation` writes. -/
def runReconciliation (ib : IbSnapshot) (now : ℚ) (rows : List LedgerRow) : List LedgerRow :=
  match ib.openOrders with
  | none => []
  | some ibById => reconcileLoop ib ibById now (getOpenOrders rows)

-- ============================================================================
-- `run_transaction_reconciliation` and `run_cancel_verification`
-- ============================================================================

/-- The DISCREPANCY row of an order. -/
def discrepancyRow (ibStatus : String) (now : ℚ) (txn : LedgerRow) : LedgerRow where
  ibOrderId := txn.ibOrderId
  ibPermId := txn.ibPermId
  action := .discrepancy
  symbol := txn.symbol
  side := txn.side
  orderType := txn.orderType
  quantity := txn.quantity
  limitPrice := txn.limitPrice
  accountId := txn.accountId
  ibStatus := some ibStatus
  tradeSerial := txn.tradeSerial
  requestedAt := now
  ibRespondedAt := some now
  isTerminal := false

/-- The rows `run_transaction_reconciliation` writes. -/
def runTransactionReconciliation (ib : IbSnapshot) (now : ℚ) (rows : List LedgerRow) :
    List LedgerRow :=
  match ib.ibOpenIds with
  | none => []
  | some ids =>
    ((getOpenOrders rows).filter fun txn => txn.ibOrderId.any (· ∉ ids)).map
      (discrepancyRow "NOT_FOUND_IN_IB" now)

/-- `since_minutes` before now. -/
def cutoff (now : ℚ) (sinceMinutes : ℕ) : ℚ := now - 60 * sinceMinutes

/-- The rows `run_cancel_verification` writes. -/
def runCancelVerification (ib : IbSnapshot) (now : ℚ) (sinceMinutes : ℕ) (rows : List LedgerRow) :
    List LedgerRow :=
  match ib.ibOpenIds with
  | none => []
  | some ids =>
    ((getRecentCancelled rows (cutoff now sinceMinutes)).filter fun txn =>
      txn.ibOrderId.any (· ∈ ids)).map (discrepancyRow "LEDGER_CANCELLED_BUT_LIVE_AT_IB" now)

-- ============================================================================
-- Passes
-- ============================================================================

inductive PassKind where
  | reconciliation
  | transactionReconciliation
  | cancelVerification (sinceMinutes : ℕ)
  deriving DecidableEq, Repr

/-- A pass, with what it reads. -/
structure Pass where
  kind : PassKind
  ib : IbSnapshot
  now : ℚ

/-- The rows a pass writes. -/
def Pass.written (p : Pass) (rows : List LedgerRow) : List LedgerRow :=
  match p.kind with
  | .reconciliation => runReconciliation p.ib p.now rows
  | .transactionReconciliation => runTransactionReconciliation p.ib p.now rows
  | .cancelVerification sinceMinutes => runCancelVerification p.ib p.now sinceMinutes rows

/-- The ledger after a pass. -/
def Pass.next (rows : List LedgerRow) (p : Pass) : List LedgerRow :=
  insertAll rows (p.written rows)

-- ============================================================================
-- The orders `run_reconciliation` asks about
-- ============================================================================

/-- The answer the loop acts on. -/
def IbSnapshot.answer (ib : IbSnapshot) (txn : LedgerRow) : Option FinalStatus :=
  txn.ibOrderId.bind fun id => ib.orderStatus (.int id)

/-- The order is not listed, so the client is asked about it. -/
def asks (ibById : List DictKey) (txn : LedgerRow) : Bool :=
  txn.ibOrderId.any fun id => id ≠ 0 ∧ .int id ∉ ibById

/-- The orders the loop comes to: those before the first question that raises. -/
def reached (ib : IbSnapshot) (ibById : List DictKey) (openOrders : List LedgerRow) :
    List LedgerRow :=
  (openOrders.filter (asks ibById)).takeWhile fun txn => (ib.answer txn).isSome

/-- Leaving out elements a prefix may hold takes them out of the prefix. -/
theorem takeWhile_filter {α : Type*} {xs : List α} {ok keep : α → Bool}
    (h : ∀ x ∈ xs, keep x = false → ok x = true) :
    (xs.filter keep).takeWhile ok = (xs.takeWhile ok).filter keep := by
  induction xs with
  | nil => rfl
  | cons x later ih =>
    have ih' := ih fun y hy => h y (List.mem_cons_of_mem _ hy)
    cases hkeep : keep x with
    | true =>
      rw [List.filter_cons_of_pos hkeep]
      by_cases hok : ok x = true
      · rw [List.takeWhile_cons_of_pos hok, List.takeWhile_cons_of_pos hok,
          List.filter_cons_of_pos hkeep, ih']
      · rw [List.takeWhile_cons_of_neg hok, List.takeWhile_cons_of_neg hok]
        rfl
    | false =>
      have hok : ok x = true := h x List.mem_cons_self hkeep
      have hdrop : ¬keep x = true := by rw [hkeep]; exact Bool.false_ne_true
      rw [List.filter_cons_of_neg hdrop, List.takeWhile_cons_of_pos hok,
        List.filter_cons_of_neg hdrop, ih']

section Reconciliation

variable {ib : IbSnapshot} {ibById : List DictKey} {now : ℚ} {openOrders : List LedgerRow}

/-- The loop writes the final rows of the orders it comes to. -/
theorem reconcileLoop_eq : reconcileLoop ib ibById now openOrders =
    (reached ib ibById openOrders).filterMap fun txn => (ib.answer txn).bind (finalRow txn now) := by
  unfold reached
  induction openOrders with
  | nil => rfl
  | cons txn later ih =>
    unfold reconcileLoop
    cases hid : txn.ibOrderId with
    | none =>
      have hasks : ¬asks ibById txn = true := by simp [asks, hid]
      rw [List.filter_cons_of_neg hasks]
      exact ih
    | some id =>
      dsimp only
      by_cases hzero : id = 0
      · have hasks : ¬asks ibById txn = true := by simp [asks, hid, hzero]
        rw [if_pos hzero, List.filter_cons_of_neg hasks]
        exact ih
      · by_cases hlisted : .int id ∈ ibById
        · have hasks : ¬asks ibById txn = true := by simp [asks, hid, hlisted]
          rw [if_neg hzero, if_pos hlisted, List.filter_cons_of_neg hasks]
          exact ih
        · have hasks : asks ibById txn = true := by simp [asks, hid, hzero, hlisted]
          have hanswer : ib.answer txn = ib.orderStatus (.int id) := by
            rw [IbSnapshot.answer, hid, Option.bind_some]
          rw [if_neg hzero, if_neg hlisted, List.filter_cons_of_pos hasks]
          cases hstatus : ib.orderStatus (.int id) with
          | none =>
            rw [List.takeWhile_cons_of_neg (by rw [hanswer, hstatus]; exact Bool.false_ne_true)]
            rfl
          | some status =>
            rw [List.takeWhile_cons_of_pos (by rw [hanswer, hstatus]; rfl), List.filterMap_cons,
              hanswer, hstatus, Option.bind_some, ih]
            dsimp only
            cases finalRow txn now status <;> rfl

/-- A final row repeats the columns of the row it answers. -/
theorem finalRow_some {txn t : LedgerRow} {status : FinalStatus}
    (h : finalRow txn now status = some t) : t.ibOrderId = txn.ibOrderId ∧
      t.linkage = txn.linkage ∧ t.isTerminal = true ∧ t.action = .reconciled := by
  unfold finalRow at h
  split at h
  · obtain rfl := Option.some.inj h
    exact ⟨rfl, rfl, rfl, rfl⟩
  · split at h
    · obtain rfl := Option.some.inj h
      exact ⟨rfl, rfl, rfl, rfl⟩
    · cases h

theorem mem_reconcileLoop {t : LedgerRow} : t ∈ reconcileLoop ib ibById now openOrders ↔
    ∃ txn ∈ reached ib ibById openOrders, ∃ status, ib.answer txn = some status ∧
      finalRow txn now status = some t := by
  rw [reconcileLoop_eq, List.mem_filterMap]
  simp only [Option.bind_eq_some_iff]

theorem reached_sublist (ib : IbSnapshot) (ibById : List DictKey) (openOrders : List LedgerRow) :
    (reached ib ibById openOrders).Sublist openOrders :=
  (List.takeWhile_sublist _).trans List.filter_sublist

theorem reconcileLoop_ids : ((reconcileLoop ib ibById now openOrders).map (·.ibOrderId)).Sublist
    (openOrders.map (·.ibOrderId)) := by
  rw [reconcileLoop_eq]
  refine List.Sublist.trans ?_ ((reached_sublist ib ibById openOrders).map _)
  induction reached ib ibById openOrders with
  | nil => exact List.Sublist.refl _
  | cons txn later ih =>
    rw [List.filterMap_cons, List.map_cons]
    cases hrow : (ib.answer txn).bind (finalRow txn now) with
    | none => exact ih.cons _
    | some t =>
      obtain ⟨status, -, hfinal⟩ := Option.bind_eq_some_iff.mp hrow
      rw [List.map_cons, (finalRow_some hfinal).1]
      exact ih.cons_cons _

/-- Leaving out orders that were answered takes them from those the loop comes to. -/
theorem reached_filter {keep : LedgerRow → Bool}
    (h : ∀ txn ∈ openOrders, keep txn = false → (ib.answer txn).isSome = true) :
    reached ib ibById (openOrders.filter keep) = (reached ib ibById openOrders).filter keep := by
  unfold reached
  rw [List.filter_filter]
  have hcomm : (fun txn => asks ibById txn && keep txn) = fun txn => keep txn && asks ibById txn := by
    funext txn
    exact Bool.and_comm _ _
  rw [hcomm, ← List.filter_filter]
  exact takeWhile_filter fun txn htxn => h txn (List.mem_of_mem_filter htxn)

end Reconciliation

-- ============================================================================
-- What a pass writes
-- ============================================================================

section Written

variable {p : Pass} {rows : List LedgerRow} {t : LedgerRow}

/-- The rows of the two passes that flag orders. -/
theorem mem_flagged {openRows : List LedgerRow} {flags : LedgerRow → Bool} {ibStatus : String}
    {now : ℚ} (h : t ∈ (openRows.filter flags).map (discrepancyRow ibStatus now)) :
    ∃ txn ∈ openRows, flags txn = true ∧ t = discrepancyRow ibStatus now txn := by
  obtain ⟨txn, htxn, rfl⟩ := List.mem_map.mp h
  obtain ⟨hopen, hflags⟩ := List.mem_filter.mp htxn
  exact ⟨txn, hopen, hflags, rfl⟩

/-- A written row is a final row of an order the loop comes to, or a DISCREPANCY row
    stamped now. -/
theorem written_cases (h : t ∈ p.written rows) :
    (t.isTerminal = true ∧ t.action = .reconciled) ∨
      t.isTerminal = false ∧ t.action = .discrepancy ∧ t.requestedAt = p.now := by
  unfold Pass.written at h
  cases hkind : p.kind with
  | reconciliation =>
    rw [hkind] at h
    dsimp only [runReconciliation] at h
    split at h
    · cases h
    · obtain ⟨txn, -, status, -, hfinal⟩ := mem_reconcileLoop.mp h
      exact .inl (finalRow_some hfinal).2.2
  | transactionReconciliation =>
    rw [hkind] at h
    dsimp only [runTransactionReconciliation] at h
    split at h
    · cases h
    · obtain ⟨txn, -, -, rfl⟩ := mem_flagged h
      exact .inr ⟨rfl, rfl, rfl⟩
  | cancelVerification sinceMinutes =>
    rw [hkind] at h
    dsimp only [runCancelVerification] at h
    split at h
    · cases h
    · obtain ⟨txn, -, -, rfl⟩ := mem_flagged h
      exact .inr ⟨rfl, rfl, rfl⟩

/-- The orders written about are those of a query. -/
theorem written_ids (p : Pass) (rows : List LedgerRow) : ∃ openRows : List LedgerRow,
    (∀ txn ∈ openRows, txn.ibOrderId.isSome = true) ∧ (openRows.map (·.ibOrderId)).Nodup ∧
      ((p.written rows).map (·.ibOrderId)).Sublist (openRows.map (·.ibOrderId)) := by
  have hflagged : ∀ (openRows : List LedgerRow) (flags : LedgerRow → Bool) (ibStatus : String),
      (((openRows.filter flags).map (discrepancyRow ibStatus p.now)).map (·.ibOrderId)).Sublist
        (openRows.map (·.ibOrderId)) := by
    intro openRows flags ibStatus
    rw [List.map_map]
    exact List.filter_sublist.map _
  have hopen : ∀ txn ∈ getOpenOrders rows, txn.ibOrderId.isSome = true := fun _ =>
    getOpenOrders_isSome
  unfold Pass.written
  cases p.kind with
  | reconciliation =>
    refine ⟨getOpenOrders rows, hopen, getOpenOrders_nodup rows, ?_⟩
    dsimp only [runReconciliation]
    split
    · exact List.nil_sublist _
    · exact reconcileLoop_ids
  | transactionReconciliation =>
    refine ⟨getOpenOrders rows, hopen, getOpenOrders_nodup rows, ?_⟩
    dsimp only [runTransactionReconciliation]
    split
    · exact List.nil_sublist _
    · exact hflagged _ _ _
  | cancelVerification sinceMinutes =>
    refine ⟨getRecentCancelled rows (cutoff p.now sinceMinutes), fun _ =>
      getRecentCancelled_isSome, getRecentCancelled_nodup _ _, ?_⟩
    dsimp only [runCancelVerification]
    split
    · exact List.nil_sublist _
    · exact hflagged _ _ _

/-- A pass writes one row an order. -/
theorem written_nodup (p : Pass) (rows : List LedgerRow) :
    ((p.written rows).map (·.ibOrderId)).Nodup := by
  obtain ⟨openRows, -, hnodup, hsub⟩ := written_ids p rows
  exact hnodup.sublist hsub

theorem written_isSome (h : t ∈ p.written rows) : t.ibOrderId.isSome = true := by
  obtain ⟨openRows, hsome, -, hsub⟩ := written_ids p rows
  obtain ⟨txn, htxn, hid⟩ := List.mem_map.mp (hsub.subset (List.mem_map_of_mem h))
  rw [← hid]
  exact hsome txn htxn

/-- The rows are stored as they are written. -/
theorem next_eq (p : Pass) (rows : List LedgerRow) : p.next rows = rows ++ p.written rows := by
  have hstored : ∀ t ∈ p.written rows, t.stored = t := by
    intro t ht
    have hterminal : (t.isTerminal || decide (t.action ∈ terminalActions)) = t.isTerminal := by
      rcases written_cases ht with ⟨hterminal, -⟩ | ⟨hterminal, haction, -⟩
      · rw [hterminal, Bool.true_or]
      · rw [hterminal, haction]
        rfl
    unfold LedgerRow.stored
    rw [hterminal]
  unfold Pass.next insertAll
  rw [List.map_congr_left hstored, List.map_id']

/-- What is open after a pass: what was, and the rows that flag orders. -/
theorem getOpenOrders_next (p : Pass) (rows : List LedgerRow) :
    getOpenOrders (p.next rows) =
      (getOpenOrders rows).filter (·.ibOrderId ∉ (p.written rows).map (·.ibOrderId)) ++
        (p.written rows).filter (!·.isTerminal) := by
  rw [next_eq, getOpenOrders, latest_append (fun t ht => written_isSome ht) (written_nodup p rows),
    List.filter_append, List.filter_filter, getOpenOrders, List.filter_filter]
  congr 2
  funext t
  exact Bool.and_comm _ _

end Written

end IbTrader.Daemon
