/-
  IbTrader.Daemon.Linkage

  What sequences of daemon passes do to the ledger.

  A pass is to write rows that carry the trade id, leg type and serial number of
  their orders, to end no order IB reports open, to close what it ends, and to have
  nothing to write when it is repeated.  A DISCREPANCY row carries neither trade id
  nor leg type and leaves its order open, so `run_transaction_reconciliation`
  flags an order again at each repetition, and a later RECONCILED row repeats the
  lost columns.  The passes are right exactly if none of this happens
  (`linkage_preserved_iff`).  With the keys of the client in use
  `run_reconciliation` writes nothing at all (`runReconciliation_daemonClient`).
-/

import IbTrader.Daemon.Reconciler
import IbTrader.Lib.Run
import Mathlib.Tactic.Linarith

namespace IbTrader.Daemon

open Lib Data
open Engine.Closing (FinalStatus canceledStatuses)
open Engine.Booking (DictKey DaemonClient finalStatus getOrderStatus_int)

-- ============================================================================
-- The property
-- ============================================================================

/-- The rows of each order are stamped in the order they are written, up to now. -/
structure StampedInOrder (rows : List LedgerRow) (now : ℚ) : Prop where
  pairwise : rows.Pairwise fun t u => t.ibOrderId = u.ibOrderId → t.requestedAt ≤ u.requestedAt
  le_now : ∀ t ∈ rows, t.requestedAt ≤ now

/-- A time at which a pass is repeated: that of the pass, or a later one if the clock
    has not gone back. -/
def Pass.RepeatsAt (p : Pass) (rows : List LedgerRow) (later : ℚ) : Prop :=
  later = p.now ∨ p.now ≤ later ∧ StampedInOrder rows p.now

/-- A pass over `rows` keeps the linkage the orders had at the start. -/
structure PreservesLinkage (start rows : List LedgerRow) (p : Pass) : Prop where
  linkage : ∀ t ∈ p.written rows, ∀ id, t.ibOrderId = some id → t.linkage = orderLinkage start id
  /-- No order that IB reports open is given a terminal row. -/
  alive : ∀ t ∈ p.written rows, t.isTerminal = true →
    ∀ id, t.ibOrderId = some id → ¬p.ib.ReportsOpen id
  /-- An order that is given a terminal row is not open afterwards. -/
  gone : ∀ t ∈ p.written rows, t.isTerminal = true →
    ∀ u ∈ getOpenOrders (p.next rows), u.ibOrderId ≠ t.ibOrderId
  repeats : ∀ later, p.RepeatsAt rows later →
    Pass.written { p with now := later } (p.next rows) = []

/-- IB is done with the order. -/
def isFinal (status : FinalStatus) : Bool :=
  status.status = "Filled" ∨ status.status ∈ canceledStatuses

/-- The condition: `run_reconciliation` ends only orders that are not reported open and
    whose last row has the linkage; `run_transaction_reconciliation` misses no order;
    `run_cancel_verification` finds only orders that have no trade id and leg type to
    lose. -/
def Pass.Linked (p : Pass) (rows : List LedgerRow) : Prop :=
  match p.kind with
  | .reconciliation =>
    ∀ ibById, p.ib.openOrders = some ibById →
      ∀ txn ∈ reached p.ib ibById (getOpenOrders rows), ∀ id, txn.ibOrderId = some id →
        ∀ status, p.ib.answer txn = some status → isFinal status = true →
          ¬p.ib.ReportsOpen id ∧ txn.linkage = orderLinkage rows id
  | .transactionReconciliation =>
    ∀ ids, p.ib.ibOpenIds = some ids →
      ∀ txn ∈ getOpenOrders rows, ∀ id, txn.ibOrderId = some id → id ∈ ids
  | .cancelVerification sinceMinutes =>
    ∀ ids, p.ib.ibOpenIds = some ids →
      ∀ txn ∈ getRecentCancelled rows (cutoff p.now sinceMinutes),
        ∀ id ∈ ids, txn.ibOrderId = some id → orderLinkage rows id = ⟨none, none, txn.tradeSerial⟩

-- ============================================================================
-- One pass
-- ============================================================================

section Pass

variable {ib : IbSnapshot} {now : ℚ} {start rows : List LedgerRow} {p : Pass}

theorem finalRow_isSome (txn : LedgerRow) (now : ℚ) (status : FinalStatus) :
    (finalRow txn now status).isSome = isFinal status := by
  unfold finalRow isFinal
  split
  · rename_i hfilled
    simp [hfilled]
  · rename_i hfilled
    split
    · rename_i hcanceled
      simp [hcanceled]
    · rename_i hcanceled
      simp [hfilled, hcanceled]

/-- No terminal row is written of an order that is then open. -/
theorem gone_of_written {t : LedgerRow} (ht : t ∈ p.written rows) (hterminal : t.isTerminal = true) :
    ∀ u ∈ getOpenOrders (p.next rows), u.ibOrderId ≠ t.ibOrderId := by
  intro u hu hid
  rw [getOpenOrders_next] at hu
  rcases List.mem_append.mp hu with hu | hu
  · have hnot := (List.mem_filter.mp hu).2
    rw [hid] at hnot
    exact of_decide_eq_true hnot (List.mem_map_of_mem ht)
  · -- one row an order
    obtain ⟨hu, hlive⟩ := List.mem_filter.mp hu
    have hsame : u = t := List.inj_on_of_nodup_map (written_nodup p rows) hu ht hid
    rw [hsame, hterminal] at hlive
    exact Bool.false_ne_true hlive

theorem filter_map_eq_nil {openRows : List LedgerRow} {flags : LedgerRow → Bool}
    {row : LedgerRow → LedgerRow} :
    (openRows.filter flags).map row = [] ↔ ∀ txn ∈ openRows, ¬flags txn = true := by
  rw [List.map_eq_nil_iff, List.filter_eq_nil_iff]

theorem any_notMem {id : Option ℤ} {ids : List ℤ} (h : id.isSome = true) :
    ¬(id.any (· ∉ ids)) = true ↔ ∀ n, id = some n → n ∈ ids := by
  obtain ⟨n, rfl⟩ := Option.isSome_iff_exists.mp h
  simp

theorem any_mem {id : Option ℤ} {ids : List ℤ} :
    ¬(id.any (· ∈ ids)) = true ↔ ∀ n ∈ ids, id ≠ some n := by
  cases id with
  | none => simp
  | some n =>
    simp only [Option.any_some, decide_eq_true_eq]
    exact ⟨fun h m hm hn => h (Option.some.inj hn ▸ hm), fun h hn => h n hn rfl⟩

theorem runTransactionReconciliation_eq_nil : runTransactionReconciliation ib now rows = [] ↔
    ∀ ids, ib.ibOpenIds = some ids →
      ∀ txn ∈ getOpenOrders rows, ∀ id, txn.ibOrderId = some id → id ∈ ids := by
  unfold runTransactionReconciliation
  cases hids : ib.ibOpenIds with
  | none => simp
  | some ids =>
    dsimp only
    rw [filter_map_eq_nil]
    constructor
    · rintro h ids' hids' txn htxn
      obtain rfl := Option.some.inj hids'
      exact (any_notMem (getOpenOrders_isSome htxn)).mp (h txn htxn)
    · intro h txn htxn
      exact (any_notMem (getOpenOrders_isSome htxn)).mpr (h ids rfl txn htxn)

theorem runCancelVerification_eq_nil {sinceMinutes : ℕ} :
    runCancelVerification ib now sinceMinutes rows = [] ↔
      ∀ ids, ib.ibOpenIds = some ids →
        ∀ txn ∈ getRecentCancelled rows (cutoff now sinceMinutes),
          ∀ id ∈ ids, txn.ibOrderId ≠ some id := by
  unfold runCancelVerification
  cases hids : ib.ibOpenIds with
  | none => simp
  | some ids =>
    dsimp only
    rw [filter_map_eq_nil]
    constructor
    · rintro h ids' hids' txn htxn
      obtain rfl := Option.some.inj hids'
      exact any_mem.mp (h txn htxn)
    · intro h txn htxn
      exact any_mem.mpr (h ids rfl txn htxn)

/-- A pass that writes nothing is right. -/
theorem preservesLinkage_of_nil (hnil : ∀ later, Pass.written { p with now := later } rows = []) :
    PreservesLinkage start rows p := by
  have hwritten : p.written rows = [] := hnil p.now
  have hnext : p.next rows = rows := by rw [next_eq, hwritten, List.append_nil]
  refine ⟨?_, ?_, ?_, fun later _ => ?_⟩
  · rw [hwritten]
    exact fun _ h => by cases h
  · rw [hwritten]
    exact fun _ h => by cases h
  · rw [hwritten]
    exact fun _ h => by cases h
  · rw [hnext]
    exact hnil later

theorem mem_written_reconciliation (hkind : p.kind = .reconciliation) {t : LedgerRow} :
    t ∈ p.written rows ↔ ∃ ibById, p.ib.openOrders = some ibById ∧
      ∃ txn ∈ reached p.ib ibById (getOpenOrders rows), ∃ status,
        p.ib.answer txn = some status ∧ finalRow txn p.now status = some t := by
  unfold Pass.written
  rw [hkind]
  dsimp only [runReconciliation]
  cases p.ib.openOrders with
  | none => simp
  | some ibById =>
    rw [mem_reconcileLoop]
    simp

/-- Repeated, the pass comes to the orders it has left open, which it leaves open
    again. -/
theorem reconciliation_repeats (hkind : p.kind = .reconciliation) (later : ℚ) :
    Pass.written { p with now := later } (p.next rows) = [] := by
  rw [List.eq_nil_iff_forall_not_mem]
  intro t ht
  have hlater : Pass.kind { p with now := later } = .reconciliation := hkind
  obtain ⟨ibById, hibById, txn, htxn, status, hanswer, hfinal⟩ :=
    (mem_written_reconciliation hlater).mp ht
  have hibById' : p.ib.openOrders = some ibById := hibById
  have hanswer' : p.ib.answer txn = some status := hanswer
  have hterminal : (p.written rows).filter (!·.isTerminal) = [] := by
    refine List.filter_eq_nil_iff.mpr fun u hu => ?_
    obtain ⟨-, -, txn', -, status', -, hfinal'⟩ := (mem_written_reconciliation hkind).mp hu
    simp [(finalRow_some hfinal').2.2.1]
  rw [getOpenOrders_next, hterminal, List.append_nil, reached_filter] at htxn
  · -- its row has been written
    obtain ⟨hreached, hkeep⟩ := List.mem_filter.mp htxn
    have hsome : (finalRow txn p.now status).isSome = true := by
      rw [finalRow_isSome, ← finalRow_isSome txn later, hfinal]
      rfl
    obtain ⟨u, hu⟩ := Option.isSome_iff_exists.mp hsome
    have hwritten : u ∈ p.written rows := (mem_written_reconciliation hkind).mpr
      ⟨ibById, hibById', txn, hreached, status, hanswer', hu⟩
    refine of_decide_eq_true hkeep ?_
    rw [← (finalRow_some hu).1]
    exact List.mem_map_of_mem hwritten
  · intro txn' htxn' hdropped
    have hmem : txn'.ibOrderId ∈ (p.written rows).map (·.ibOrderId) := by
      simpa using hdropped
    obtain ⟨u, hu, hid⟩ := List.mem_map.mp hmem
    obtain ⟨_, -, txn'', hreached, status', hanswer'', hfinal'⟩ :=
      (mem_written_reconciliation hkind).mp hu
    have hsame : txn'' = txn' := List.inj_on_of_nodup_map (getOpenOrders_nodup rows)
      ((reached_sublist _ _ _).subset hreached) htxn' ((finalRow_some hfinal').1.symm.trans hid)
    show (p.ib.answer txn').isSome = true
    rw [← hsame, hanswer'']
    rfl

theorem preservesLinkage_reconciliation (hkind : p.kind = .reconciliation)
    (hstart : ∀ id, orderLinkage rows id = orderLinkage start id) :
    PreservesLinkage start rows p ↔ p.Linked rows := by
  unfold Pass.Linked
  rw [hkind]
  constructor
  · intro h ibById hibById txn htxn id hid status hanswer hfinal
    rw [← finalRow_isSome txn p.now] at hfinal
    obtain ⟨t, ht⟩ := Option.isSome_iff_exists.mp hfinal
    have hwritten : t ∈ p.written rows := (mem_written_reconciliation hkind).mpr
      ⟨ibById, hibById, txn, htxn, status, hanswer, ht⟩
    obtain ⟨hsame, hlinkage, hterminal, -⟩ := finalRow_some ht
    refine ⟨h.alive t hwritten hterminal id (hsame.trans hid), ?_⟩
    rw [← hlinkage, h.linkage t hwritten id (hsame.trans hid), hstart]
  · intro h
    have hof : ∀ t ∈ p.written rows, ∀ id, t.ibOrderId = some id →
        ¬p.ib.ReportsOpen id ∧ t.linkage = orderLinkage rows id := by
      intro t ht id hid
      obtain ⟨ibById, hibById, txn, htxn, status, hanswer, hfinal⟩ :=
        (mem_written_reconciliation hkind).mp ht
      obtain ⟨hsame, hlinkage, -⟩ := finalRow_some hfinal
      rw [hlinkage]
      refine h ibById hibById txn htxn id (hsame.symm.trans hid) status hanswer ?_
      rw [← finalRow_isSome txn p.now, hfinal]
      rfl
    refine ⟨fun t ht id hid => ?_, fun t ht _ id hid => (hof t ht id hid).1,
      fun t ht hterminal => gone_of_written ht hterminal,
      fun later _ => reconciliation_repeats hkind later⟩
    rw [(hof t ht id hid).2, hstart]

/-- An order that is flagged is still open, and flagged again. -/
theorem preservesLinkage_transactionReconciliation (hkind : p.kind = .transactionReconciliation) :
    PreservesLinkage start rows p ↔ p.Linked rows := by
  have hwritten : ∀ later rows, Pass.written { p with now := later } rows =
      runTransactionReconciliation p.ib later rows := by
    intro later rows
    unfold Pass.written
    dsimp only
    rw [hkind]
  unfold Pass.Linked
  rw [hkind]
  constructor
  · intro h
    have hrepeat := h.repeats p.now (.inl rfl)
    rw [hwritten, runTransactionReconciliation_eq_nil] at hrepeat
    intro ids hids txn htxn id hid
    by_contra hmissing
    have hflags : txn.ibOrderId.any (· ∉ ids) = true := by simp [hid, hmissing]
    have hrow : discrepancyRow "NOT_FOUND_IN_IB" p.now txn ∈ p.written rows := by
      show _ ∈ Pass.written { p with now := p.now } rows
      rw [hwritten]
      unfold runTransactionReconciliation
      rw [hids]
      exact List.mem_map_of_mem (List.mem_filter.mpr ⟨htxn, hflags⟩)
    have hopen : discrepancyRow "NOT_FOUND_IN_IB" p.now txn ∈ getOpenOrders (p.next rows) := by
      rw [getOpenOrders_next]
      exact List.mem_append_right _ (List.mem_filter.mpr ⟨hrow, rfl⟩)
    exact hmissing (hrepeat ids hids _ hopen id hid)
  · intro h
    refine preservesLinkage_of_nil fun later => ?_
    rw [hwritten, runTransactionReconciliation_eq_nil]
    exact h

section CancelVerification

variable {sinceMinutes : ℕ}

theorem written_cancelVerification (hkind : p.kind = .cancelVerification sinceMinutes) (later : ℚ)
    (rows : List LedgerRow) : Pass.written { p with now := later } rows =
      runCancelVerification p.ib later sinceMinutes rows := by
  unfold Pass.written
  dsimp only
  rw [hkind]

theorem mem_written_cancelVerification (hkind : p.kind = .cancelVerification sinceMinutes)
    {t : LedgerRow} : t ∈ p.written rows ↔ ∃ ids, p.ib.ibOpenIds = some ids ∧
      ∃ txn ∈ getRecentCancelled rows (cutoff p.now sinceMinutes),
        (∃ id ∈ ids, txn.ibOrderId = some id) ∧
          discrepancyRow "LEDGER_CANCELLED_BUT_LIVE_AT_IB" p.now txn = t := by
  have hwritten : p.written rows = runCancelVerification p.ib p.now sinceMinutes rows :=
    written_cancelVerification hkind p.now rows
  rw [hwritten]
  unfold runCancelVerification
  cases p.ib.ibOpenIds with
  | none => simp
  | some ids =>
    have hany : ∀ id : Option ℤ, id.any (· ∈ ids) = true ↔ ∃ n ∈ ids, id = some n := by
      intro id
      rw [← not_iff_not, any_mem]
      push Not
      exact Iff.rfl
    simp only [List.mem_map, List.mem_filter, hany, Option.some.injEq, exists_eq_left', and_assoc]

/-- What the ledger of a repetition shows as recently cancelled is so before the
    pass, and has not been flagged. -/
theorem mem_getRecentCancelled_next (hkind : p.kind = .cancelVerification sinceMinutes) {later : ℚ}
    (hlater : p.RepeatsAt rows later) {txn : LedgerRow}
    (htxn : txn ∈ getRecentCancelled (p.next rows) (cutoff later sinceMinutes)) :
    txn ∈ getRecentCancelled rows (cutoff p.now sinceMinutes) ∧
      txn.ibOrderId ∉ (p.written rows).map (·.ibOrderId) := by
  obtain ⟨hlast, hcancelled⟩ := mem_getRecentCancelled.mp htxn
  have hflags : ∀ t ∈ p.written rows, t.action = .discrepancy ∧ t.requestedAt = p.now := by
    intro t ht
    obtain ⟨ids, -, txn, -, -, rfl⟩ := (mem_written_cancelVerification hkind).mp ht
    exact ⟨rfl, rfl⟩
  have hnotWritten : txn ∉ p.written rows := by
    intro hwritten
    rw [(hflags txn hwritten).1] at hcancelled
    cases hcancelled
  have hsome : ∀ t ∈ p.written rows, t.ibOrderId.isSome = true := fun t => written_isSome
  rw [next_eq] at hlast
  rw [mem_getRecentCancelled]
  rcases hlater with rfl | ⟨hle, hstamped⟩
  · -- the rows written now are in the window
    have hwindow : (p.written rows).filter (cutoff p.now sinceMinutes ≤ ·.requestedAt) =
        p.written rows := by
      refine List.filter_eq_self.mpr fun t ht => decide_eq_true ?_
      have hpos : (0 : ℚ) ≤ sinceMinutes := Nat.cast_nonneg sinceMinutes
      rw [(hflags t ht).2, cutoff]
      linarith
    rw [List.filter_append, hwindow, latest_append hsome (written_nodup p rows)] at hlast
    rcases List.mem_append.mp hlast with hlast | hwritten
    · obtain ⟨hlast, hkeep⟩ := List.mem_filter.mp hlast
      exact ⟨⟨hlast, hcancelled⟩, of_decide_eq_true hkeep⟩
    · exact absurd hwritten hnotWritten
  · -- the window has moved on, past the earlier rows of an order first
    have hstampedNext : (rows ++ p.written rows).Pairwise fun t u =>
        t.ibOrderId = u.ibOrderId → t.requestedAt ≤ u.requestedAt := by
      refine List.pairwise_append.mpr ⟨hstamped.pairwise, ?_, fun t ht u hu _ => ?_⟩
      · refine List.Pairwise.imp ?_ (List.pairwise_map.mp (written_nodup p rows))
        exact fun hne hsame => absurd hsame hne
      · rw [(hflags u hu).2]
        exact hstamped.le_now t ht
    have hinWindow : cutoff later sinceMinutes ≤ txn.requestedAt :=
      of_decide_eq_true (List.mem_filter.mp ((latest_sublist _ _).subset hlast)).2
    have hlast' := mem_latest_of_filter hlast <| hstampedNext.imp fun {t u} hle hsame ht =>
      decide_eq_true ((of_decide_eq_true ht).trans (hle hsame))
    rw [latest_append hsome (written_nodup p rows)] at hlast'
    rcases List.mem_append.mp hlast' with hlast' | hwritten
    · obtain ⟨hlast', hkeep⟩ := List.mem_filter.mp hlast'
      refine ⟨⟨mem_latest_filter hlast' (decide_eq_true ?_), hcancelled⟩, of_decide_eq_true hkeep⟩
      unfold cutoff at hinWindow ⊢
      linarith
    · exact absurd hwritten hnotWritten

theorem preservesLinkage_cancelVerification (hkind : p.kind = .cancelVerification sinceMinutes)
    (hstart : ∀ id, orderLinkage rows id = orderLinkage start id) :
    PreservesLinkage start rows p ↔ p.Linked rows := by
  unfold Pass.Linked
  rw [hkind]
  constructor
  · intro h ids hids txn htxn id hid hsame
    have hwritten : discrepancyRow "LEDGER_CANCELLED_BUT_LIVE_AT_IB" p.now txn ∈ p.written rows :=
      (mem_written_cancelVerification hkind).mpr ⟨ids, hids, txn, htxn, ⟨id, hid, hsame⟩, rfl⟩
    rw [hstart, ← h.linkage _ hwritten id hsame]
    rfl
  · intro h
    refine ⟨fun t ht id hid => ?_, fun t ht hterminal => ?_, fun t ht => gone_of_written ht,
      fun later hlater => ?_⟩
    · obtain ⟨ids, hids, txn, htxn, ⟨n, hn, hsame⟩, rfl⟩ :=
        (mem_written_cancelVerification hkind).mp ht
      obtain rfl := Option.some.inj (hsame.symm.trans hid)
      rw [← hstart, h ids hids txn htxn n hn hsame]
      rfl
    · obtain ⟨ids, hids, txn, htxn, -, rfl⟩ := (mem_written_cancelVerification hkind).mp ht
      cases hterminal
    · rw [written_cancelVerification hkind, runCancelVerification_eq_nil]
      intro ids hids txn htxn id hid hsame
      obtain ⟨hbefore, hunflagged⟩ := mem_getRecentCancelled_next hkind hlater htxn
      have hwritten : discrepancyRow "LEDGER_CANCELLED_BUT_LIVE_AT_IB" p.now txn ∈ p.written rows :=
        (mem_written_cancelVerification hkind).mpr ⟨ids, hids, txn, hbefore, ⟨id, hid, hsame⟩, rfl⟩
      exact hunflagged (List.mem_map_of_mem (f := (·.ibOrderId)) hwritten)

end CancelVerification

theorem preservesLinkage_iff (hstart : ∀ id, orderLinkage rows id = orderLinkage start id) :
    PreservesLinkage start rows p ↔ p.Linked rows := by
  cases hkind : p.kind with
  | reconciliation => exact preservesLinkage_reconciliation hkind hstart
  | transactionReconciliation => exact preservesLinkage_transactionReconciliation hkind
  | cancelVerification sinceMinutes => exact preservesLinkage_cancelVerification hkind hstart

end Pass

-- ============================================================================
-- Sequences of passes
-- ============================================================================

/-- Rows that carry the linkage of their orders leave it as it is. -/
theorem orderLinkage_next {start rows : List LedgerRow} {p : Pass}
    (hstart : ∀ id, orderLinkage rows id = orderLinkage start id)
    (h : PreservesLinkage start rows p) (id : ℤ) :
    orderLinkage (p.next rows) id = orderLinkage start id := by
  have hcarries : ∀ t ∈ p.written rows, t.ibOrderId = some id →
      t.linkage = orderLinkage rows id := by
    intro t ht hid
    rw [h.linkage t ht id hid, hstart]
  rw [← hstart id, next_eq]
  unfold orderLinkage
  rw [recorded_append_of_repeats, recorded_append_of_repeats, recorded_append_of_repeats]
  · exact fun t ht hid => .inr (congrArg Linkage.tradeSerial (hcarries t ht hid))
  · exact fun t ht hid => .inr (congrArg Linkage.legType (hcarries t ht hid))
  · exact fun t ht hid => .inr (congrArg Linkage.tradeId (hcarries t ht hid))

/-- Every pass of a sequence keeps the linkage the orders had at its start, ends no
    order that is reported open, closes what it ends and has nothing to write when
    repeated, if and only if every pass meets the condition in the ledger it finds. -/
theorem linkage_preserved_iff (rows : List LedgerRow) (passes : List Pass) :
    Along Pass.next (PreservesLinkage rows) rows passes ↔
      Along Pass.next (fun rows p => p.Linked rows) rows passes := by
  refine Along.iff_of_kept (I := fun now => ∀ id, orderLinkage now id = orderLinkage rows id)
    ?_ ?_ passes fun _ => rfl
  · exact fun now p hstart h => orderLinkage_next hstart h
  · exact fun now p hstart => preservesLinkage_iff hstart

/-- An entry order the ledger has open. -/
def placed : LedgerRow where
  ibOrderId := some 101
  action := .placeAccepted
  tradeSerial := some 7
  tradeId := some "trade"
  legType := some .entry
  requestedAt := 0

/-- IB no longer lists the order: it is flagged without its trade id. -/
theorem linkage_not_always_preserved :
    ¬∀ (rows : List LedgerRow) (passes : List Pass),
      Along Pass.next (PreservesLinkage rows) rows passes := by
  intro hall
  have halong := hall [placed]
    [{ kind := .transactionReconciliation, ib := ⟨some [], fun _ => none⟩, now := 1 }]
  have hlinkage := halong.1.linkage (discrepancyRow "NOT_FOUND_IN_IB" 1 placed)
    (List.mem_singleton_self _) 101 rfl
  exact absurd hlinkage (by decide)

-- ============================================================================
-- The client in use
-- ============================================================================

/-- What the daemon's client answers: its keys are text. -/
def daemonSnapshot (ib : DaemonClient) : IbSnapshot where
  openOrders := some (ib.openOrders.map .str)
  orderStatus := fun key => some (finalStatus (ib.getOrderStatus key))

/-- `ib_order_id` of a row is a number, so `run_reconciliation` ends no order. -/
theorem runReconciliation_daemonClient (ib : DaemonClient) (now : ℚ) (rows : List LedgerRow) :
    runReconciliation (daemonSnapshot ib) now rows = [] := by
  rw [List.eq_nil_iff_forall_not_mem]
  intro t ht
  obtain ⟨txn, -, status, hanswer, hfinal⟩ := mem_reconcileLoop.mp ht
  obtain ⟨id, -, hstatus⟩ := Option.bind_eq_some_iff.mp hanswer
  have hunknown : status = finalStatus {} := by
    rw [← getOrderStatus_int ib id]
    exact (Option.some.inj hstatus).symm
  have hnone : finalRow txn now (finalStatus {}) = none := by
    unfold finalRow
    rw [if_neg (by decide), if_neg (by decide)]
  rw [hunknown, hnone] at hfinal
  cases hfinal

end IbTrader.Daemon
