/-
  IbTrader.Engine.SplitFills

  A resting exit order that fills in parts.  `on_fill` hands every execution to
  `handle_autonomous_close_fill` with the quantity, price and commission of that
  execution alone, and the handler drops a fill of an order that has a fill row.
  So the first part is booked as if it were all of the fill and the rest is lost
  (`deliver_of_exitOpen`): the outcome is that of the whole fill exactly when there
  is one part, or the books ignore the order anyway (`splitInvariant_iff`).
-/

import Mathlib.Tactic.Linarith
import IbTrader.Engine.TradeHistory

namespace IbTrader.Engine.Closing

open Data

-- ============================================================================
-- Fills and their parts
-- ============================================================================

/-- What one fill callback brings. -/
structure Fill where
  qty : ℚ
  avgPrice : ℚ
  commission : ℚ
  deriving DecidableEq, Repr

/-- The value that changes hands. -/
def Fill.notional (f : Fill) : ℚ := f.avgPrice * f.qty

/-- The parts have the quantity, the notional and the commission of the whole. -/
structure Fill.SplitsInto (whole : Fill) (parts : List Fill) : Prop where
  pos : ∀ f ∈ parts, 0 < f.qty
  nonempty : parts ≠ []
  qty : (parts.map Fill.qty).sum = whole.qty
  notional : (parts.map Fill.notional).sum = whole.notional
  commission : (parts.map Fill.commission).sum = whole.commission

/-- The trade after one callback. -/
def deliverFill (ibOrderId : ℤ) (t : Trade) (f : Fill) : Trade :=
  ((handleAutonomousCloseFill t ibOrderId f.qty f.avgPrice f.commission).map (·.trade)).getD t

/-- The trade after a sequence of callbacks. -/
def deliver (t : Trade) (ibOrderId : ℤ) (fills : List Fill) : Trade :=
  fills.foldl (deliverFill ibOrderId) t

/-- What the delivery of a fill leaves: the profit, the exited quantity and the
    status. -/
structure Outcome where
  realizedPnl : Option ℚ
  exitedQty : ℚ
  status : TradeStatus
  deriving DecidableEq, Repr

def Trade.outcome (t : Trade) : Outcome where
  realizedPnl := t.group.realizedPnl
  exitedQty := countedQty exitLegs t.rows
  status := t.group.status

/-- The parts leave what the whole does. -/
def SplitInvariant (t : Trade) (ibOrderId : ℤ) (whole : Fill) (parts : List Fill) : Prop :=
  (deliver t ibOrderId parts).outcome = (deliver t ibOrderId [whole]).outcome

instance (t : Trade) (id : ℤ) (whole : Fill) (parts : List Fill) :
    Decidable (SplitInvariant t id whole parts) := by
  unfold SplitInvariant; infer_instance

-- ============================================================================
-- When a fill is recorded
-- ============================================================================

/-- The order is a profit taker or a stop loss. -/
def IsExitOrder (rows : List TransactionEvent) (ibOrderId : ℤ) : Prop :=
  ∃ placement, placementOf rows ibOrderId = some placement ∧
    placement.legType ∈ [LegType.profitTaker, .stopLoss]

/-- No FILLED or PARTIAL_FILL row carries the order. -/
def Unfilled (rows : List TransactionEvent) (ibOrderId : ℤ) : Prop :=
  ∀ leg ∈ getFilledLegs rows, leg.ibOrderId ≠ some ibOrderId

instance (rows : List TransactionEvent) (id : ℤ) : Decidable (Unfilled rows id) := by
  unfold Unfilled; infer_instance

/-- The entry has a fill row with a price. -/
def EntryPriced (rows : List TransactionEvent) : Prop :=
  ((getEntryFill rows).bind (·.ibAvgFillPrice)).isSome = true

instance (rows : List TransactionEvent) : Decidable (EntryPriced rows) := by
  unfold EntryPriced; infer_instance

/-- A fill of an exit order is recorded when the order has no fill row and the
    entry has one with a price. -/
theorem handleAutonomousCloseFill_isSome_iff {t : Trade} {id : ℤ} (hexit : IsExitOrder t.rows id)
    (f : Fill) :
    (handleAutonomousCloseFill t id f.qty f.avgPrice f.commission).isSome = true ↔
      Unfilled t.rows id ∧ EntryPriced t.rows := by
  obtain ⟨placement, hplacement, hleg⟩ := hexit
  have hguard : (getFilledLegs t.rows).any (·.ibOrderId = some id) = true ↔ ¬ Unfilled t.rows id := by
    simp [Unfilled]
  unfold handleAutonomousCloseFill EntryPriced
  cases hentry : getEntryFill t.rows with
  | none => simp [hplacement]
  | some entry =>
    rw [hplacement]
    dsimp only
    rw [if_neg (not_not.mpr hleg)]
    by_cases hunfilled : Unfilled t.rows id
    · rw [if_neg (fun h => hguard.mp h hunfilled)]
      cases hprice : entry.ibAvgFillPrice <;> simp [hunfilled, hprice]
    · rw [if_pos (hguard.mpr hunfilled)]
      simp [hunfilled]

/-- A recorded fill counts its quantity, and its order has a fill row. -/
theorem recorded_fill {t : Trade} {id : ℤ} {f : Fill} {recorded : Recorded}
    (h : handleAutonomousCloseFill t id f.qty f.avgPrice f.commission = some recorded) :
    countedQty exitLegs recorded.trade.rows = countedQty exitLegs t.rows + f.qty ∧
      IsExitOrder recorded.trade.rows id ∧ ¬ Unfilled recorded.trade.rows id := by
  obtain ⟨placement, entry, hplacement, hleg, -, -, hrows, -⟩ := handleAutonomousCloseFill_some h
  obtain ⟨-, hid⟩ := placementOf_some hplacement
  have hfill : (autonomousFillRow placement f.qty f.avgPrice f.commission).isFill = true := rfl
  rw [hrows]
  refine ⟨?_, ⟨placement, ?_, hleg⟩, fun hunfilled => ?_⟩
  · rw [countedQty_insert exitLegs t.rows hfill, if_pos]
    · rfl
    · change placement.legType ∈ exitLegs
      rcases List.mem_cons.mp hleg with hleg | hleg
      · simp [exitLegs, hleg]
      · simp [exitLegs, List.mem_singleton.mp hleg]
  · rw [← hplacement, placementOf, placementOf, Data.insert, List.reverse_append,
      List.reverse_singleton, List.singleton_append, List.find?_cons_of_neg]
    simp [autonomousFillRow, TransactionEvent.stored]
  · rw [Unfilled, getFilledLegs_insert_of_fill hfill] at hunfilled
    exact hunfilled _ (List.mem_append_right _ (List.mem_singleton.mpr rfl)) hid

-- ============================================================================
-- The parts of a fill
-- ============================================================================

/-- Once the books ignore the order they ignore all of its fills. -/
theorem deliver_of_ignored {t : Trade} {id : ℤ} (hexit : IsExitOrder t.rows id)
    (h : ¬ (Unfilled t.rows id ∧ EntryPriced t.rows)) (fills : List Fill) :
    deliver t id fills = t := by
  induction fills with
  | nil => rfl
  | cons f fills ih =>
    have hnone : handleAutonomousCloseFill t id f.qty f.avgPrice f.commission = none := by
      rw [← Option.not_isSome_iff_eq_none, handleAutonomousCloseFill_isSome_iff hexit f]
      exact h
    have hstep : deliverFill id t f = t := by rw [deliverFill, hnone]; rfl
    rw [deliver, List.foldl_cons, hstep]
    exact ih

/-- Otherwise the first part is recorded and the others are lost. -/
theorem deliver_of_exitOpen {t : Trade} {id : ℤ} (hexit : IsExitOrder t.rows id)
    (h : Unfilled t.rows id ∧ EntryPriced t.rows) (f : Fill) (fills : List Fill) :
    ∃ recorded, handleAutonomousCloseFill t id f.qty f.avgPrice f.commission = some recorded ∧
      deliver t id (f :: fills) = recorded.trade := by
  obtain ⟨recorded, hrecorded⟩ :=
    Option.isSome_iff_exists.mp ((handleAutonomousCloseFill_isSome_iff hexit f).mpr h)
  obtain ⟨-, hexit', hfilled⟩ := recorded_fill hrecorded
  refine ⟨recorded, hrecorded, ?_⟩
  have hstep : deliverFill id t f = recorded.trade := by rw [deliverFill, hrecorded]; rfl
  rw [deliver, List.foldl_cons, hstep]
  exact deliver_of_ignored hexit' (fun hopen => hfilled hopen.1) fills

/-- What is exited after the parts is the first of them. -/
theorem exitedQty_deliver {t : Trade} {id : ℤ} (hexit : IsExitOrder t.rows id)
    (h : Unfilled t.rows id ∧ EntryPriced t.rows) (f : Fill) (fills : List Fill) :
    (deliver t id (f :: fills)).outcome.exitedQty = countedQty exitLegs t.rows + f.qty := by
  obtain ⟨recorded, hrecorded, htrade⟩ := deliver_of_exitOpen hexit h f fills
  rw [htrade]
  exact (recorded_fill hrecorded).1

/-- A fill in one part is that part. -/
theorem Fill.SplitsInto.eq_of_singleton {whole f : Fill} (h : whole.SplitsInto [f]) : whole = f := by
  obtain ⟨qty, avgPrice, commission⟩ := whole
  obtain ⟨qty', avgPrice', commission'⟩ := f
  have hpos : 0 < qty' := h.pos _ (List.mem_singleton.mpr rfl)
  have hqty : qty' = qty := by simpa using h.qty
  have hcommission : commission' = commission := by simpa using h.commission
  have hnotional : avgPrice' * qty' = avgPrice * qty := by simpa [Fill.notional] using h.notional
  subst hqty hcommission
  rw [mul_right_cancel₀ hpos.ne' hnotional]

/-- The first of several parts is less than the whole. -/
theorem Fill.SplitsInto.head_lt {whole f g : Fill} {fills : List Fill}
    (h : whole.SplitsInto (f :: g :: fills)) : f.qty < whole.qty := by
  have hg : 0 < g.qty := h.pos g (List.mem_cons_of_mem f List.mem_cons_self)
  have hrest : 0 ≤ (fills.map Fill.qty).sum := by
    apply List.sum_nonneg
    intro q hq
    obtain ⟨k, hk, rfl⟩ := List.mem_map.mp hq
    exact (h.pos k (List.mem_cons_of_mem f (List.mem_cons_of_mem g hk))).le
  have hsum := h.qty
  simp only [List.map_cons, List.sum_cons] at hsum
  linarith

/-- The parts of a fill leave what the whole does exactly when there is only one,
    or the books ignore the order. -/
theorem splitInvariant_iff {t : Trade} {id : ℤ} (hexit : IsExitOrder t.rows id) {whole : Fill}
    {parts : List Fill} (hsplit : whole.SplitsInto parts) :
    SplitInvariant t id whole parts ↔
      parts.length = 1 ∨ ¬ Unfilled t.rows id ∨ ¬ EntryPriced t.rows := by
  by_cases hopen : Unfilled t.rows id ∧ EntryPriced t.rows
  · have hno : ¬ (¬ Unfilled t.rows id ∨ ¬ EntryPriced t.rows) := by
      rintro (h | h)
      · exact h hopen.1
      · exact h hopen.2
    rw [or_iff_left hno]
    match parts, hsplit with
    | [], hsplit => exact absurd rfl hsplit.nonempty
    | [f], hsplit =>
      rw [hsplit.eq_of_singleton]
      exact iff_of_true rfl rfl
    | f :: g :: fills, hsplit =>
      refine iff_of_false (fun hinv => ?_) (by simp)
      have hqty : (deliver t id (f :: g :: fills)).outcome.exitedQty =
          (deliver t id [whole]).outcome.exitedQty := congrArg Outcome.exitedQty hinv
      rw [exitedQty_deliver hexit hopen, exitedQty_deliver hexit hopen] at hqty
      have hlt := hsplit.head_lt
      linarith
  · have hignored : ¬ Unfilled t.rows id ∨ ¬ EntryPriced t.rows := not_and_or.mp hopen
    refine iff_of_true ?_ (.inr hignored)
    rw [SplitInvariant, deliver_of_ignored hexit hopen, deliver_of_ignored hexit hopen]

/-- Ten bought at 100, with a profit taker at IB. -/
def restingProfitTaker : Trade :=
  (History.run [.entryPlaced 1 .buy 10 none, .entryFilled 1 10 100 1 [⟨.profitTaker, 2, none⟩]]).trade

theorem restingProfitTaker_isExitOrder : IsExitOrder restingProfitTaker.rows 2 :=
  ⟨(placementRow .placeAccepted (some 2) .profitTaker .sell 10 none).stored, by decide +kernel,
    by decide⟩

/-- Its ten sold at 110. -/
def tenSold : Fill := ⟨10, 110, 1⟩

theorem tenSold_splitsInto : tenSold.SplitsInto [⟨4, 110, 1⟩, ⟨6, 110, 0⟩] where
  pos := by decide +kernel
  nonempty := List.cons_ne_nil _ _
  qty := by decide +kernel
  notional := by decide +kernel
  commission := by decide +kernel

/-- Sold in one part, the trade is closed; in two, only the first is booked. -/
theorem splitInvariant_iff_tenSold :
    SplitInvariant restingProfitTaker 2 tenSold [⟨4, 110, 1⟩, ⟨6, 110, 0⟩] ↔
      [Fill.mk 4 110 1, ⟨6, 110, 0⟩].length = 1 ∨
        ¬ Unfilled restingProfitTaker.rows 2 ∨ ¬ EntryPriced restingProfitTaker.rows :=
  splitInvariant_iff restingProfitTaker_isExitOrder tenSold_splitsInto

/-- Ten sold as four and six: four are booked and the trade stays open. -/
theorem splitInvariant_fails :
    ¬ ∀ (t : Trade) (id : ℤ) (whole : Fill) (parts : List Fill), t.group.status = .opened →
      IsExitOrder t.rows id → whole.SplitsInto parts → SplitInvariant t id whole parts := by
  intro h
  have hinv : SplitInvariant restingProfitTaker 2 tenSold [⟨4, 110, 1⟩, ⟨6, 110, 0⟩] :=
    h restingProfitTaker 2 tenSold _ (by decide +kernel) restingProfitTaker_isExitOrder
      tenSold_splitsInto
  exact absurd hinv (by decide +kernel)

end IbTrader.Engine.Closing
