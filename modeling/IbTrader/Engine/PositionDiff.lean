/-
  IbTrader.Engine.PositionDiff

  What a terminal event attributes to an order when the broker's position disagrees
  with the recorded fills (`ib_trader/engine/order_ledger.py`,
  `_apply_position_diff` and `_make_terminal`).

  `applyPositionDiff_some` says when the position raises the filled quantity and by
  how much at most: above the tracked quantity, never above the target.  The ghost
  fill that makes up the difference (`reconciledEntry_fills`) has the price of the
  last recorded fill and no commission, so it moves the average price between the
  recorded prices and leaves the commission.
-/

import IbTrader.Engine.OrderLedger
import IbTrader.Lib.Executions

namespace IbTrader.Engine.OrderLedger

open Lib

-- ============================================================================
-- The fills as executions
-- ============================================================================

/-- A fill as an execution of its order. -/
def Fill.execution (f : Fill) : Execution ℚ := ⟨f.qty, f.price, f.commission⟩

theorem filledQty_eq_qty (e : LedgerEntry) :
    e.filledQty = Executions.qty (e.fills.map (·.execution)) := by
  rw [LedgerEntry.filledQty, Executions.qty, List.map_map]
  rfl

theorem avgPrice_eq (e : LedgerEntry) (h : e.filledQty ≠ 0) :
    e.avgPrice = some (Executions.avgPrice (e.fills.map (·.execution))) := by
  have hnotional : (e.fills.map fun f => f.qty * f.price).sum =
      Executions.notional (e.fills.map (·.execution)) := by
    rw [Executions.notional, List.map_map]
    exact congrArg List.sum (List.map_congr_left fun f _ => mul_comm f.qty f.price)
  rw [LedgerEntry.avgPrice, if_neg h, hnotional, filledQty_eq_qty, Executions.avgPrice]

theorem filledQty_pos {e : LedgerEntry} (hfills : ∀ f ∈ e.fills, 0 < f.qty) (hne : e.fills ≠ []) :
    0 < e.filledQty :=
  List.sum_pos _ (fun q hq => by
    obtain ⟨f, hf, rfl⟩ := List.mem_map.mp hq
    exact hfills f hf) (by simpa using hne)

-- ============================================================================
-- The quantity the position confirms
-- ============================================================================

/-- What can raise the filled quantity: a snapshot, an answer of the wired getter, a
    known side, some tracked quantity and a target above it. -/
structure Raised (wired : Bool) (position : PositionGetter) (e : LedgerEntry) (effective : ℚ) :
    Prop where
  wired : wired = true
  snapshot : e.prePosition ≠ none
  answered : position e.symbol e.secType ≠ none
  side : e.side = "BUY" ∨ e.side = "SELL"
  target : 0 < e.targetQty
  tracked : e.filledQty ≠ 0
  above : e.filledQty < effective
  capped : effective ≤ e.targetQty

theorem applyPositionDiff_some {wired : Bool} {position : PositionGetter} {e : LedgerEntry}
    {effective : ℚ} (h : applyPositionDiff wired position e = some effective) :
    Raised wired position e effective := by
  unfold applyPositionDiff at h
  split at h
  case h_1 | h_2 => cases h
  case h_3 pre hpre =>
    split at h
    case isTrue => cases h
    case isFalse hopen =>
      rw [not_or, not_le, not_le] at hopen
      split at h
      case isTrue => cases h
      case isFalse htracked =>
        split at h
        case h_1 => cases h
        case h_2 current hcurrent =>
          have hknown : e.side = "BUY" ∨ e.side = "SELL" := by
            by_contra hside
            rw [not_or] at hside
            simp [hside.1, hside.2] at h
          dsimp only at h
          split at h
          case h_1 => cases h
          case h_2 delta =>
            split at h
            case isTrue => cases h
            case isFalse habove =>
              cases h
              exact ⟨rfl, by simp [hpre], by simp [hcurrent], hknown, hopen.1, htracked,
                not_le.mp habove, min_le_right _ _⟩

/-- The entry a terminal event is made of: the recorded fills, with a ghost fill
    where the position confirms more. -/
theorem reconciledEntry_cases (wired : Bool) (position : PositionGetter) (e : LedgerEntry) :
    reconciledEntry wired position e = e ∨
      ∃ effective last, Raised wired position e effective ∧ last ∈ e.fills ∧
        reconciledEntry wired position e = e.addFill
          { qty := effective - e.filledQty, price := last.price, commission := 0
            execId := "POSITION_DIFF_RECONCILE" } := by
  unfold reconciledEntry
  split
  case h_1 => exact .inl rfl
  case h_2 effective heffective =>
    have hraised := applyPositionDiff_some heffective
    have hne : e.fills ≠ [] := fun hnil => hraised.tracked (by simp [LedgerEntry.filledQty, hnil])
    refine .inr ⟨effective, e.fills.getLast hne, hraised, List.getLast_mem hne, ?_⟩
    rw [if_pos hraised.above, List.getLast?_eq_some_getLast hne]
    rfl

-- ============================================================================
-- The terminal event
-- ============================================================================

section Terminal

variable {wired : Bool} {position : PositionGetter} {e : LedgerEntry}

theorem filledQty_le_reconciledEntry :
    e.filledQty ≤ (reconciledEntry wired position e).filledQty := by
  rcases reconciledEntry_cases wired position e with h | ⟨effective, last, hraised, -, h⟩
  · rw [h]
  · rw [h, LedgerEntry.addFill_filledQty, add_sub_cancel]
    exact hraised.above.le

theorem reconciledEntry_filledQty_le :
    (reconciledEntry wired position e).filledQty ≤ max e.filledQty e.targetQty := by
  rcases reconciledEntry_cases wired position e with h | ⟨effective, last, hraised, -, h⟩
  · rw [h]
    exact le_max_left _ _
  · rw [h, LedgerEntry.addFill_filledQty, add_sub_cancel]
    exact hraised.capped.trans (le_max_right _ _)

/-- The ghost fill carries no commission. -/
theorem reconciledEntry_totalCommission :
    (reconciledEntry wired position e).totalCommission = e.totalCommission := by
  rcases reconciledEntry_cases wired position e with h | ⟨effective, last, -, -, h⟩
  · rw [h]
  · rw [h]
    simp [LedgerEntry.addFill, LedgerEntry.totalCommission]

theorem reconciledEntry_pos (hfills : ∀ f ∈ e.fills, 0 < f.qty) :
    ∀ f ∈ (reconciledEntry wired position e).fills, 0 < f.qty := by
  rcases reconciledEntry_cases wired position e with h | ⟨effective, last, hraised, -, h⟩
  · rw [h]
    exact hfills
  · rw [h]
    intro f hf
    rcases List.mem_append.mp hf with hold | hghost
    · exact hfills f hold
    · rw [List.mem_singleton.mp hghost]
      exact sub_pos.mpr hraised.above

/-- Every price the event averages is a recorded one. -/
theorem reconciledEntry_price {f : Fill} (hf : f ∈ (reconciledEntry wired position e).fills) :
    ∃ g ∈ e.fills, g.price = f.price := by
  rcases reconciledEntry_cases wired position e with h | ⟨effective, last, -, hlast, h⟩
  · rw [h] at hf
    exact ⟨f, hf, rfl⟩
  · rw [h] at hf
    rcases List.mem_append.mp hf with hold | hghost
    · exact ⟨f, hold, rfl⟩
    · rw [List.mem_singleton.mp hghost]
      exact ⟨last, hlast, rfl⟩

theorem reconciledEntry_of_not_raised (h : ∀ effective, ¬Raised wired position e effective) :
    reconciledEntry wired position e = e := by
  rcases reconciledEntry_cases wired position e with heq | ⟨effective, last, hraised, -, -⟩
  · exact heq
  · exact absurd hraised (h effective)

/-- The average price lies between bounds of the recorded prices. -/
theorem reconciledEntry_avgPrice (hfills : ∀ f ∈ e.fills, 0 < f.qty) (hne : e.fills ≠ []) {lo hi : ℚ}
    (hlo : ∀ f ∈ e.fills, lo ≤ f.price) (hhi : ∀ f ∈ e.fills, f.price ≤ hi) :
    ∃ avg, (reconciledEntry wired position e).avgPrice = some avg ∧ lo ≤ avg ∧ avg ≤ hi := by
  have hqty : 0 < (reconciledEntry wired position e).filledQty :=
    (filledQty_pos hfills hne).trans_le filledQty_le_reconciledEntry
  refine ⟨_, avgPrice_eq _ hqty.ne', ?_⟩
  rw [filledQty_eq_qty] at hqty
  have hpos : ∀ x ∈ (reconciledEntry wired position e).fills.map (·.execution), 0 < x.qty := by
    rw [List.forall_mem_map]
    exact reconciledEntry_pos hfills
  constructor
  · refine Executions.le_avgPrice hpos hqty ?_
    rw [List.forall_mem_map]
    intro f hf
    obtain ⟨g, hg, hprice⟩ := reconciledEntry_price hf
    exact (hlo g hg).trans_eq hprice
  · refine Executions.avgPrice_le hpos hqty ?_
    rw [List.forall_mem_map]
    intro f hf
    obtain ⟨g, hg, hprice⟩ := reconciledEntry_price hf
    exact hprice.symm.trans_le (hhi g hg)

end Terminal

/-- A terminal event neither invents nor loses quantity: whatever the broker's
    position says, it reports at least the tracked fills and at most the target (or
    the fills, where they exceed it), at an average between the lowest and highest
    recorded price, with the recorded commissions; and the fills as they are where
    the position cannot be compared. -/
theorem makeTerminal_within (l : Ledger) (position : PositionGetter) (e : LedgerEntry)
    (hfills : ∀ f ∈ e.fills, 0 < f.qty) :
    e.filledQty ≤ (makeTerminal l position e).2.filledQty ∧
    (makeTerminal l position e).2.filledQty ≤ max e.filledQty e.targetQty ∧
    (∀ lo hi, (e.fills.map (·.price)).min? = some lo → (e.fills.map (·.price)).max? = some hi →
      ∃ avg, (makeTerminal l position e).2.avgPrice = some avg ∧ lo ≤ avg ∧ avg ≤ hi) ∧
    (e.fills = [] → (makeTerminal l position e).2.avgPrice = none) ∧
    (makeTerminal l position e).2.totalCommission = (e.fills.map (·.commission)).sum ∧
    (e.prePosition = none ∨ l.positionGetterWired = false ∨ e.targetQty ≤ 0 ∨ e.filledQty = 0 ∨
        position e.symbol e.secType = none ∨ (e.side ≠ "BUY" ∧ e.side ≠ "SELL") →
      (makeTerminal l position e).2.filledQty = e.filledQty) := by
  refine ⟨filledQty_le_reconciledEntry, reconciledEntry_filledQty_le, ?_, ?_,
    reconciledEntry_totalCommission, ?_⟩
  · intro lo hi hlo hhi
    have hne : e.fills ≠ [] := by
      rintro hnil
      simp [hnil] at hlo
    rw [List.min?_eq_some_iff] at hlo
    rw [List.max?_eq_some_iff] at hhi
    exact reconciledEntry_avgPrice hfills hne
      (fun f hf => hlo.2 _ (List.mem_map_of_mem hf)) (fun f hf => hhi.2 _ (List.mem_map_of_mem hf))
  · intro hnil
    have hzero : e.filledQty = 0 := by simp [LedgerEntry.filledQty, hnil]
    have hsame : reconciledEntry l.positionGetterWired position e = e :=
      reconciledEntry_of_not_raised fun _ hraised => hraised.tracked hzero
    change (reconciledEntry l.positionGetterWired position e).avgPrice = none
    rw [hsame, LedgerEntry.avgPrice, if_pos hzero]
  · intro hcannot
    have hsame : reconciledEntry l.positionGetterWired position e = e := by
      refine reconciledEntry_of_not_raised fun effective hraised => ?_
      rcases hcannot with h | h | h | h | h | ⟨hbuy, hsell⟩
      · exact hraised.snapshot h
      · exact absurd hraised.wired (by simp [h])
      · exact absurd hraised.target (not_lt.mpr h)
      · exact hraised.tracked h
      · exact hraised.answered h
      · exact hraised.side.elim hbuy hsell
    change (reconciledEntry l.positionGetterWired position e).filledQty = e.filledQty
    rw [hsame]

/-- An order for ten of which four were reported, while the position moved by
    twelve. -/
def dropped : LedgerEntry where
  ibOrderId := "17"
  orderRef := ""
  symbol := "MGC"
  secType := "FUT"
  conId := 1
  side := "BUY"
  targetQty := 10
  fills := [⟨1, 100, 1, "a"⟩, ⟨3, 104, 2, "b"⟩]
  prePosition := some 5

/-- Ten are attributed to it, at an average between 100 and 104. -/
theorem makeTerminal_within_dropped :
    dropped.filledQty ≤ (makeTerminal (Ledger.init true) (fun _ _ => some 17) dropped).2.filledQty ∧
    (makeTerminal (Ledger.init true) (fun _ _ => some 17) dropped).2.filledQty ≤
      max dropped.filledQty dropped.targetQty := by
  have h := makeTerminal_within (Ledger.init true) (fun _ _ => some 17) dropped
    (by decide +kernel)
  exact ⟨h.1, h.2.1⟩

end IbTrader.Engine.OrderLedger
