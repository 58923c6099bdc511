/-
  IbTrader.Engine.Accounting

  Two accountings of one trade: what the engine's close path adds up fill by
  fill, and what the daemon computes from the rows when it closes the group.

  The fills of the exits are the engine's FILLED and PARTIAL_FILL rows and, for
  the orders the engine has no such row of, the daemon's RECONCILED rows.  The
  engine's accounting of them is what `_handle_close_fill` and
  `handle_autonomous_close_fill` make of the trade as it stood after its entry.
  The engine takes the commission off the profit and multiplies by the order's
  own multiplier; the daemon does neither and leaves its own rows out
  (`accountsAgree_iff`).
-/

import Mathlib.Tactic.Linarith
import Mathlib.Tactic.LinearCombination
import Mathlib.Tactic.Ring
import IbTrader.Engine.FiledRows

namespace IbTrader.Engine.Closing

open Lib Data

-- ============================================================================
-- The exits of a trade
-- ============================================================================

/-- The exits the engine has recorded. -/
def engineExits (rows : List TransactionEvent) : List TransactionEvent :=
  (getFilledLegs rows).filter (·.legType ∈ exitLegs)

/-- The row reports the fill of an exit order of which the engine has no fill row. -/
def onlyDaemon (rows : List TransactionEvent) (t : TransactionEvent) : Bool :=
  t.action = .reconciled ∧ t.legType ∈ exitLegs ∧ 0 < t.filledQty ∧
    ∀ u ∈ getFilledLegs rows, u.ibOrderId ≠ t.ibOrderId

/-- The exits only the daemon has recorded: the last such row of each order. -/
def daemonExits (rows : List TransactionEvent) : List TransactionEvent :=
  getTradeLegSummary (rows.filter (onlyDaemon rows))

/-- The exits of a trade. -/
def exitFills (rows : List TransactionEvent) : List TransactionEvent :=
  engineExits rows ++ daemonExits rows

/-- The price of a row, zero when it has none. -/
def price (t : TransactionEvent) : ℚ := t.ibAvgFillPrice.getD 0

/-- The commission of a row, zero when it has none. -/
def fee (t : TransactionEvent) : ℚ := t.commission.getD 0

-- ============================================================================
-- The engine's accounting
-- ============================================================================

/-- The context of the close an order is. -/
def closeContextOf (rows : List TransactionEvent) (fill : TransactionEvent) (id : ℤ) :
    CloseContext where
  ibOrderId := id
  side := fill.side
  qtyRequested := fill.quantity
  multiplier := (placementOf rows id).bind (·.multiplier)

/-- The engine's close path on the fill of an exit order. -/
def bookExit (t : Trade) (fill : TransactionEvent) : Trade :=
  match fill.ibOrderId with
  | none => t
  | some id =>
    if fill.legType = .close then
      (handleCloseFill t (closeContextOf t.rows fill id) fill.filledQty (price fill) (fee fill)).trade
    else
      match handleAutonomousCloseFill t id fill.filledQty (price fill) (fee fill) with
      | some recorded => recorded.trade
      | none => t

/-- Is the row no report of an exit's fill? -/
def notAnExit (t : TransactionEvent) : Bool :=
  !(t.reportsFill && t.legType ∈ exitLegs)

/-- The trade as it stood after its entry. -/
def entryBooked (rows : List TransactionEvent) (entry : TransactionEvent) : Trade where
  rows := rows.filter notAnExit
  group := ({} : TradeGroup).updatePnl none (fee entry)

/-- What the engine's close path writes on the trade group for the exits. -/
def engineAccounts (rows : List TransactionEvent) (entry : TransactionEvent) : TradeGroup :=
  ((exitFills rows).foldl bookExit (entryBooked rows entry)).group

-- ============================================================================
-- The daemon's accounting
-- ============================================================================

/-- The commission `_maybe_close_trade_group` sums up. -/
def daemonCommission (rows : List TransactionEvent) : ℚ := (rows.map (·.commission.getD 0)).sum

/-- The profit and commission it writes on the trade group, if it writes any. -/
def daemonAccounts (t : Trade) : Option (ℚ × ℚ) :=
  if (maybeCloseTradeGroup t).closed then
    (daemonPnl t.rows).map fun pnl => (pnl, daemonCommission t.rows)
  else none

/-- They are what it leaves on the group. -/
theorem daemonAccounts_written {t : Trade} {pnl commission : ℚ}
    (h : daemonAccounts t = some (pnl, commission)) :
    (maybeCloseTradeGroup t).trade.group.realizedPnl = some pnl ∧
      (maybeCloseTradeGroup t).trade.group.totalCommission = some commission := by
  unfold daemonAccounts at h
  split at h
  case isFalse => cases h
  case isTrue hclosed =>
    obtain ⟨pnl', hpnl, hpair⟩ := Option.map_eq_some_iff.mp h
    obtain ⟨rfl, rfl⟩ := Prod.mk.inj hpair
    unfold maybeCloseTradeGroup at hclosed ⊢
    dsimp only at hclosed ⊢
    split at hclosed
    · cases hclosed
    case isFalse hsome =>
      split at hclosed
      · cases hclosed
      case isFalse hterminal =>
        rw [if_neg hsome, if_neg hterminal]
        simp only [hpnl]
        exact ⟨rfl, rfl⟩

-- ============================================================================
-- Agreement, and when there is
-- ============================================================================

/-- The daemon writes what the engine's close path does. -/
def AccountsAgree (t : Trade) (entry : TransactionEvent) : Prop :=
  ∃ pnl commission, daemonAccounts t = some (pnl, commission) ∧
    (engineAccounts t.rows entry).realizedPnl = some pnl ∧
    (engineAccounts t.rows entry).totalCommission = some commission

/-- The multiplier the daemon takes. -/
def rowsMultiplier (rows : List TransactionEvent) : ℚ := firstPositive (rows.map (·.multiplier))

/-- The multiplier the engine takes for an exit. -/
def exitMultiplier (rows : List TransactionEvent) (entry fill : TransactionEvent) : ℚ :=
  let placement := fill.ibOrderId.bind (placementOf rows)
  if fill.legType = .close then ((placement.bind (·.multiplier)).filter (· ≠ 0)).getD 1
  else firstPositive [placement.bind (·.multiplier), entry.multiplier]

/-- What the price of an exit differs from the entry's, times its quantity. -/
def exitGain (entry fill : TransactionEvent) : ℚ := (price fill - price entry) * fill.filledQty

/-- When the two accountings of a trade agree. -/
structure AccountsMatch (rows : List TransactionEvent) (entry : TransactionEvent) : Prop where
  /-- The engine has recorded an exit. -/
  recorded : engineExits rows ≠ []
  /-- The exits' commissions are what the multipliers and the exits only the daemon
      has recorded make of the profit. -/
  profits : ((exitFills rows).map fee).sum =
    direction entry.side *
      (((exitFills rows).map fun fill =>
          exitGain entry fill * (exitMultiplier rows entry fill - rowsMultiplier rows)).sum +
        rowsMultiplier rows * ((daemonExits rows).map fun fill => price fill * fill.filledQty).sum)
  /-- No other row of the daemon carries a commission. -/
  commissions : ((rows.filter (·.action = .reconciled)).map fee).sum =
    ((daemonExits rows).map fee).sum

-- ============================================================================
-- Booking one exit
-- ============================================================================

@[simp] theorem closeIf_realizedPnl (g : TradeGroup) (closed : Bool) :
    (g.closeIf closed).realizedPnl = g.realizedPnl := by cases closed <;> rfl

@[simp] theorem closeIf_totalCommission (g : TradeGroup) (closed : Bool) :
    (g.closeIf closed).totalCommission = g.totalCommission := by cases closed <;> rfl

/-- A row of an exit does not change the entry's. -/
theorem getEntryFill_insert {event : TransactionEvent} (h : event.legType ≠ .entry)
    (rows : List TransactionEvent) : getEntryFill (insert rows event) = getEntryFill rows := by
  have hleg : event.stored.legType ≠ .entry := h
  simp [getEntryFill, Data.insert, List.find?_append, hleg]

/-- What the engine adds to the profit for an exit. -/
def exitPnl (rows : List TransactionEvent) (entry fill : TransactionEvent) : ℚ :=
  exitGain entry fill * exitMultiplier rows entry fill * direction entry.side - fee fill

/-- A trade with one more exit booked. -/
structure BookedExit (t t' : Trade) (entry fill : TransactionEvent) (id : ℤ) : Prop where
  rows : ∃ event, t'.rows = insert t.rows event ∧ event.action = .filled ∧
    event.ibOrderId = some id ∧ event.legType = fill.legType
  realizedPnl : t'.group.realizedPnl = some (addTo t.group.realizedPnl (exitPnl t.rows entry fill))
  totalCommission : t'.group.totalCommission = some (addTo t.group.totalCommission (fee fill))

section BookExit

variable {t : Trade} {entry fill : TransactionEvent} {id : ℤ}

theorem exit_ne_entry {legType : LegType} (h : legType ∈ exitLegs) : legType ≠ .entry := by
  rintro rfl
  exact absurd h (by decide)

theorem bookExit_close (hid : fill.ibOrderId = some id) (hleg : fill.legType = .close)
    (hentry : getEntryFill t.rows = some entry) : BookedExit t (bookExit t fill) entry fill id := by
  set ctx := closeContextOf t.rows fill id with hctx
  set row := closeFillRow ctx fill.filledQty (price fill) (fee fill) with hrow
  have hbook : bookExit t fill =
      (handleCloseFill t ctx fill.filledQty (price fill) (fee fill)).trade := by
    simp only [bookExit, hid, hleg, if_true, hctx]
  have hsame : getEntryFill (insert t.rows row) = some entry := by
    rw [getEntryFill_insert LegType.noConfusion, hentry]
  have hpnl : closePnl ctx (insert t.rows row) fill.filledQty (price fill) (fee fill) =
      exitPnl t.rows entry fill := by
    simp only [closePnl, hsame]
    simp [exitPnl, exitGain, exitMultiplier, price, hleg, hid, CloseContext.multiplierOrOne, hctx,
      closeContextOf]
  rw [hbook]
  refine ⟨⟨row, rfl, rfl, rfl, hleg.symm⟩, ?_, ?_⟩
  · simp only [handleCloseFill, closeIf_realizedPnl, TradeGroup.updatePnl, ← hrow, hpnl]
    rfl
  · simp only [handleCloseFill, closeIf_totalCommission, TradeGroup.updatePnl]

theorem bookExit_resting (hid : fill.ibOrderId = some id)
    (hleg : fill.legType ∈ [LegType.profitTaker, .stopLoss])
    (hentry : getEntryFill t.rows = some entry) (hprice : entry.ibAvgFillPrice.isSome = true)
    (hplaced : HasPlacement t.rows id fill.legType)
    (hnone : ∀ u ∈ getFilledLegs t.rows, u.ibOrderId ≠ some id) :
    BookedExit t (bookExit t fill) entry fill id := by
  obtain ⟨placement, hplacement, hplacementleg⟩ := hplaced
  obtain ⟨entryPrice, hentryprice⟩ := Option.isSome_iff_exists.mp hprice
  obtain ⟨-, hplacementid⟩ := placementOf_some hplacement
  have hnotclose : fill.legType ≠ .close := by
    intro hclose
    rw [hclose] at hleg
    exact absurd hleg (by decide)
  have hnotfilled : (getFilledLegs t.rows).any (·.ibOrderId = some id) = false := by
    rw [List.any_eq_false]
    intro u hu
    simpa using hnone u hu
  set row := autonomousFillRow placement fill.filledQty (price fill) (fee fill) with hrow
  have hpnl : (price fill - entryPrice) * fill.filledQty *
      firstPositive [placement.multiplier, entry.multiplier] * direction entry.side - fee fill =
        exitPnl t.rows entry fill := by
    simp [exitPnl, exitGain, exitMultiplier, price, hentryprice, hnotclose, hid, hplacement]
  rw [← hplacementleg] at hleg
  obtain ⟨closed, hbook⟩ : ∃ closed, bookExit t fill = {
      rows := insert t.rows row
      group := (t.group.updatePnl (some (addTo t.group.realizedPnl (exitPnl t.rows entry fill)))
        (addTo t.group.totalCommission (fee fill))).closeIf closed } := by
    simp only [bookExit, hid, if_neg hnotclose, handleAutonomousCloseFill, hplacement, hentry,
      not_true_eq_false, hleg, if_false, hnotfilled, Bool.false_eq_true, hentryprice, hpnl, ← hrow]
    exact ⟨_, rfl⟩
  rw [hbook]
  refine ⟨⟨row, rfl, rfl, hplacementid, hplacementleg⟩, ?_, ?_⟩
  · rw [closeIf_realizedPnl]
    rfl
  · rw [closeIf_totalCommission]
    rfl

/-- An exit of an order the engine has no fill row of is booked. -/
theorem bookExit_spec (hid : fill.ibOrderId = some id) (hleg : fill.legType ∈ exitLegs)
    (hentry : getEntryFill t.rows = some entry) (hprice : entry.ibAvgFillPrice.isSome = true)
    (hplaced : HasPlacement t.rows id fill.legType)
    (hnone : ∀ u ∈ getFilledLegs t.rows, u.ibOrderId ≠ some id) :
    BookedExit t (bookExit t fill) entry fill id := by
  rcases List.mem_cons.mp hleg with hclose | hresting
  · exact bookExit_close hid hclose hentry
  · exact bookExit_resting hid hresting hentry hprice hplaced hnone

end BookExit

-- ============================================================================
-- Booking all exits
-- ============================================================================

/-- The exit can be booked: its order is placed, and has no fill row. -/
def Bookable (rows : List TransactionEvent) (fill : TransactionEvent) : Prop :=
  ∃ id, fill.ibOrderId = some id ∧ fill.legType ∈ exitLegs ∧
    HasPlacement rows id fill.legType ∧ ∀ u ∈ getFilledLegs rows, u.ibOrderId ≠ some id

theorem exitPnl_insert {rows : List TransactionEvent} {event : TransactionEvent}
    (h : event.action ≠ .placeAccepted) (entry fill : TransactionEvent) :
    exitPnl (insert rows event) entry fill = exitPnl rows entry fill := by
  have hplacement : fill.ibOrderId.bind (placementOf (insert rows event)) =
      fill.ibOrderId.bind (placementOf rows) := by
    cases fill.ibOrderId with
    | none => rfl
    | some id => exact placementOf_insert_of_ne (.inl h) rows
  simp only [exitPnl, exitMultiplier, hplacement]

/-- Booking another order's exit leaves this one bookable. -/
theorem Bookable.insert {rows : List TransactionEvent} {fill event : TransactionEvent}
    (h : Bookable rows fill) (haction : event.action = .filled)
    (hother : event.ibOrderId ≠ fill.ibOrderId) : Bookable (insert rows event) fill := by
  obtain ⟨id, hid, hleg, hplaced, hnone⟩ := h
  have hnotplacement : event.action ≠ .placeAccepted := by rw [haction]; decide
  have hfill : event.isFill = true := by simp [TransactionEvent.isFill, haction]
  refine ⟨id, hid, hleg, hplaced.add (.inl hnotplacement), ?_⟩
  rw [getFilledLegs_insert_of_fill hfill]
  intro u hu
  rcases List.mem_append.mp hu with hu | hu
  · exact hnone u hu
  · rw [List.mem_singleton.mp hu, ← hid]
    exact hother

/-- What all exits together make of the group. -/
structure BookedExits (t t' : Trade) (entry : TransactionEvent) (fills : List TransactionEvent) :
    Prop where
  realizedPnl : t'.group.realizedPnl.getD 0 =
    t.group.realizedPnl.getD 0 + (fills.map (exitPnl t.rows entry)).sum
  totalCommission : t'.group.totalCommission.getD 0 =
    t.group.totalCommission.getD 0 + (fills.map fee).sum
  written : fills ≠ [] →
    t'.group.realizedPnl.isSome = true ∧ t'.group.totalCommission.isSome = true

theorem bookExits_spec {entry : TransactionEvent} (hprice : entry.ibAvgFillPrice.isSome = true)
    (fills : List TransactionEvent) :
    ∀ {t : Trade}, getEntryFill t.rows = some entry → (∀ fill ∈ fills, Bookable t.rows fill) →
      (fills.map (·.ibOrderId)).Nodup → BookedExits t (fills.foldl bookExit t) entry fills := by
  induction fills with
  | nil =>
    intro t _ _ _
    exact ⟨by simp, by simp, fun h => absurd rfl h⟩
  | cons fill fills ih =>
    intro t hentry hbookable hnodup
    obtain ⟨hnotin, hnodup⟩ := List.nodup_cons.mp hnodup
    obtain ⟨id, hid, hleg, hplaced, hnone⟩ := hbookable fill List.mem_cons_self
    have hone := bookExit_spec hid hleg hentry hprice hplaced hnone
    obtain ⟨event, hrows, haction, heventid, heventleg⟩ := hone.rows
    have hnotplacement : event.action ≠ .placeAccepted := by rw [haction]; decide
    have hentry' : getEntryFill (bookExit t fill).rows = some entry := by
      rw [hrows, getEntryFill_insert, hentry]
      rw [heventleg]
      exact exit_ne_entry hleg
    have hbookable' : ∀ other ∈ fills, Bookable (bookExit t fill).rows other := by
      intro other hmem
      rw [hrows]
      refine (hbookable other (List.mem_cons_of_mem fill hmem)).insert haction fun heq => ?_
      refine hnotin (List.mem_map.mpr ⟨other, hmem, ?_⟩)
      exact heq.symm.trans (heventid.trans hid.symm)
    have hrest := ih hentry' hbookable' hnodup
    have hpnl : exitPnl (bookExit t fill).rows entry = exitPnl t.rows entry := by
      funext other
      rw [hrows, exitPnl_insert hnotplacement]
    refine ⟨?_, ?_, fun _ => ?_⟩
    · rw [List.foldl_cons, hrest.realizedPnl, hone.realizedPnl, hpnl, List.map_cons, List.sum_cons]
      simp only [Option.getD_some, addTo]
      ring
    · rw [List.foldl_cons, hrest.totalCommission, hone.totalCommission, List.map_cons,
        List.sum_cons]
      simp only [Option.getD_some, addTo]
      ring
    · cases fills with
      | nil => exact ⟨by simp [hone.realizedPnl], by simp [hone.totalCommission]⟩
      | cons other fills => exact hrest.written (List.cons_ne_nil other fills)

-- ============================================================================
-- The trade as it stood after its entry
-- ============================================================================

/-- The rows before the exits have the same entry. -/
theorem getEntryFill_beforeExits (rows : List TransactionEvent) :
    getEntryFill (rows.filter notAnExit) = getEntryFill rows := by
  have hentry : ∀ (action : TransactionAction) (t : TransactionEvent),
      notAnExit t = true ∧ t.legType = .entry ∧ t.action = action ↔
        t.legType = .entry ∧ t.action = action := by
    intro action t
    refine and_iff_right_of_imp fun h => ?_
    have hnot : t.legType ∉ exitLegs := by rw [h.1]; decide
    simp [notAnExit, hnot]
  simp only [getEntryFill, ← List.filter_reverse, List.find?_filter, decide_eq_true_eq, hentry]

theorem placementOf_beforeExits (rows : List TransactionEvent) (id : ℤ) :
    placementOf (rows.filter notAnExit) id = placementOf rows id := by
  have hplacement : ∀ t : TransactionEvent,
      notAnExit t = true ∧ t.ibOrderId = some id ∧ t.action = .placeAccepted ↔
        t.ibOrderId = some id ∧ t.action = .placeAccepted := by
    intro t
    refine and_iff_right_of_imp fun h => ?_
    simp [notAnExit, TransactionEvent.reportsFill, TransactionEvent.isFill, h.2]
  simp only [placementOf, ← List.filter_reverse, List.find?_filter, decide_eq_true_eq, hplacement]

/-- The rows before the exits hold no fill row of an exit. -/
theorem beforeExits_fill {rows : List TransactionEvent} {u : TransactionEvent}
    (hu : u ∈ getFilledLegs (rows.filter notAnExit)) :
    u ∈ rows ∧ u.legType ∉ exitLegs := by
  obtain ⟨hmem, hfill⟩ := List.mem_filter.mp hu
  obtain ⟨hrow, hbefore⟩ := List.mem_filter.mp hmem
  refine ⟨hrow, fun hleg => ?_⟩
  simp [notAnExit, TransactionEvent.reportsFill, hfill, hleg] at hbefore

theorem mem_daemonExits {rows : List TransactionEvent} {fill : TransactionEvent}
    (h : fill ∈ daemonExits rows) : fill ∈ rows ∧ fill.ibOrderId.isSome = true ∧
      fill.legType ∈ exitLegs ∧ ∀ u ∈ getFilledLegs rows, u.ibOrderId ≠ fill.ibOrderId := by
  have hmem := (getTradeLegSummary_sublist _).subset h
  obtain ⟨hrow, honly⟩ := List.mem_filter.mp hmem
  simp only [onlyDaemon, decide_eq_true_eq] at honly
  exact ⟨hrow, getTradeLegSummary_isSome h, honly.2.1, honly.2.2.2⟩

theorem mem_engineExits {rows : List TransactionEvent} {fill : TransactionEvent}
    (h : fill ∈ engineExits rows) : fill ∈ getFilledLegs rows ∧ fill.legType ∈ exitLegs := by
  obtain ⟨hfill, hleg⟩ := List.mem_filter.mp h
  exact ⟨hfill, of_decide_eq_true hleg⟩

section Filed

variable {h : History}

/-- Along a history every exit can be booked on the trade before its exits. -/
theorem exitFills_bookable (hf : Filed h) :
    ∀ fill ∈ exitFills h.trade.rows,
      Bookable (h.trade.rows.filter notAnExit) fill := by
  intro fill hfill
  have hexit : fill ∈ h.trade.rows ∧ fill.ibOrderId.isSome = true ∧ fill.legType ∈ exitLegs := by
    rcases List.mem_append.mp hfill with hfill | hfill
    · obtain ⟨hmem, hleg⟩ := mem_engineExits hfill
      obtain ⟨hrow, hisfill⟩ := List.mem_filter.mp hmem
      exact ⟨hrow, ((hf.carries fill hrow).priced hisfill).1, hleg⟩
    · obtain ⟨hrow, hid, hleg, -⟩ := mem_daemonExits hfill
      exact ⟨hrow, hid, hleg⟩
  obtain ⟨hrow, hsome, hleg⟩ := hexit
  obtain ⟨id, hid⟩ := Option.isSome_iff_exists.mp hsome
  obtain ⟨placement, hplacement, hplacementleg⟩ := hf.placed fill hrow id hid
  refine ⟨id, hid, hleg, ⟨placement, ?_, hplacementleg⟩, ?_⟩
  · rw [placementOf_beforeExits, hplacement]
  · -- a fill row of the order has the leg type of its placement row
    intro u hu huid
    obtain ⟨hurow, hunot⟩ := beforeExits_fill hu
    obtain ⟨placement', hplacement', hleg'⟩ := hf.placed u hurow id huid
    obtain rfl := Option.some.inj (hplacement.symm.trans hplacement')
    rw [← hleg', hplacementleg] at hunot
    exact hunot hleg

theorem exitFills_nodup (hb : Booked h) :
    ((exitFills h.trade.rows).map (·.ibOrderId)).Nodup := by
  rw [exitFills, List.map_append, List.nodup_append]
  refine ⟨?_, getTradeLegSummary_nodup _, ?_⟩
  · exact hb.orders_nodup.sublist (List.filter_sublist.map _)
  · rintro i hi j hj rfl
    obtain ⟨u, hu, rfl⟩ := List.mem_map.mp hi
    obtain ⟨fill, hfill, hid⟩ := List.mem_map.mp hj
    exact (mem_daemonExits hfill).2.2.2 u (mem_engineExits hu).1 hid.symm

end Filed

-- ============================================================================
-- The sums
-- ============================================================================

/-- Fill rows belong to the entry or to an exit. -/
theorem sum_fee_legs (legs : List TransactionEvent) :
    (legs.map fee).sum = ((legs.filter (·.legType = .entry)).map fee).sum +
      ((legs.filter (·.legType ∈ exitLegs)).map fee).sum := by
  induction legs with
  | nil => simp
  | cons t legs ih =>
    rw [List.map_cons, List.sum_cons, ih]
    cases hleg : t.legType <;> simp [hleg, exitLegs] <;> ring

/-- Only fill rows and the daemon's rows carry a commission. -/
theorem sum_fee_rows {rows : List TransactionEvent} (h : ∀ t ∈ rows, Carries t) :
    (rows.map fee).sum = ((getFilledLegs rows).map fee).sum +
      ((rows.filter (·.action = .reconciled)).map fee).sum := by
  induction rows with
  | nil => simp [getFilledLegs]
  | cons t rows ih =>
    have hrest := ih fun u hu => h u (List.mem_cons_of_mem t hu)
    unfold getFilledLegs at hrest ⊢
    rw [List.map_cons, List.sum_cons, hrest]
    cases hfill : t.isFill with
    | true =>
      have hnot : t.action ≠ .reconciled := by
        intro haction
        simp [TransactionEvent.isFill, haction] at hfill
      simp [hfill, hnot, add_assoc]
    | false =>
      by_cases haction : t.action = .reconciled
      · simp [hfill, haction]
        ring
      · have hnone : fee t = 0 := by
          rw [fee, (h t List.mem_cons_self).bare hfill haction]
          rfl
        simp [hfill, haction, hnone]

theorem daemonCommission_eq {rows : List TransactionEvent} {entry : TransactionEvent}
    (h : ∀ t ∈ rows, Carries t) (hentries : entryFills rows = [entry]) :
    daemonCommission rows = fee entry + ((engineExits rows).map fee).sum +
      ((rows.filter (·.action = .reconciled)).map fee).sum := by
  have hlegs := sum_fee_legs (getFilledLegs rows)
  unfold entryFills at hentries
  rw [hentries, List.map_singleton, List.sum_singleton] at hlegs
  change (rows.map fee).sum = _
  rw [sum_fee_rows h, hlegs, engineExits]

/-- The profit the daemon makes of the entry and the exits the engine has recorded. -/
def daemonProfit (rows : List TransactionEvent) (entry : TransactionEvent) : ℚ :=
  (((engineExits rows).map fun fill => price fill * fill.filledQty).sum -
    price entry * entry.filledQty) * rowsMultiplier rows * direction entry.side

theorem daemonPnl_eq {rows : List TransactionEvent} {entry : TransactionEvent}
    (hentries : entryFills rows = [entry]) (hexits : engineExits rows ≠ []) :
    daemonPnl rows = some (daemonProfit rows entry) := by
  have hvalue : filledValue [.entry] rows = price entry * entry.filledQty := by
    have hsame : (getFilledLegs rows).filter (·.legType ∈ [LegType.entry]) = entryFills rows := by
      simp [entryFills]
    rw [filledValue, hsame, hentries, List.map_singleton, List.sum_singleton]
    rfl
  unfold entryFills at hentries
  unfold engineExits at hexits
  have hsome : ((getFilledLegs rows).filter (·.legType ∈ exitLegs)).isEmpty = false := by
    rw [List.isEmpty_eq_false_iff]
    exact hexits
  simp only [daemonPnl, hentries, List.getLast?_singleton, hsome, Bool.false_eq_true, if_false,
    hvalue]
  rfl

theorem daemonAccounts_eq {t : Trade} {entry : TransactionEvent}
    (hclosed : (maybeCloseTradeGroup t).closed = true) (hentries : entryFills t.rows = [entry])
    (hexits : engineExits t.rows ≠ []) :
    daemonAccounts t = some (daemonProfit t.rows entry, daemonCommission t.rows) := by
  rw [daemonAccounts, if_pos hclosed, daemonPnl_eq hentries hexits, Option.map_some]

/-- Without an exit the engine has recorded the daemon writes nothing. -/
theorem daemonAccounts_eq_none {t : Trade} {entry : TransactionEvent}
    (hentries : entryFills t.rows = [entry]) (hexits : engineExits t.rows = []) :
    daemonAccounts t = none := by
  have hnone : daemonPnl t.rows = none := by
    unfold engineExits at hexits
    unfold entryFills at hentries
    simp [daemonPnl, hentries, hexits]
  rw [daemonAccounts, hnone]
  split <;> rfl

/-- The engine's profit, multiplier by multiplier. -/
theorem sum_exitPnl (rows : List TransactionEvent) (entry : TransactionEvent)
    (fills : List TransactionEvent) :
    (fills.map (exitPnl rows entry)).sum =
      direction entry.side *
        (fills.map fun fill => exitGain entry fill * exitMultiplier rows entry fill).sum -
      (fills.map fee).sum := by
  induction fills with
  | nil => simp
  | cons fill fills ih =>
    simp only [List.map_cons, List.sum_cons, ih, exitPnl]
    ring

theorem sum_exitGain (entry : TransactionEvent) (fills : List TransactionEvent) :
    (fills.map (exitGain entry)).sum =
      (fills.map fun fill => price fill * fill.filledQty).sum -
        price entry * (fills.map (·.filledQty)).sum := by
  induction fills with
  | nil => simp
  | cons fill fills ih =>
    simp only [List.map_cons, List.sum_cons, ih, exitGain]
    ring

/-- How far the multipliers of the exits are off the one the daemon takes. -/
theorem sum_multipliers (rows : List TransactionEvent) (entry : TransactionEvent)
    (fills : List TransactionEvent) :
    (fills.map fun fill =>
        exitGain entry fill * (exitMultiplier rows entry fill - rowsMultiplier rows)).sum =
      (fills.map fun fill => exitGain entry fill * exitMultiplier rows entry fill).sum -
        (fills.map (exitGain entry)).sum * rowsMultiplier rows := by
  induction fills with
  | nil => simp
  | cons fill fills ih =>
    simp only [List.map_cons, List.sum_cons, ih]
    ring

-- ============================================================================
-- The two accountings over every history
-- ============================================================================

/-- The engine's accounts of a history's exits. -/
theorem engineAccounts_eq {h : History} (hb : Booked h) (hf : Filed h) {entry : TransactionEvent}
    (hentry : getEntryFill h.trade.rows = some entry) (hexits : exitFills h.trade.rows ≠ []) :
    (engineAccounts h.trade.rows entry).realizedPnl =
        some (((exitFills h.trade.rows).map (exitPnl h.trade.rows entry)).sum) ∧
      (engineAccounts h.trade.rows entry).totalCommission =
        some (fee entry + ((exitFills h.trade.rows).map fee).sum) := by
  obtain ⟨hfill, -⟩ := getEntryFill_some hentry
  obtain ⟨hrow, hisfill⟩ := List.mem_filter.mp hfill
  have hprice := ((hf.carries entry hrow).priced hisfill).2
  have hbooked := bookExits_spec hprice (exitFills h.trade.rows)
    (t := entryBooked h.trade.rows entry) ((getEntryFill_beforeExits _).trans hentry)
    (exitFills_bookable hf) (exitFills_nodup hb)
  have hpnl : exitPnl (h.trade.rows.filter notAnExit) entry = exitPnl h.trade.rows entry := by
    funext fill
    simp only [exitPnl, exitMultiplier, funext (placementOf_beforeExits h.trade.rows)]
  obtain ⟨hsomepnl, hsomecommission⟩ := hbooked.written hexits
  obtain ⟨pnl, hwrittenpnl⟩ := Option.isSome_iff_exists.mp hsomepnl
  obtain ⟨commission, hwrittencommission⟩ := Option.isSome_iff_exists.mp hsomecommission
  constructor
  · have hsum := hbooked.realizedPnl
    rw [hwrittenpnl] at hsum
    simp only [entryBooked, TradeGroup.updatePnl, hpnl, Option.getD_some, Option.or_none,
      Option.getD_none, zero_add] at hsum
    rw [← hsum]
    exact hwrittenpnl
  · have hsum := hbooked.totalCommission
    rw [hwrittencommission] at hsum
    simp only [entryBooked, TradeGroup.updatePnl, Option.getD_some] at hsum
    rw [← hsum]
    exact hwrittencommission

section Agreement

variable {rows : List TransactionEvent} {entry : TransactionEvent}

/-- The profits are the same exactly if the multipliers and the daemon's own rows make
    up for the commissions of the exits. -/
theorem profits_eq_iff
    (hfull : ((exitFills rows).map (·.filledQty)).sum = entry.filledQty) :
    ((exitFills rows).map (exitPnl rows entry)).sum = daemonProfit rows entry ↔
      ((exitFills rows).map fee).sum =
        direction entry.side *
          (((exitFills rows).map fun fill =>
              exitGain entry fill * (exitMultiplier rows entry fill - rowsMultiplier rows)).sum +
            rowsMultiplier rows *
              ((daemonExits rows).map fun fill => price fill * fill.filledQty).sum) := by
  have hvalue : ((exitFills rows).map fun fill => price fill * fill.filledQty).sum =
      ((engineExits rows).map fun fill => price fill * fill.filledQty).sum +
        ((daemonExits rows).map fun fill => price fill * fill.filledQty).sum := by
    rw [exitFills, List.map_append, List.sum_append]
  have hgain := sum_exitGain entry (exitFills rows)
  rw [hfull, hvalue] at hgain
  have hsum := sum_exitPnl rows entry (exitFills rows)
  rw [sum_multipliers rows entry (exitFills rows), hgain, daemonProfit]
  constructor
  · intro hagree
    linear_combination hsum - hagree
  · intro hprofits
    linear_combination hsum - hprofits

theorem commissions_eq_iff (hcarries : ∀ t ∈ rows, Carries t) (hentries : entryFills rows = [entry]) :
    fee entry + ((exitFills rows).map fee).sum = daemonCommission rows ↔
      ((rows.filter (·.action = .reconciled)).map fee).sum = ((daemonExits rows).map fee).sum := by
  have hfees : ((exitFills rows).map fee).sum =
      ((engineExits rows).map fee).sum + ((daemonExits rows).map fee).sum := by
    rw [exitFills, List.map_append, List.sum_append]
  rw [hfees, daemonCommission_eq hcarries hentries]
  constructor
  · intro hagree
    linarith
  · intro hcommissions
    linarith

end Agreement

/-- Ten are bought at 100 with a commission of 1, and a close sells them at 110. -/
def soldAtProfit (exitCommission : ℚ) : List Op :=
  [.entryPlaced 1 .buy 10 none, .entryFilled 1 10 100 1 [], .closeSampled, .closePlaced ⟨.sell, 10, 0⟩ 2 none,
    .closeFilled 2 10 110 exitCommission]

/-- The row of its entry. -/
def boughtTen : TransactionEvent where
  action := .filled
  ibOrderId := some 1
  legType := .entry
  side := .buy
  quantity := 10
  ibFilledQty := some 10
  ibAvgFillPrice := some 100
  commission := some 1
  isTerminal := true

end IbTrader.Engine.Closing
