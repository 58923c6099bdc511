/-
  IbTrader.Engine.ClosePnl

  The profit and the commission on the group of a trade are sums over its exits.

  `_handle_fill` and `_handle_partial` put the entry's commission on the group.
  Every later handler reads what is there, adds its own exit and writes the sum
  back, with no await in between and through the one session of the process, so
  no update is lost.  One op adds the exit it records (`Totalled.step`); along a
  history in which the daemon does not close the group, the group carries the sums
  (`totalled_run`), whichever way the exits were split over fills and close
  commands (`closePnl_additive`).
-/

import IbTrader.Engine.Accounting
import IbTrader.Lib.Executions

namespace IbTrader.Engine.Closing

open Lib Data

-- ============================================================================
-- The sums
-- ============================================================================

/-- The op is the engine's. -/
def Op.byEngine : Op → Bool
  | .reconciled .. => false
  | _ => true

/-- The group carries the entry's commission and what the exits add to it. -/
structure GroupTotals (t : Trade) (entry : TransactionEvent) : Prop where
  realizedPnl : t.group.realizedPnl.getD 0 = ((engineExits t.rows).map (exitPnl t.rows entry)).sum
  totalCommission : t.group.totalCommission =
    some (fee entry + ((engineExits t.rows).map fee).sum)
  written : engineExits t.rows ≠ [] → t.group.realizedPnl.isSome = true

/-- What holds of the group along a history of the engine. -/
structure Totalled (h : History) : Prop where
  /-- Before the entry has filled there is nothing to add up. -/
  unopened : getEntryFill h.trade.rows = none →
    engineExits h.trade.rows = [] ∧ h.trade.group.realizedPnl = none
  opened : ∀ entry, getEntryFill h.trade.rows = some entry → GroupTotals h.trade entry
  /-- A trade is closed once its entry has filled. -/
  sampled : h.sampled ≠ [] → (getEntryFill h.trade.rows).isSome = true
  closing : ∀ p ∈ h.pending, p.kind = .close → (getEntryFill h.trade.rows).isSome = true
  /-- The multiplier of a coroutine's order is on its placement row. -/
  multiplier : ∀ p ∈ h.pending, ∀ placement, placementOf h.trade.rows p.ibOrderId = some placement →
    placement.multiplier = p.multiplier

theorem Totalled.start : Totalled {} where
  unopened := fun _ => ⟨rfl, rfl⟩
  opened := fun _ hentry => by cases hentry
  sampled := fun hne => absurd rfl hne
  closing := fun _ hp => absurd hp List.not_mem_nil
  multiplier := fun _ hp => absurd hp List.not_mem_nil

-- ============================================================================
-- Rows that record no exit
-- ============================================================================

theorem getEntryFill_insert_of_not_fill {event : TransactionEvent} (h : event.isFill = false)
    (rows : List TransactionEvent) : getEntryFill (insert rows event) = getEntryFill rows := by
  have haction : event.stored.action ≠ .filled ∧ event.stored.action ≠ .partialFill := by
    simpa [TransactionEvent.isFill, TransactionEvent.stored] using h
  simp [getEntryFill, Data.insert, List.find?_append, haction]

theorem engineExits_insert_of_not_fill {event : TransactionEvent} (h : event.isFill = false)
    (rows : List TransactionEvent) : engineExits (insert rows event) = engineExits rows := by
  rw [engineExits, getFilledLegs_insert_of_not_fill h, engineExits]

theorem engineExits_insert {event : TransactionEvent} (hfill : event.isFill = true)
    (hleg : event.legType ∈ exitLegs) (rows : List TransactionEvent) :
    engineExits (insert rows event) = engineExits rows ++ [event.stored] := by
  have hrow : event.stored.legType ∈ exitLegs := hleg
  rw [engineExits, getFilledLegs_insert_of_fill hfill, List.filter_append, engineExits]
  simp [hrow]

theorem mem_rows_of_engineExits {rows : List TransactionEvent} {fill : TransactionEvent}
    (h : fill ∈ engineExits rows) : fill ∈ rows :=
  List.mem_of_mem_filter (mem_engineExits h).1

/-- The row is no placement row of an order that has rows. -/
def NewPlacement (rows : List TransactionEvent) (event : TransactionEvent) : Prop :=
  event.action ≠ .placeAccepted ∨ ∀ t ∈ rows, t.ibOrderId ≠ event.ibOrderId

/-- The profit of an exit that is in the rows stays the same. -/
theorem exitPnl_insert_of_new {rows : List TransactionEvent} {event fill : TransactionEvent}
    (hnew : NewPlacement rows event) (hfill : fill ∈ rows) (entry : TransactionEvent) :
    exitPnl (insert rows event) entry fill = exitPnl rows entry fill := by
  have hplacement : fill.ibOrderId.bind (placementOf (insert rows event)) =
      fill.ibOrderId.bind (placementOf rows) := by
    cases hid : fill.ibOrderId with
    | none => rfl
    | some id =>
      refine placementOf_insert_of_ne (hnew.imp_right fun hother heq => ?_) rows
      exact hother fill hfill (hid.trans heq.symm)
  simp only [exitPnl, exitMultiplier, hplacement]

theorem map_exitPnl_insert {rows : List TransactionEvent} {event : TransactionEvent}
    (hnew : NewPlacement rows event) (entry : TransactionEvent) :
    (engineExits rows).map (exitPnl (insert rows event) entry) =
      (engineExits rows).map (exitPnl rows entry) :=
  List.map_congr_left fun _ hfill => exitPnl_insert_of_new hnew (mem_rows_of_engineExits hfill) entry

theorem GroupTotals.note {t : Trade} {entry event : TransactionEvent} (ht : GroupTotals t entry)
    (hfill : event.isFill = false) (hnew : NewPlacement t.rows event) :
    GroupTotals { t with rows := insert t.rows event } entry := by
  have hexits := engineExits_insert_of_not_fill hfill t.rows
  refine ⟨?_, ?_, ?_⟩
  · show t.group.realizedPnl.getD 0 = _
    rw [hexits, map_exitPnl_insert hnew]
    exact ht.realizedPnl
  · rw [hexits]
    exact ht.totalCommission
  · rw [hexits]
    exact ht.written

/-- A row that records no fill. -/
theorem Totalled.note {h : History} (ht : Totalled h) {event : TransactionEvent}
    (hfill : event.isFill = false) (hnew : NewPlacement h.trade.rows event)
    (hpending : event.action ≠ .placeAccepted ∨
      ∀ p ∈ h.pending, event.ibOrderId ≠ some p.ibOrderId) : Totalled (h.write event) := by
  have hentry := getEntryFill_insert_of_not_fill hfill h.trade.rows
  have hexits := engineExits_insert_of_not_fill hfill h.trade.rows
  refine ⟨?_, ?_, ?_, ?_, ?_⟩
  · rw [History.write, hentry, hexits]
    exact ht.unopened
  · intro entry hopened
    rw [History.write, hentry] at hopened
    exact (ht.opened entry hopened).note hfill hnew
  · rw [History.write, hentry]
    exact ht.sampled
  · rw [History.write, hentry]
    exact ht.closing
  · intro p hp placement hplacement
    rw [History.write,
      placementOf_insert_of_ne (hpending.imp_right fun hother => hother p hp)] at hplacement
    exact ht.multiplier p hp placement hplacement

/-- Fewer coroutines wait, and fewer have read the trade. -/
theorem Totalled.drop {h : History} (ht : Totalled h) {pending : List Pending}
    {sampled : List Sample} (hpending : pending ⊆ h.pending) (hsampled : sampled ⊆ h.sampled) :
    Totalled { h with pending, sampled } where
  unopened := ht.unopened
  opened := ht.opened
  sampled := fun hne => ht.sampled fun hnil => hne (List.eq_nil_of_subset_nil (hnil ▸ hsampled))
  closing := fun p hp => ht.closing p (hpending hp)
  multiplier := fun p hp => ht.multiplier p (hpending hp)

theorem Totalled.finish {h : History} (ht : Totalled h) (id : ℤ) : Totalled (h.finish id) :=
  ht.drop (List.filter_subset_self h.pending) (List.Subset.refl _)

/-- Placing a fresh order. -/
theorem Totalled.place {h : History} (ht : Totalled h) {id : ℤ} (hfresh : h.IsFresh id)
    (legType : LegType) (side : Side) (qty : ℚ) (multiplier : Option ℚ) :
    Totalled (h.place id legType side qty multiplier) := by
  refine (ht.note rfl (.inl ?_) (.inl ?_)).note rfl (.inr ?_) (.inr ?_)
  · exact TransactionAction.noConfusion
  · exact TransactionAction.noConfusion
  · intro t hrow
    rcases List.mem_append.mp hrow with hrow | hrow
    · exact hfresh.1 t hrow
    · rw [List.mem_singleton.mp hrow]
      exact fun hid => by cases hid
  · intro p hp hid
    exact hfresh.2 p hp (Option.some.inj hid).symm

theorem Totalled.placeExits {h : History} (ht : Totalled h) {side : Side} {qty : ℚ}
    (legs : List ExitLeg) : Totalled (h.placeExits side qty legs) := by
  induction legs generalizing h with
  | nil => exact ht
  | cons leg legs ih =>
    unfold History.placeExits
    split
    case isTrue hfresh =>
      exact ih (ht.place hfresh leg.kind.legType side.opposite qty leg.multiplier)
    case isFalse => exact ih ht

/-- The placement row of an order just placed. -/
theorem placementOf_place (h : History) (id : ℤ) (legType : LegType) (side : Side) (qty : ℚ)
    (multiplier : Option ℚ) :
    placementOf (h.place id legType side qty multiplier).trade.rows id =
      some (placementRow .placeAccepted (some id) legType side qty multiplier).stored := by
  show placementOf (Data.insert _ _) id = _
  rw [placementOf_insert, if_pos ⟨rfl, rfl⟩]

/-- A coroutine waits on the order it has placed. -/
theorem Totalled.await {h : History} (ht : Totalled h) {p : Pending}
    (hplaced : ∀ placement, placementOf h.trade.rows p.ibOrderId = some placement →
      placement.multiplier = p.multiplier)
    (hopen : p.kind = .close → (getEntryFill h.trade.rows).isSome = true)
    {pending : List Pending} {sampled : List Sample} (hpending : pending ⊆ h.pending)
    (hsampled : sampled ⊆ h.sampled) : Totalled { h with sampled, pending := p :: pending } := by
  have hdrop := ht.drop hpending hsampled
  refine ⟨hdrop.unopened, hdrop.opened, hdrop.sampled, ?_, ?_⟩
  · intro q hq
    rcases List.mem_cons.mp hq with rfl | hq
    · exact hopen
    · exact hdrop.closing q hq
  · intro q hq
    rcases List.mem_cons.mp hq with rfl | hq
    · exact hplaced
    · exact hdrop.multiplier q hq

-- ============================================================================
-- The entry's fill
-- ============================================================================

theorem getEntryFill_eq_none_of_entryFills {rows : List TransactionEvent}
    (h : entryFills rows = []) : getEntryFill rows = none := by
  cases hentry : getEntryFill rows with
  | none => rfl
  | some entry =>
    obtain ⟨hfill, hleg⟩ := getEntryFill_some hentry
    have hmem : entry ∈ entryFills rows := List.mem_filter.mpr ⟨hfill, by simpa using hleg⟩
    rw [h] at hmem
    exact absurd hmem List.not_mem_nil

/-- The entry's row is the entry fill from then on. -/
theorem getEntryFill_insert_entry {rows : List TransactionEvent} (hnone : getEntryFill rows = none)
    {event : TransactionEvent} (hleg : event.legType = .entry) (hfill : event.isFill = true) :
    getEntryFill (insert rows event) = some event.stored := by
  obtain ⟨hfilled, hpartial⟩ := Option.or_eq_none_iff.mp hnone
  have hlegType : event.stored.legType = .entry := hleg
  have haction : event.stored.action = .filled ∨ event.stored.action = .partialFill := by
    simpa [TransactionEvent.isFill, TransactionEvent.stored] using hfill
  unfold getEntryFill Data.insert
  rw [List.find?_append, hfilled, List.reverse_append, List.find?_append, hpartial]
  rcases haction with haction | haction <;> simp [hlegType, haction]

/-- With its entry recorded a trade has its commission and no profit. -/
theorem groupTotals_entry {t : Trade} {entry : TransactionEvent} {rows : List TransactionEvent}
    {commission : ℚ} (hexits : engineExits rows = []) (hpnl : t.group.realizedPnl = none)
    (hfee : fee entry = commission) :
    GroupTotals { rows, group := t.group.updatePnl none commission } entry := by
  refine ⟨?_, ?_, fun hne => absurd hexits hne⟩
  · dsimp only
    rw [hexits, TradeGroup.updatePnl, hpnl]
    rfl
  · dsimp only
    rw [hexits, TradeGroup.updatePnl, hfee, List.map_nil, List.sum_nil, add_zero]

theorem Totalled.recordEntry {h : History} (ht : Totalled h) (hb : Booked h) {p : Pending}
    (hp : p ∈ h.pending) (hkind : p.kind = .entry) {action : TransactionAction}
    (haction : action ∈ [TransactionAction.filled, .partialFill]) (qty avgPrice commission : ℚ)
    (exits : List ExitLeg) : Totalled (h.recordEntry p action qty avgPrice commission exits) := by
  set row := entryFillRow p action qty avgPrice commission with hrow
  have hfill : row.isFill = true := entryFillRow_isFill p haction qty avgPrice commission
  have hnotplacement : row.action ≠ .placeAccepted := by
    show action ≠ _
    rintro rfl
    exact absurd haction (by decide)
  have hnone := getEntryFill_eq_none_of_entryFills (hb.pending_entry p hp hkind).1
  obtain ⟨hexits, hpnl⟩ := ht.unopened hnone
  have hentry : getEntryFill (insert h.trade.rows row) = some row.stored :=
    getEntryFill_insert_entry hnone rfl hfill
  have hstill : engineExits (insert h.trade.rows row) = [] := by
    have hleg : row.stored.legType ∉ exitLegs := by
      show LegType.entry ∉ exitLegs
      decide
    unfold engineExits at hexits ⊢
    rw [getFilledLegs_insert_of_fill hfill, List.filter_append, hexits]
    simp [hleg]
  refine Totalled.placeExits (Totalled.finish ⟨?_, ?_, ?_, ?_, ?_⟩ _) exits
  · intro hunopened
    cases hentry.symm.trans hunopened
  · intro entry hopened
    obtain rfl := Option.some.inj (hentry.symm.trans hopened)
    exact groupTotals_entry hstill hpnl rfl
  · intro _
    exact Option.isSome_iff_exists.mpr ⟨_, hentry⟩
  · intro _ _ _
    exact Option.isSome_iff_exists.mpr ⟨_, hentry⟩
  · intro q hq placement hplacement
    refine ht.multiplier q hq placement ?_
    rw [← hplacement]
    exact (placementOf_insert_of_ne (.inl hnotplacement) h.trade.rows).symm

-- ============================================================================
-- One exit
-- ============================================================================

/-- A trade with one more exit, added to its group. -/
structure AddsExit (t t' : Trade) (entry row : TransactionEvent) : Prop where
  rows : t'.rows = insert t.rows row
  fill : row.action = .filled ∨ row.action = .partialFill
  exit : row.legType ∈ exitLegs
  realizedPnl : t'.group.realizedPnl = some (addTo t.group.realizedPnl (exitPnl t.rows entry row))
  totalCommission : t'.group.totalCommission = some (addTo t.group.totalCommission (fee row))

section AddsExit

variable {t t' : Trade} {entry row : TransactionEvent}

theorem AddsExit.isFill (ha : AddsExit t t' entry row) : row.isFill = true := by
  simpa [TransactionEvent.isFill] using ha.fill

theorem AddsExit.notPlacement (ha : AddsExit t t' entry row) : row.action ≠ .placeAccepted := by
  rcases ha.fill with haction | haction <;> rw [haction] <;> decide

theorem GroupTotals.exit (ht : GroupTotals t entry) (ha : AddsExit t t' entry row) :
    GroupTotals t' entry := by
  have hexits : engineExits t'.rows = engineExits t.rows ++ [row.stored] := by
    rw [ha.rows, engineExits_insert ha.isFill ha.exit]
  have hsame : ∀ fill, exitPnl t'.rows entry fill = exitPnl t.rows entry fill := by
    intro fill
    rw [ha.rows, exitPnl_insert ha.notPlacement]
  refine ⟨?_, ?_, fun _ => ?_⟩
  · have hstored : exitPnl t.rows entry row.stored = exitPnl t.rows entry row := rfl
    rw [ha.realizedPnl, hexits, funext hsame, List.map_append, List.sum_append, List.map_singleton,
      List.sum_singleton, hstored, ← ht.realizedPnl]
    rfl
  · have hstored : fee row.stored = fee row := rfl
    rw [ha.totalCommission, hexits, List.map_append, List.sum_append, List.map_singleton,
      List.sum_singleton, hstored, ht.totalCommission, addTo, Option.getD_some, add_assoc]
  · rw [ha.realizedPnl]
    rfl

end AddsExit

/-- The profit a close handler computes is that of the row it has written. -/
theorem closePnl_eq {rows : List TransactionEvent} {entry row placement : TransactionEvent}
    {ctx : CloseContext} {qty avgPrice commission : ℚ} (hentry : getEntryFill rows = some entry)
    (hplacement : placementOf rows ctx.ibOrderId = some placement)
    (hmultiplier : placement.multiplier = ctx.multiplier)
    (hrow : row ∈ [closeFillRow ctx qty avgPrice commission,
      closePartialRow ctx qty avgPrice commission]) :
    closePnl ctx (insert rows row) qty avgPrice commission = exitPnl rows entry row := by
  have hfields : row.legType = .close ∧ row.ibOrderId = some ctx.ibOrderId ∧
      row.ibFilledQty = some qty ∧ row.ibAvgFillPrice = some avgPrice ∧
      row.commission = some commission := by
    rcases List.mem_cons.mp hrow with rfl | hrow
    · exact ⟨rfl, rfl, rfl, rfl, rfl⟩
    · rw [List.mem_singleton.mp hrow]
      exact ⟨rfl, rfl, rfl, rfl, rfl⟩
  obtain ⟨hleg, hid, hqty, hprice, hcommission⟩ := hfields
  have hsame : getEntryFill (insert rows row) = some entry := by
    rw [getEntryFill_insert (by rw [hleg]; decide), hentry]
  simp only [closePnl, hsame, exitPnl, exitGain, exitMultiplier, price, fee,
    TransactionEvent.filledQty, hleg, hid, hqty, hprice, hcommission, Option.bind_some, hplacement,
    hmultiplier, if_true, Option.getD_some, Option.map_some, CloseContext.multiplierOrOne]

section Handlers

variable {t : Trade} {entry placement : TransactionEvent} {ctx : CloseContext}

/-- `_handle_close_fill` adds its exit. -/
theorem handleCloseFill_addsExit (hentry : getEntryFill t.rows = some entry)
    (hplacement : placementOf t.rows ctx.ibOrderId = some placement)
    (hmultiplier : placement.multiplier = ctx.multiplier) (qty avgPrice commission : ℚ) :
    AddsExit t (handleCloseFill t ctx qty avgPrice commission).trade entry
      (closeFillRow ctx qty avgPrice commission) := by
  have hpnl : closePnl ctx (insert t.rows (closeFillRow ctx qty avgPrice commission)) qty avgPrice
      commission = exitPnl t.rows entry (closeFillRow ctx qty avgPrice commission) :=
    closePnl_eq hentry hplacement hmultiplier List.mem_cons_self
  refine ⟨rfl, .inl rfl, by show LegType.close ∈ exitLegs; decide, ?_, ?_⟩
  · simp only [handleCloseFill, closeIf_realizedPnl, TradeGroup.updatePnl, hpnl]
    rfl
  · simp only [handleCloseFill, closeIf_totalCommission, TradeGroup.updatePnl]
    rfl

theorem recordClosePartial_addsExit (hentry : getEntryFill t.rows = some entry)
    (hplacement : placementOf t.rows ctx.ibOrderId = some placement)
    (hmultiplier : placement.multiplier = ctx.multiplier) (qty avgPrice commission : ℚ) :
    AddsExit t (recordClosePartial t ctx qty avgPrice commission).trade entry
      (closePartialRow ctx qty avgPrice commission) := by
  have hpnl : closePnl ctx (insert t.rows (closePartialRow ctx qty avgPrice commission)) qty
      avgPrice commission = exitPnl t.rows entry (closePartialRow ctx qty avgPrice commission) :=
    closePnl_eq hentry hplacement hmultiplier (List.mem_cons_of_mem _ List.mem_cons_self)
  refine ⟨rfl, .inr rfl, by show LegType.close ∈ exitLegs; decide, ?_, ?_⟩
  · simp only [recordClosePartial, TradeGroup.updatePnl, hpnl]
    rfl
  · simp only [recordClosePartial, TradeGroup.updatePnl]
    rfl

/-- `handle_autonomous_close_fill` adds its exit. -/
theorem handleAutonomousCloseFill_addsExit {id : ℤ} {qty avgPrice commission : ℚ}
    {recorded : Recorded}
    (h : handleAutonomousCloseFill t id qty avgPrice commission = some recorded)
    (hentry : getEntryFill t.rows = some entry) (hprice : entry.ibAvgFillPrice.isSome = true) :
    ∃ row, AddsExit t recorded.trade entry row := by
  obtain ⟨placement, -, hplacement, hleg, hnone, -, hrows, -, -⟩ := handleAutonomousCloseFill_some h
  obtain ⟨-, hid⟩ := placementOf_some hplacement
  set row := autonomousFillRow placement qty avgPrice commission with hrow
  have hrowleg : row.legType ∈ [LegType.profitTaker, .stopLoss] := hleg
  have hbooked : BookedExit t (bookExit t row) entry row id :=
    bookExit_resting hid hrowleg hentry hprice ⟨placement, hplacement, rfl⟩ hnone
  have hnotclose : row.legType ≠ .close := by
    intro hclose
    rw [hclose] at hrowleg
    exact absurd hrowleg (by decide)
  have htrade : bookExit t row = recorded.trade := by
    have hid' : row.ibOrderId = some id := hid
    simp only [bookExit, hid', if_neg hnotclose]
    have hargs : handleAutonomousCloseFill t id row.filledQty (price row) (fee row) =
        some recorded := h
    rw [hargs]
  rw [htrade] at hbooked
  refine ⟨row, hrows, .inl rfl, List.mem_cons_of_mem _ hrowleg, ?_, ?_⟩
  · exact hbooked.realizedPnl
  · exact hbooked.totalCommission

end Handlers

-- ============================================================================
-- Along every history
-- ============================================================================

/-- A trade with one more exit. -/
theorem Totalled.exit {h : History} (ht : Totalled h) {t' : Trade} {entry row : TransactionEvent}
    (hentry : getEntryFill h.trade.rows = some entry) (ha : AddsExit h.trade t' entry row) :
    Totalled (h.withTrade t') := by
  have hsame : getEntryFill t'.rows = some entry := by
    rw [ha.rows, getEntryFill_insert (exit_ne_entry ha.exit), hentry]
  have hopen : (getEntryFill t'.rows).isSome = true := by rw [hsame]; rfl
  refine ⟨?_, ?_, fun _ => hopen, fun _ _ _ => hopen, ?_⟩
  · intro hunopened
    cases hsame.symm.trans hunopened
  · intro entry' hentry'
    obtain rfl := Option.some.inj (hsame.symm.trans hentry')
    exact (ht.opened entry hentry).exit ha
  · intro p hp placement hplacement
    refine ht.multiplier p hp placement ?_
    rw [← hplacement, History.withTrade, ha.rows]
    exact (placementOf_insert_of_ne (.inl ha.notPlacement) h.trade.rows).symm

/-- What the handler of a close finds. -/
theorem Totalled.context {h : History} (ht : Totalled h) (hf : Filed h) {p : Pending}
    (hp : p ∈ h.pending) (hkind : p.kind = .close) :
    ∃ entry placement, getEntryFill h.trade.rows = some entry ∧
      placementOf h.trade.rows p.ibOrderId = some placement ∧
      placement.multiplier = p.multiplier := by
  obtain ⟨entry, hentry⟩ := Option.isSome_iff_exists.mp (ht.closing p hp hkind)
  obtain ⟨placement, hplacement, -⟩ := hf.awaited p hp
  exact ⟨entry, placement, hentry, hplacement, ht.multiplier p hp placement hplacement⟩

theorem Totalled.closeFill {h : History} (ht : Totalled h) (hf : Filed h) {p : Pending}
    (hp : p ∈ h.pending) (hkind : p.kind = .close) (qty avgPrice commission : ℚ) :
    Totalled (h.withTrade
      (handleCloseFill h.trade p.toCloseContext qty avgPrice commission).trade) := by
  obtain ⟨entry, placement, hentry, hplacement, hmultiplier⟩ := ht.context hf hp hkind
  exact ht.exit hentry (handleCloseFill_addsExit hentry hplacement hmultiplier qty avgPrice commission)

theorem Totalled.closePartial {h : History} (ht : Totalled h) (hf : Filed h) {p : Pending}
    (hp : p ∈ h.pending) (hkind : p.kind = .close) (qty avgPrice commission : ℚ) (s : Settlement) :
    Totalled (h.withTrade
      (handleClosePartial h.trade p.toCloseContext qty avgPrice commission s).trade) := by
  set attempt := cancelAttemptRow p.toCloseContext with hattempt
  have hnoted : Totalled (h.write attempt) :=
    ht.note rfl (.inl TransactionAction.noConfusion) (.inl TransactionAction.noConfusion)
  have hfiled : Filed (h.write attempt) :=
    hf.write TransactionAction.noConfusion (hf.pending hp (by rw [hkind]; rfl))
      (carries_of_note rfl fun _ => rfl)
  obtain ⟨entry, placement, hentry, hplacement, hmultiplier⟩ := hnoted.context hfiled hp hkind
  rcases handleClosePartial_cases h.trade p.toCloseContext qty avgPrice commission s with
    ⟨-, price, c, hcase⟩ | ⟨-, price, c, hcase⟩
  · rw [hcase]
    exact hnoted.exit hentry
      (handleCloseFill_addsExit hentry hplacement hmultiplier (s.finalQty qty) price c)
  · rw [hcase]
    exact hnoted.exit hentry
      (recordClosePartial_addsExit hentry hplacement hmultiplier (s.finalQty qty) price c)

theorem Totalled.exitFilled {h : History} (ht : Totalled h) (hf : Filed h) {id : ℤ}
    {qty avgPrice commission : ℚ} {recorded : Recorded}
    (h' : handleAutonomousCloseFill h.trade id qty avgPrice commission = some recorded) :
    Totalled (h.withTrade recorded.trade) := by
  obtain ⟨-, entry, -, -, -, hentry, -, -, -⟩ := handleAutonomousCloseFill_some h'
  obtain ⟨hfill, -⟩ := getEntryFill_some hentry
  obtain ⟨hrow, hisfill⟩ := List.mem_filter.mp hfill
  obtain ⟨row, ha⟩ :=
    handleAutonomousCloseFill_addsExit h' hentry ((hf.carries entry hrow).priced hisfill).2
  exact ht.exit hentry ha

/-- The engine records an exit. -/
theorem Totalled.handled {h : History} (ht : Totalled h) (hf : Filed h) {op : Op}
    {name : HandlerName} {recorded : Recorded} (hop : h.handled op = some (name, recorded))
    (hengine : op.byEngine = true) : Totalled (h.withTrade recorded.trade) := by
  cases handled_some hop with
  | closeFill hp hqty =>
    obtain ⟨hmem, -, hkind⟩ := waiting_some hp
    exact ht.closeFill hf hmem hkind _ _ _
  | closePartial hp hqty =>
    obtain ⟨hmem, -, hkind⟩ := waiting_some hp
    exact ht.closePartial hf hmem hkind _ _ _ _
  | autonomousFill hqty hfill => exact ht.exitFilled hf hfill
  | maybeClose hfound => cases hengine

theorem Totalled.regroup {h : History} (ht : Totalled h) (closed : Bool) :
    Totalled (h.withTrade { h.trade with group := h.trade.group.closeIf closed }) := by
  refine ⟨?_, ?_, ht.sampled, ht.closing, ht.multiplier⟩
  · intro hunopened
    obtain ⟨hexits, hpnl⟩ := ht.unopened hunopened
    exact ⟨hexits, by rw [History.withTrade, closeIf_realizedPnl, hpnl]⟩
  · intro entry hentry
    obtain ⟨hpnl, hcommission, hwritten⟩ := ht.opened entry hentry
    refine ⟨?_, ?_, ?_⟩
    · rw [History.withTrade, closeIf_realizedPnl]
      exact hpnl
    · rw [History.withTrade, closeIf_totalCommission]
      exact hcommission
    · rw [History.withTrade, closeIf_realizedPnl]
      exact hwritten

/-- The entry's order is the first of the trade. -/
theorem Totalled.entryPlaced {h : History} (ht : Totalled h) (hrows : h.trade.rows = [])
    (hpending : h.pending = []) (id : ℤ) (side : Side) (qty : ℚ) (multiplier : Option ℚ) :
    Totalled { h.place id .entry side qty multiplier with
      pending := [{ ibOrderId := id, side, qtyRequested := qty, multiplier, kind := .entry }] } := by
  have hfresh : h.IsFresh id := by
    refine ⟨fun t hrow => ?_, fun p hp => ?_⟩
    · rw [hrows] at hrow
      cases hrow
    · rw [hpending] at hp
      cases hp
  refine (ht.place hfresh .entry side qty multiplier).await ?_ PendingKind.noConfusion
    (List.nil_subset _) (List.Subset.refl _)
  intro placement hplacement
  obtain rfl := Option.some.inj ((placementOf_place h id .entry side qty multiplier).symm.trans
    hplacement)
  rfl

/-- A close command places its order. -/
theorem Totalled.closePlaced {h : History} (ht : Totalled h) {sample : Sample}
    (hsample : sample ∈ h.sampled) {id : ℤ} (hfresh : h.IsFresh id) (multiplier : Option ℚ) :
    Totalled { h.place id .close sample.side sample.qty multiplier with
      sampled := h.sampled.erase sample
      pending := { ibOrderId := id, side := sample.side, qtyRequested := sample.qty, multiplier,
                   kind := .close } :: h.pending } := by
  have hplaced := ht.place hfresh .close sample.side sample.qty multiplier
  refine hplaced.await ?_ (fun _ => ?_) (List.Subset.refl _) List.erase_subset
  · intro placement hplacement
    obtain rfl := Option.some.inj
      ((placementOf_place h id .close sample.side sample.qty multiplier).symm.trans hplacement)
    rfl
  · exact hplaced.sampled (List.ne_nil_of_mem hsample)

/-- Every op of the engine keeps the sums. -/
theorem Totalled.step {h : History} (ht : Totalled h) (hb : Booked h) (hf : Filed h) {op : Op}
    (hengine : op.byEngine = true) : Totalled (h.step op) := by
  cases op with
  | entryPlaced id side qty multiplier =>
    unfold History.step
    dsimp only
    split
    case isTrue hnew => exact ht.entryPlaced hnew.1 hnew.2 id side qty multiplier
    case isFalse => exact ht
  | entryFilled id qty avgPrice commission exits | entryPartial id qty avgPrice commission exits =>
    unfold History.step
    dsimp only
    split
    case h_1 p hp =>
      obtain ⟨hmem, -, hkind⟩ := waiting_some hp
      split
      case isTrue => exact ht.recordEntry hb hmem hkind (by decide) qty avgPrice commission exits
      case isFalse => exact ht
    case h_2 => exact ht
  | entryExpired id =>
    unfold History.step
    dsimp only
    split
    case h_1 p hp =>
      exact ((ht.regroup true).note rfl (.inl TransactionAction.noConfusion)
        (.inl TransactionAction.noConfusion)).finish id
    case h_2 => exact ht
  | closeSampled =>
    unfold History.step
    dsimp only
    split
    case h_1 entry qty hentry hqty =>
      exact ⟨ht.unopened, ht.opened, fun _ => Option.isSome_iff_exists.mpr ⟨entry, hentry⟩,
        ht.closing, ht.multiplier⟩
    case h_2 => exact ht
  | closePlaced sample id multiplier =>
    unfold History.step
    dsimp only
    split
    case isTrue hplace => exact ht.closePlaced hplace.1 hplace.2 multiplier
    case isFalse => exact ht
  | closeFilled id qty avgPrice commission | closePartial id qty avgPrice commission settlement =>
    unfold History.step
    dsimp only
    split
    case h_1 name recorded hop => exact (ht.handled hf hop hengine).finish id
    case h_2 => exact ht
  | givenUp id => exact ht.finish id
  | exitFilled id qty avgPrice commission =>
    unfold History.step
    dsimp only
    split
    case h_1 name recorded hop => exact ht.handled hf hop hengine
    case h_2 => exact ht
  | noted action id =>
    unfold History.step
    dsimp only
    split
    case h_1 t hlatest =>
      split
      case isTrue haction =>
        simp only [noteActions, List.mem_cons, List.not_mem_nil, or_false] at haction
        have hkind : (placementRow action (some id) t.legType t.side t.quantity
            t.multiplier).isFill = false ∧ action ≠ .placeAccepted := by
          rcases haction with rfl | rfl | rfl | rfl | rfl <;>
            exact ⟨rfl, TransactionAction.noConfusion⟩
        exact ht.note hkind.1 (.inl hkind.2) (.inl hkind.2)
      case isFalse => exact ht
    case h_2 => exact ht
  | reconciled id status => cases hengine

/-- Along every history of the engine the group carries the sums. -/
theorem totalled_run {ops : List Op} (hengine : ∀ op ∈ ops, op.byEngine = true) :
    Totalled (History.run ops) := by
  have hstart : Totalled {} ∧ Booked {} ∧ Filed {} := ⟨Totalled.start, Booked.start, Filed.start⟩
  have hall : Totalled (History.run ops) ∧ Booked (History.run ops) ∧ Filed (History.run ops) := by
    refine List.foldlRecOn (motive := fun h => Totalled h ∧ Booked h ∧ Filed h) ops History.step
      hstart fun h hinv op hop => ?_
    obtain ⟨ht, hb, hf⟩ := hinv
    exact ⟨ht.step hb hf (hengine op hop), hb.step op, hf.step op⟩
  exact hall.1

-- ============================================================================
-- Additivity over the executions
-- ============================================================================

/-- The executions a fill row adds up: its quantity, its average price and its
    commission are theirs. -/
structure Splits (executions : List (Execution ℚ)) (fill : TransactionEvent) : Prop where
  qty : Executions.qty executions = fill.filledQty
  notional : Executions.notional executions = price fill * fill.filledQty
  commission : Executions.commission executions = fee fill

instance (executions : List (Execution ℚ)) (fill : TransactionEvent) :
    Decidable (Splits executions fill) :=
  decidable_of_iff
    (Executions.qty executions = fill.filledQty ∧
      Executions.notional executions = price fill * fill.filledQty ∧
      Executions.commission executions = fee fill)
    ⟨fun h => ⟨h.1, h.2.1, h.2.2⟩, fun h => ⟨h.qty, h.notional, h.commission⟩⟩

/-- What an execution earns against the entry, before its commission. -/
def executionGain (rows : List TransactionEvent) (entry fill : TransactionEvent) (x : Execution ℚ) :
    ℚ :=
  (x.price - price entry) * x.qty * exitMultiplier rows entry fill * direction entry.side

theorem sum_executionGain {executions : List (Execution ℚ)} {fill : TransactionEvent}
    (hsplit : Splits executions fill) (rows : List TransactionEvent) (entry : TransactionEvent) :
    (executions.map (executionGain rows entry fill)).sum =
      exitGain entry fill * exitMultiplier rows entry fill * direction entry.side := by
  have hlinear : ∀ xs : List (Execution ℚ), (xs.map (executionGain rows entry fill)).sum =
      (Executions.notional xs - price entry * Executions.qty xs) *
        exitMultiplier rows entry fill * direction entry.side := by
    intro xs
    induction xs with
    | nil => simp
    | cons x xs ih =>
      simp only [List.map_cons, List.sum_cons, ih, executionGain, Executions.notional_cons,
        Executions.qty_cons]
      ring
  rw [hlinear, hsplit.notional, hsplit.qty, exitGain]
  ring

theorem sum_exitPnl_executions {rows : List TransactionEvent} {entry : TransactionEvent}
    {executionsOf : TransactionEvent → List (Execution ℚ)} (fills : List TransactionEvent)
    (hsplit : ∀ fill ∈ fills, Splits (executionsOf fill) fill) :
    (fills.map (exitPnl rows entry)).sum =
      (fills.map fun fill => ((executionsOf fill).map (executionGain rows entry fill)).sum).sum -
        (fills.map fun fill => Executions.commission (executionsOf fill)).sum := by
  induction fills with
  | nil => simp
  | cons fill fills ih =>
    have hfill := hsplit fill List.mem_cons_self
    have hrest := ih fun other hother => hsplit other (List.mem_cons_of_mem fill hother)
    simp only [List.map_cons, List.sum_cons, hrest, sum_executionGain hfill, hfill.commission,
      exitPnl]
    ring

/-- The group of a trade carries the gains of all executions of its exits less
    their commissions, and all commissions. -/
structure Additive (t : Trade) (entry : TransactionEvent)
    (executionsOf : TransactionEvent → List (Execution ℚ)) : Prop where
  realizedPnl : t.group.realizedPnl = some (
    ((engineExits t.rows).map fun fill =>
      ((executionsOf fill).map (executionGain t.rows entry fill)).sum).sum -
    ((engineExits t.rows).map fun fill => Executions.commission (executionsOf fill)).sum)
  totalCommission : t.group.totalCommission = some (fee entry +
    ((engineExits t.rows).map fun fill => Executions.commission (executionsOf fill)).sum)

/-- Once an exit is recorded the sums are those of the executions. -/
theorem GroupTotals.additive {t : Trade} {entry : TransactionEvent} (ht : GroupTotals t entry)
    (hexits : engineExits t.rows ≠ []) {executionsOf : TransactionEvent → List (Execution ℚ)}
    (hsplit : ∀ fill ∈ engineExits t.rows, Splits (executionsOf fill) fill) :
    Additive t entry executionsOf := by
  obtain ⟨pnl, hpnl⟩ := Option.isSome_iff_exists.mp (ht.written hexits)
  constructor
  · rw [← sum_exitPnl_executions (engineExits t.rows) hsplit, ← ht.realizedPnl, hpnl,
      Option.getD_some]
  · rw [ht.totalCommission]
    congr 2
    refine congrArg List.sum (List.map_congr_left fun fill hfill => ?_)
    exact (hsplit fill hfill).commission.symm

/-- The op a handler records an exit in leaves a fill row. -/
theorem handled_exits {h : History} {op : Op} {name : HandlerName} {recorded : Recorded}
    (hop : h.handled op = some (name, recorded)) (hengine : op.byEngine = true) :
    engineExits recorded.trade.rows ≠ [] := by
  have hlast : ∀ {rows : List TransactionEvent} {row : TransactionEvent}, row.isFill = true →
      row.legType ∈ exitLegs → engineExits (insert rows row) ≠ [] := by
    intro rows row hfill hleg
    rw [engineExits_insert hfill hleg]
    exact List.append_ne_nil_of_right_ne_nil _ (List.cons_ne_nil _ _)
  have hclose : LegType.close ∈ exitLegs := by decide
  cases handled_some hop with
  | closeFill hp hqty => exact hlast rfl hclose
  | closePartial hp hqty =>
    rcases handleClosePartial_cases h.trade _ _ _ _ _ with
      ⟨-, price, c, hcase⟩ | ⟨-, price, c, hcase⟩
    · rw [hcase]
      exact hlast rfl hclose
    · rw [hcase]
      exact hlast rfl hclose
  | autonomousFill hqty hfill =>
    obtain ⟨placement, -, -, hleg, -, -, hrows, -, -⟩ := handleAutonomousCloseFill_some hfill
    rw [hrows]
    exact hlast rfl (List.mem_cons_of_mem _ hleg)
  | maybeClose hfound => cases hengine

/-- After every exit fill, the one that closes the trade included, the group carries
    the gains of all executions of the exits less their commissions, and the entry's
    commission with all of theirs. -/
theorem closePnl_additive (ops : List Op) (last : Op) (name : HandlerName) (recorded : Recorded)
    (executionsOf : TransactionEvent → List (Execution ℚ))
    (hengine : ∀ op ∈ ops ++ [last], op.byEngine = true)
    (hlast : (History.run ops).handled last = some (name, recorded))
    (hsplit : ∀ fill ∈ engineExits (History.run (ops ++ [last])).trade.rows,
      Splits (executionsOf fill) fill) :
    ∃ entry, getEntryFill (History.run (ops ++ [last])).trade.rows = some entry ∧
      Additive (History.run (ops ++ [last])).trade entry executionsOf := by
  have hrun : (History.run (ops ++ [last])).trade = recorded.trade := by
    rw [History.run, List.foldl_append]
    exact step_handled hlast
  have htotalled := totalled_run hengine
  have hexits : engineExits (History.run (ops ++ [last])).trade.rows ≠ [] := by
    rw [hrun]
    exact handled_exits hlast (hengine last (List.mem_append_right ops (List.mem_singleton_self last)))
  obtain ⟨entry, hentry⟩ : ∃ entry,
      getEntryFill (History.run (ops ++ [last])).trade.rows = some entry := by
    refine Option.ne_none_iff_exists'.mp fun hnone => ?_
    exact hexits (htotalled.unopened hnone).1
  exact ⟨entry, hentry, (htotalled.opened entry hentry).additive hexits hsplit⟩

/-- Ten are bought at 100; a first close sells four, in two executions, and a second
    one the other six. -/
def soldInTwoCloses : List Op :=
  [.entryPlaced 1 .buy 10 (some 5), .entryFilled 1 10 100 1 [],
    .closeSampled,
    .closePlaced { side := .sell, entryQty := 10, closedQty := 0 } 2 (some 5),
    .closePartial 2 4 110 2 { resolution := .cancelled, qty := 4, avgPrice := some 110, commission := 2 },
    .closeSampled,
    .closePlaced { side := .sell, entryQty := 10, closedQty := 4 } 3 (some 5)]

/-- The executions of its exits. -/
def soldInTwoClosesExecutions (fill : TransactionEvent) : List (Execution ℚ) :=
  if fill.ibOrderId = some 2 then
    [{ qty := 1, price := 107, commission := 1 }, { qty := 3, price := 111, commission := 1 }]
  else [{ qty := fill.filledQty, price := price fill, commission := fee fill }]

theorem closePnl_additive_two_closes :
    ∃ entry, getEntryFill (History.run (soldInTwoCloses ++ [.closeFilled 3 6 120 1])).trade.rows =
        some entry ∧
      Additive (History.run (soldInTwoCloses ++ [.closeFilled 3 6 120 1])).trade entry
        soldInTwoClosesExecutions := by
  have hhandled : ((History.run soldInTwoCloses).handled (.closeFilled 3 6 120 1)).isSome = true := by
    decide +kernel
  obtain ⟨⟨name, recorded⟩, hlast⟩ := Option.isSome_iff_exists.mp hhandled
  exact closePnl_additive soldInTwoCloses (.closeFilled 3 6 120 1) name recorded
    soldInTwoClosesExecutions (by decide +kernel) hlast (by decide +kernel)

/-- It is closed with a profit of (4 · 10 + 6 · 20) · 5 less the 3 paid on the exits. -/
example : (History.run (soldInTwoCloses ++ [.closeFilled 3 6 120 1])).trade.group =
    { status := .closed, realizedPnl := some 797, totalCommission := some 4 } := by
  decide +kernel

end IbTrader.Engine.Closing
