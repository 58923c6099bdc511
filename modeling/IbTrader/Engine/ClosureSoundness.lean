/-
  IbTrader.Engine.ClosureSoundness

  When a trade group is set to CLOSED.

  Each of the four functions that may close a group looks at part of the rows:
  `_handle_close_fill` at the FILLED and PARTIAL_FILL rows of closes and profit
  takers, `handle_autonomous_close_fill` at those of all exit legs,
  `_handle_close_partial` and the daemon at no quantity.  Both handlers take the
  entry from the row of `get_entry_fill`.  Whether a closure is right depends on
  the fills that are left out: those of stop losses, and those that only the daemon
  has recorded (`closure_sound`).
-/

import Mathlib.Tactic.Linarith
import Mathlib.Tactic.Ring
import IbTrader.Engine.TradeHistory

namespace IbTrader.Engine.Closing

open Lib Data

-- ============================================================================
-- What the handlers leave out
-- ============================================================================

/-- What is left of the entry. -/
def leftOver (rows : List TransactionEvent) : ℚ := entryQty rows - exitQty rows

/-- The recorded exit fills outside the FILLED and PARTIAL_FILL rows of some leg
    types. -/
def uncountedExits (legs : List LegType) (rows : List TransactionEvent) : ℚ :=
  exitQty rows - engineQty legs rows

/-- The recorded entry fills outside the FILLED and PARTIAL_FILL rows. -/
def uncountedEntry (rows : List TransactionEvent) : ℚ := entryQty rows - engineQty [.entry] rows

/-- The daemon has recorded no fill. -/
def EngineRecords (rows : List TransactionEvent) : Prop :=
  ∀ t ∈ rows, t.action = .reconciled → t.filledQty ≤ 0

/-- No fill of a stop loss is recorded. -/
def NoStopLossFill (rows : List TransactionEvent) : Prop := ∀ t ∈ getFilledLegs rows, t.legType ≠ .stopLoss

/-- The last row of another order is not terminal. -/
def AnotherOpen (rows : List TransactionEvent) (ibOrderId : ℤ) : Prop :=
  ∃ t ∈ getTradeLegSummary rows, t.ibOrderId ≠ some ibOrderId ∧ t.isTerminal = false

/-- Every order's last row is terminal. -/
def AllTerminal (rows : List TransactionEvent) : Prop :=
  getTradeLegSummary rows ≠ [] ∧ ∀ t ∈ getTradeLegSummary rows, t.isTerminal = true

/-- The group of a trade is CLOSED. -/
def Trade.isClosed (t : Trade) : Bool := t.group.status = .closed

/-- The group is closed only when the exits have the entry's quantity or nothing
    was entered, and one of the engine's exit-fill handlers leaves it closed when
    they have just that. -/
def SoundRecord (name : HandlerName) (recorded : Recorded) : Prop :=
  (recorded.closed = true → entryQty recorded.trade.rows ≤ exitQty recorded.trade.rows ∨
    entryQty recorded.trade.rows = 0) ∧
  (name ≠ .maybeClose → exitQty recorded.trade.rows = entryQty recorded.trade.rows →
    recorded.trade.isClosed = true)

/-- A step that records an exit records it so. -/
def ClosesSoundly (h : History) (op : Op) : Prop :=
  ∀ name recorded, h.handled op = some (name, recorded) → SoundRecord name recorded

instance (name : HandlerName) (recorded : Recorded) : Decidable (SoundRecord name recorded) := by
  unfold SoundRecord; infer_instance

instance (h : History) (op : Op) : Decidable (ClosesSoundly h op) :=
  match hop : h.handled op with
  | none => isTrue fun name recorded h => by rw [hop] at h; cases h
  | some (name, recorded) =>
    decidable_of_iff (SoundRecord name recorded)
      ⟨fun hsound name' recorded' h => by
        obtain ⟨rfl, rfl⟩ := Prod.mk.inj (Option.some.inj (hop.symm.trans h)); exact hsound,
      fun hsteps => hsteps name recorded hop⟩

/-- The condition on a step that records an exit: before it the function leaves out no
    recorded fill, or none that makes a difference. -/
def LeavesOutNothing (h : History) (op : Op) : Prop :=
  (h.handled op).isSome →
    match op with
    | .closeFilled _ qty _ _ => EngineRecords h.trade.rows ∧
        (NoStopLossFill h.trade.rows ∨ qty ≠ leftOver h.trade.rows ∨ h.trade.isClosed = true)
    | .closePartial _ qty _ _ settlement => EngineRecords h.trade.rows ∧
        (settlement.resolution = .filled ∧ NoStopLossFill h.trade.rows ∨
          settlement.finalQty qty ≠ leftOver h.trade.rows ∨ h.trade.isClosed = true)
    | .exitFilled _ _ _ _ => EngineRecords h.trade.rows
    -- `_maybe_close_trade_group` reads no quantity
    | .reconciled id _ => AnotherOpen h.trade.rows id ∨ leftOver (h.rowsWith op) ≤ 0 ∨ entryQty (h.rowsWith op) = 0
    | _ => True

-- ============================================================================
-- What each function decides
-- ============================================================================

/-- A handler that closes the group when the entry's rows add up to no more than
    the rows of some leg types. -/
structure DecidesBy (legs : List LegType) (before : Trade) (recorded : Recorded) : Prop where
  closed_iff : recorded.closed = true ↔
    engineQty [.entry] recorded.trade.rows ≤ engineQty legs recorded.trade.rows
  isClosed_eq : recorded.trade.isClosed = (recorded.closed || before.isClosed)

theorem isClosed_closeIf (g : TradeGroup) (closed : Bool) (rows rows' : List TransactionEvent) :
    Trade.isClosed ⟨rows, g.closeIf closed⟩ = (closed || Trade.isClosed ⟨rows', g⟩) := by
  cases closed <;> rfl

/-- A complete close decides by the closes and the profit takers. -/
theorem handleCloseFill_decides {h' : History} {t : Trade} {ctx : CloseContext}
    {qty avgPrice commission : ℚ} (hb : Booked h')
    (htrade : h'.trade = (handleCloseFill t ctx qty avgPrice commission).trade) :
    DecidesBy closedLegs t (handleCloseFill t ctx qty avgPrice commission) where
  closed_iff := by
    rw [← htrade, ← hb.entryFilledQty_eq, ← hb.countedQty_eq, htrade]
    exact decide_eq_true_iff.trans sub_nonpos
  isClosed_eq := isClosed_closeIf _ _ _ t.rows

/-- A fill of a resting exit order decides by all exit legs. -/
theorem handleAutonomousCloseFill_decides {h h' : History} {id : ℤ}
    {qty avgPrice commission : ℚ} {recorded : Recorded} (hb : Booked h) (hb' : Booked h')
    (hfill : handleAutonomousCloseFill h.trade id qty avgPrice commission = some recorded)
    (htrade : h'.trade = recorded.trade) : DecidesBy exitLegs h.trade recorded := by
  obtain ⟨placement, entry, -, hleg, -, hentry, hrows, hclosed, hstatus⟩ :=
    handleAutonomousCloseFill_some hfill
  have hpos : 0 < entry.filledQty := hb.filled_pos entry (getEntryFill_some hentry).1
  have hqty : orElse entry.filledQty qty = engineQty [.entry] recorded.trade.rows := by
    have hnotentry :
        (autonomousFillRow placement qty avgPrice commission).legType ∉ [LegType.entry] := by
      show placement.legType ∉ [LegType.entry]
      rcases List.mem_cons.mp hleg with hleg | hleg
      · rw [hleg]; decide
      · rw [List.mem_singleton.mp hleg]; decide
    have hsame : countedQty [.entry] recorded.trade.rows = countedQty [.entry] h.trade.rows := by
      rw [hrows, countedQty_insert _ _ rfl, if_neg hnotentry, add_zero]
    calc orElse entry.filledQty qty
        = entryFilledQty h.trade.rows := by
          rw [orElse, if_neg hpos.ne', entryFilledQty, hentry]; rfl
      _ = countedQty [.entry] h.trade.rows := entryFilledQty_eq_countedQty hb.entry_once
      _ = engineQty [.entry] recorded.trade.rows := by
          rw [← hsame, ← htrade, hb'.countedQty_eq]
  constructor
  · rw [hclosed, hqty, ← htrade, ← hb'.countedQty_eq exitLegs, sub_nonpos]
  · rw [Trade.isClosed, hstatus, Trade.isClosed]
    cases recorded.closed <;> simp

/-- The daemon closes when every order's last row is terminal. -/
theorem maybeCloseTradeGroup_closed_iff (t : Trade) :
    (maybeCloseTradeGroup t).closed = true ↔ AllTerminal t.rows := by
  unfold maybeCloseTradeGroup AllTerminal
  dsimp only
  split
  case isTrue hnone => simp [hnone]
  case isFalse hsome =>
    split
    case isTrue hopen =>
      simp only [List.any_eq_true, Bool.not_eq_true'] at hopen
      obtain ⟨t, ht, hopen⟩ := hopen
      refine ⟨fun h => absurd h Bool.false_ne_true, fun h => ?_⟩
      rw [h.2 t ht] at hopen
      exact absurd hopen.symm Bool.false_ne_true
    case isFalse hterminal =>
      refine ⟨fun _ => ⟨hsome, fun t ht => ?_⟩, fun _ => rfl⟩
      by_contra hopen
      exact hterminal (List.any_eq_true.mpr ⟨t, ht, by simpa using hopen⟩)

-- ============================================================================
-- What is left of the entry
-- ============================================================================

section LeftOver

variable {rows : List TransactionEvent} {event : TransactionEvent}

/-- Where the daemon has recorded no fill, the engine's rows are all that count. -/
theorem recordedQty_eq_engineQty (h : EngineRecords rows) (legs : List LegType) :
    recordedQty legs rows = engineQty legs rows := by
  refine le_antisymm (CumulativeReports.total_le_of_pos fun report hreport hpos => ?_)
    (engineQty_le_recordedQty (List.Subset.refl legs) rows)
  obtain ⟨t, ht, rfl⟩ := List.mem_map.mp hreport
  obtain ⟨hreports, hleg⟩ := List.mem_filter.mp ht
  obtain ⟨hrow, hkind⟩ := List.mem_filter.mp hreports
  have hfill : t.isFill = true := by
    rw [TransactionEvent.reportsFill, Bool.or_eq_true, decide_eq_true_iff] at hkind
    exact hkind.resolve_right fun hreconciled => absurd (h t hrow hreconciled) (not_le.mpr hpos)
  exact List.mem_map.mpr ⟨t, List.mem_filter.mpr ⟨List.mem_filter.mpr ⟨hrow, hfill⟩, hleg⟩, rfl⟩

theorem EngineRecords.insert (h : EngineRecords rows) (haction : event.action ≠ .reconciled) :
    EngineRecords (insert rows event) := by
  intro t ht hreconciled
  rcases List.mem_append.mp ht with hold | hnew
  · exact h t hold hreconciled
  · rw [List.mem_singleton.mp hnew] at hreconciled
    exact absurd hreconciled haction

/-- A row that reports no fill leaves what is left. -/
theorem leftOver_insert_of_not_reports (h : event.reportsFill = false) (rows : List TransactionEvent) :
    leftOver (insert rows event) = leftOver rows := by
  have hsame (legs : List LegType) : recordedQty legs (insert rows event) = recordedQty legs rows := by
    have hstored : event.stored.reportsFill = false := h
    unfold recordedQty
    rw [Data.insert, List.filter_append, List.filter_singleton, hstored, Bool.cond_false, List.append_nil]
  rw [leftOver, leftOver, entryQty, exitQty, entryQty, exitQty, hsame, hsame]

/-- The fill of an exit is gone from what is left. -/
theorem leftOver_insert {h h' : History} (hb : Booked h) (hb' : Booked h') (hrecords : EngineRecords h.trade.rows)
    (hrows : h'.trade.rows = insert h.trade.rows event) (hfill : event.isFill = true)
    (haction : event.action ≠ .reconciled) (hleg : event.legType ∈ exitLegs) :
    leftOver h'.trade.rows = leftOver h.trade.rows - event.filledQty := by
  have hentry : event.legType ∉ [LegType.entry] := fun hmem => by
    rw [List.mem_singleton.mp hmem] at hleg
    exact absurd hleg (by decide)
  have hrecords' : EngineRecords h'.trade.rows := hrows ▸ hrecords.insert haction
  rw [leftOver, leftOver, entryQty, exitQty, entryQty, exitQty, recordedQty_eq_engineQty hrecords,
    recordedQty_eq_engineQty hrecords, recordedQty_eq_engineQty hrecords', recordedQty_eq_engineQty hrecords',
    ← hb'.countedQty_eq, ← hb'.countedQty_eq, ← hb.countedQty_eq, ← hb.countedQty_eq, hrows,
    countedQty_insert _ _ hfill, countedQty_insert _ _ hfill, if_neg hentry, if_pos hleg]
  ring

/-- The stop losses are what the closes and profit takers lack of the exits. -/
theorem countedQty_exitLegs (rows : List TransactionEvent) :
    countedQty exitLegs rows = countedQty closedLegs rows + countedQty [.stopLoss] rows := by
  unfold countedQty
  induction getFilledLegs rows with
  | nil => simp
  | cons t legs ih =>
    rw [List.filter_cons, List.filter_cons, List.filter_cons]
    cases hleg : t.legType with
    | entry => rw [if_neg (by decide), if_neg (by decide), if_neg (by decide), ih]
    | close | profitTaker =>
      rw [if_pos (by decide), if_pos (by decide), if_neg (by decide), List.map_cons, List.map_cons, List.sum_cons,
        List.sum_cons, ih, add_assoc]
    | stopLoss =>
      rw [if_pos (by decide), if_neg (by decide), if_pos (by decide), List.map_cons, List.map_cons, List.sum_cons,
        List.sum_cons, ih, add_left_comm]

theorem noStopLossFill_iff {h : History} (hb : Booked h) :
    NoStopLossFill h.trade.rows ↔ countedQty [.stopLoss] h.trade.rows ≤ 0 := by
  constructor
  · intro hnone
    rw [countedQty, List.filter_eq_nil_iff.mpr fun t ht => by simpa using hnone t ht]
    exact le_rfl
  · intro hzero t ht hstop
    have hmem : t ∈ (getFilledLegs h.trade.rows).filter (·.legType ∈ [LegType.stopLoss]) :=
      List.mem_filter.mpr ⟨ht, by simp [hstop]⟩
    have hle : t.filledQty ≤ countedQty [.stopLoss] h.trade.rows :=
      List.single_le_sum (fun q hq => by
        obtain ⟨u, hu, rfl⟩ := List.mem_map.mp hq
        exact (hb.filled_pos u (List.mem_filter.mp hu).1).le) _ (List.mem_map_of_mem hmem)
    exact absurd (hle.trans hzero) (not_le.mpr (hb.filled_pos t ht))

end LeftOver

-- ============================================================================
-- Closure over a history
-- ============================================================================

/-- A complete close is recorded soundly unless it takes just what a stop loss has left. -/
theorem handleCloseFill_sound_iff {h h' : History} (hb : Booked h) (hb' : Booked h')
    (hrecords : EngineRecords h.trade.rows) {ctx : CloseContext} {qty avgPrice commission : ℚ}
    (htrade : h'.trade = (handleCloseFill h.trade ctx qty avgPrice commission).trade) :
    SoundRecord .closeFill (handleCloseFill h.trade ctx qty avgPrice commission) ↔
      NoStopLossFill h.trade.rows ∨ qty ≠ leftOver h.trade.rows ∨ h.trade.isClosed = true := by
  have hdecides := handleCloseFill_decides hb' htrade
  have hrows : h'.trade.rows = insert h.trade.rows (closeFillRow ctx qty avgPrice commission) := by rw [htrade]; rfl
  have hleft := leftOver_insert hb hb' hrecords hrows rfl TransactionAction.noConfusion List.mem_cons_self
  have hrecords' : EngineRecords h'.trade.rows := hrows ▸ hrecords.insert TransactionAction.noConfusion
  have hnotstop : (closeFillRow ctx qty avgPrice commission).legType ∉ [LegType.stopLoss] :=
    show LegType.close ∉ _ by decide
  have hexits : exitQty h'.trade.rows = engineQty closedLegs h'.trade.rows + countedQty [.stopLoss] h.trade.rows := by
    rw [exitQty, recordedQty_eq_engineQty hrecords', ← hb'.countedQty_eq, countedQty_exitLegs, hb'.countedQty_eq, hrows,
      countedQty_insert [.stopLoss] _ rfl, if_neg hnotstop, add_zero]
  have hentry : entryQty h'.trade.rows = engineQty [.entry] h'.trade.rows := recordedQty_eq_engineQty hrecords' _
  have hstop : 0 ≤ countedQty [.stopLoss] h.trade.rows := by
    rw [hb.countedQty_eq]
    exact CumulativeReports.total_nonneg _
  have hfilled : (closeFillRow ctx qty avgPrice commission).filledQty = qty := rfl
  rw [hfilled, leftOver] at hleft
  rw [SoundRecord, hdecides.isClosed_eq, Bool.or_eq_true, hdecides.closed_iff, ← htrade, noStopLossFill_iff hb]
  constructor
  · rintro ⟨-, hwhen⟩
    by_cases hall : qty = leftOver h.trade.rows
    · rcases hwhen (by decide) (by linarith) with hle | hbefore
      · left
        linarith
      · exact .inr (.inr hbefore)
    · exact .inr (.inl hall)
  · intro hdecided
    refine ⟨fun hle => .inl (by linarith), fun _ heq => ?_⟩
    rcases hdecided with hnone | hsome | hbefore
    · exact .inl (by linarith)
    · exact absurd (by linarith) hsome
    · exact .inr hbefore

/-- A cancel attempt changes nothing of this. -/
theorem handleClosePartial_filled_iff {h h' : History} {ctx : CloseContext}
    (hattempt : Booked (h.write (cancelAttemptRow ctx))) (hb' : Booked h') (hrecords : EngineRecords h.trade.rows)
    {qty avgPrice commission : ℚ}
    (htrade : h'.trade = (handleCloseFill (h.write (cancelAttemptRow ctx)).trade ctx qty avgPrice commission).trade) :
    SoundRecord .closeFill (handleCloseFill (h.write (cancelAttemptRow ctx)).trade ctx qty avgPrice commission) ↔
      NoStopLossFill h.trade.rows ∨ qty ≠ leftOver h.trade.rows ∨ h.trade.isClosed = true := by
  rw [handleCloseFill_sound_iff hattempt hb' (hrecords.insert TransactionAction.noConfusion) htrade]
  show NoStopLossFill (insert h.trade.rows (cancelAttemptRow ctx)) ∨
      qty ≠ leftOver (insert h.trade.rows (cancelAttemptRow ctx)) ∨ h.trade.isClosed = true ↔ _
  rw [NoStopLossFill, getFilledLegs_insert_of_not_fill rfl, leftOver_insert_of_not_reports rfl]
  rfl

/-- A partial close that stays one is recorded soundly unless it takes all that was left. -/
theorem recordClosePartial_sound_iff {h h' : History} {ctx : CloseContext}
    (hattempt : Booked (h.write (cancelAttemptRow ctx))) (hb' : Booked h') (hrecords : EngineRecords h.trade.rows)
    {qty avgPrice commission : ℚ}
    (htrade : h'.trade = (recordClosePartial (h.write (cancelAttemptRow ctx)).trade ctx qty avgPrice commission).trade) :
    SoundRecord .closePartial (recordClosePartial (h.write (cancelAttemptRow ctx)).trade ctx qty avgPrice commission) ↔
      qty ≠ leftOver h.trade.rows ∨ h.trade.isClosed = true := by
  have hrows : h'.trade.rows = insert (h.write (cancelAttemptRow ctx)).trade.rows
      (closePartialRow ctx qty avgPrice commission) := by rw [htrade]; rfl
  have hleft := leftOver_insert hattempt hb' (hrecords.insert TransactionAction.noConfusion) hrows rfl
    TransactionAction.noConfusion List.mem_cons_self
  have hbefore : leftOver (h.write (cancelAttemptRow ctx)).trade.rows = leftOver h.trade.rows :=
    leftOver_insert_of_not_reports rfl _
  have hfilled : (closePartialRow ctx qty avgPrice commission).filledQty = qty := rfl
  have hopen : (recordClosePartial (h.write (cancelAttemptRow ctx)).trade ctx qty avgPrice commission).trade.isClosed =
      h.trade.isClosed := rfl
  rw [hbefore, hfilled, leftOver] at hleft
  rw [SoundRecord, hopen, ← htrade]
  constructor
  · rintro ⟨-, hwhen⟩
    by_cases hall : qty = leftOver h.trade.rows
    · exact .inr (hwhen (by decide) (by linarith))
    · exact .inl hall
  · intro hdecided
    refine ⟨fun hclosed => absurd hclosed Bool.false_ne_true, fun _ heq => ?_⟩
    rcases hdecided with hsome | hclosed
    · exact absurd (by linarith) hsome
    · exact hclosed

/-- A partial close is the one or the other. -/
theorem handleClosePartial_sound_iff {h h' : History} {ctx : CloseContext}
    (hattempt : Booked (h.write (cancelAttemptRow ctx))) (hb' : Booked h') (hrecords : EngineRecords h.trade.rows)
    {qty avgPrice commission : ℚ} {settlement : Settlement}
    (htrade : h'.trade = (handleClosePartial h.trade ctx qty avgPrice commission settlement).trade) :
    SoundRecord (if settlement.resolution = .filled then .closeFill else .closePartial)
        (handleClosePartial h.trade ctx qty avgPrice commission settlement) ↔
      settlement.resolution = .filled ∧ NoStopLossFill h.trade.rows ∨
        settlement.finalQty qty ≠ leftOver h.trade.rows ∨ h.trade.isClosed = true := by
  rcases handleClosePartial_cases h.trade ctx qty avgPrice commission settlement
    with ⟨hresolution, price, c, hcase⟩ | ⟨hresolution, price, c, hcase⟩
  · rw [hcase] at htrade
    rw [if_pos hresolution, hcase, and_iff_right hresolution]
    exact handleClosePartial_filled_iff hattempt hb' hrecords htrade
  · rw [hcase] at htrade
    rw [if_neg hresolution, hcase, or_iff_right fun hboth => hresolution hboth.1]
    exact recordClosePartial_sound_iff hattempt hb' hrecords htrade

/-- The handler of the resting exits counts all that the engine records. -/
theorem handleAutonomousCloseFill_sound {h h' : History} {id : ℤ} {qty avgPrice commission : ℚ}
    {recorded : Recorded} (hb : Booked h) (hb' : Booked h') (hrecords : EngineRecords h.trade.rows)
    (hfill : handleAutonomousCloseFill h.trade id qty avgPrice commission = some recorded)
    (htrade : h'.trade = recorded.trade) : SoundRecord .autonomousFill recorded := by
  have hdecides := handleAutonomousCloseFill_decides hb hb' hfill htrade
  obtain ⟨placement, entry, -, -, -, -, hrows, -, -⟩ := handleAutonomousCloseFill_some hfill
  have hrecords' : EngineRecords recorded.trade.rows := hrows ▸ hrecords.insert TransactionAction.noConfusion
  rw [SoundRecord, hdecides.isClosed_eq, Bool.or_eq_true, hdecides.closed_iff, entryQty, exitQty,
    recordedQty_eq_engineQty hrecords', recordedQty_eq_engineQty hrecords']
  exact ⟨.inl, fun _ heq => .inl heq.ge⟩

/-- The daemon finds the trade done exactly if the order it writes of was the last one open. -/
theorem allTerminal_insert {rows : List TransactionEvent} {event : TransactionEvent} {id : ℤ}
    (hid : event.ibOrderId = some id) (hterminal : event.stored.isTerminal = true) :
    AllTerminal (insert rows event) ↔ ¬ AnotherOpen rows id := by
  have hlatest : getTradeLegSummary (insert rows event) =
      (getTradeLegSummary rows).filter (fun t => t.ibOrderId ∉ [event.stored.ibOrderId]) ++ [event.stored] := by
    rw [getTradeLegSummary_eq_latest, getTradeLegSummary_eq_latest]
    refine latest_append (fun y hy => ?_) (List.nodup_singleton _)
    rw [List.mem_singleton.mp hy]
    show event.ibOrderId.isSome = true
    rw [hid]
    rfl
  have hkey : event.stored.ibOrderId = some id := hid
  rw [AllTerminal, hlatest, AnotherOpen]
  constructor
  · rintro ⟨-, hall⟩ ⟨t, ht, hother, hopen⟩
    have hmem := hall t (List.mem_append_left _ (List.mem_filter.mpr ⟨ht, by simpa [hkey] using hother⟩))
    rw [hopen] at hmem
    cases hmem
  · intro hnone
    refine ⟨List.append_ne_nil_of_right_ne_nil _ (List.cons_ne_nil _ _), fun t ht => ?_⟩
    rcases List.mem_append.mp ht with hold | hnew
    · obtain ⟨hmem, hother⟩ := List.mem_filter.mp hold
      by_contra hopen
      exact hnone ⟨t, hmem, by simpa [hkey] using hother, by simpa using hopen⟩
    · rw [List.mem_singleton.mp hnew]
      exact hterminal

/-- A row of the daemon. -/
theorem reconciledRow_stored (txn : TransactionEvent) (status : FinalStatus) :
    (reconciledRow txn status).stored.isTerminal = true := by
  unfold reconciledRow
  split <;> rfl

theorem reconcileOrder_sound_iff {t : Trade} {id : ℤ} {status : FinalStatus} {recorded : Recorded}
    (hfound : reconcileOrder t id status = some recorded) :
    SoundRecord .maybeClose recorded ↔
      AnotherOpen t.rows id ∨ leftOver recorded.trade.rows ≤ 0 ∨ entryQty recorded.trade.rows = 0 := by
  obtain ⟨txn, htxn, rfl⟩ := reconcileOrder_some hfound
  have hid : (reconciledRow txn status).ibOrderId = some id :=
    (reconciledRow_ibOrderId txn status).trans (latestByIbOrderId_some htxn).2
  rw [SoundRecord, maybeCloseTradeGroup_closed_iff, maybeCloseTradeGroup_rows,
    allTerminal_insert hid (reconciledRow_stored txn status), leftOver, sub_nonpos]
  constructor
  · rintro ⟨hclosed, -⟩
    by_cases hopen : AnotherOpen t.rows id
    · exact .inl hopen
    · exact .inr (hclosed hopen)
  · rintro hcovered
    exact ⟨hcovered.resolve_left, fun hname => absurd rfl hname⟩

/-- A step closes soundly exactly when what it leaves out makes no difference; the daemon
    looks at no quantity, and the engine at its own rows. -/
theorem closesSoundly_iff {h : History} (hb : Booked h) {op : Op}
    (hrecords : (∀ id status, op ≠ .reconciled id status) → EngineRecords h.trade.rows) :
    ClosesSoundly h op ↔ LeavesOutNothing h op := by
  unfold ClosesSoundly LeavesOutNothing
  cases hop : h.handled op with
  | none => exact iff_of_true (fun name recorded hsome => absurd hsome.symm (Option.some_ne_none _)) (fun hsome => by cases hsome)
  | some handled =>
    obtain ⟨name, recorded⟩ := handled
    have honly : (∀ name' recorded', some (name, recorded) = some (name', recorded') → SoundRecord name' recorded') ↔
        SoundRecord name recorded := by
      refine ⟨fun hall => hall name recorded rfl, fun hsound name' recorded' heq => ?_⟩
      obtain ⟨rfl, rfl⟩ := Prod.mk.inj (Option.some.inj heq)
      exact hsound
    have hsome : (some (name, recorded)).isSome = true := rfl
    rw [honly, imp_iff_right hsome]
    have hb' : Booked (h.step op) := hb.step op
    have htrade := step_handled hop
    have hrows := handled_rows hop
    cases handled_some hop with
    | closeFill hp hqty =>
      have hrec := hrecords nofun
      rw [handleCloseFill_sound_iff hb hb' hrec htrade]
      exact (and_iff_right hrec).symm
    | @closePartial p id qty avgPrice commission settlement hp hqty =>
      have hrec := hrecords nofun
      obtain ⟨hmem, -, hkind⟩ := waiting_some hp
      have hattempt : Booked (h.write (cancelAttemptRow p.toCloseContext)) :=
        hb.notePending hmem rfl rfl (by rw [hkind]; rfl)
      rw [handleClosePartial_sound_iff hattempt hb' hrec htrade]
      exact (and_iff_right hrec).symm
    | autonomousFill hqty hfill =>
      have hrec := hrecords nofun
      exact iff_of_true (handleAutonomousCloseFill_sound hb hb' hrec hfill htrade) hrec
    | maybeClose hfound =>
      rw [reconcileOrder_sound_iff hfound, hrows]

/-- A step that leaves out nothing closes soundly. -/
theorem closesSoundly_of_leavesOutNothing {h : History} (hb : Booked h) {op : Op} (hop : LeavesOutNothing h op) :
    ClosesSoundly h op := by
  intro name recorded hhandled
  have hmet := hop (by rw [hhandled]; rfl)
  refine (closesSoundly_iff hb fun hengine => ?_).mpr hop name recorded hhandled
  cases handled_some hhandled with
  | closeFill | closePartial => exact hmet.1
  | autonomousFill => exact hmet
  | maybeClose => exact absurd rfl (hengine _ _)

/-- A history all of whose steps leave out nothing that makes a difference closes its
    trade soundly at every step; and where the daemon has recorded no fill, as it never
    does with the client in use, only such a history does. -/
theorem closure_sound (ops : List Op) :
    (Along History.step LeavesOutNothing {} ops → Along History.step ClosesSoundly {} ops) ∧
      (Along History.step (fun h _ => EngineRecords h.trade.rows) {} ops →
        (Along History.step ClosesSoundly {} ops ↔ Along History.step LeavesOutNothing {} ops)) := by
  have hsound {ops : List Op} :
      Along History.step LeavesOutNothing {} ops → Along History.step ClosesSoundly {} ops :=
    Along.imp_of_invariant (fun _ op hb => hb.step op) (fun _ _ hb => closesSoundly_of_leavesOutNothing hb) ops
      Booked.start
  refine ⟨hsound, fun hrecords => ⟨fun hcloses => ?_, hsound⟩⟩
  exact Along.imp_of_invariant (fun _ op hb => hb.step op)
    (fun _ _ hb hstep => (closesSoundly_iff hb fun _ => hstep.2).mp hstep.1) ops Booked.start
    (Along.and ops hcloses hrecords)

/-- Closure is not always sound: of ten that are bought the stop loss sells four, and
    the six that a close sells before it is cancelled leave the trade open. -/
theorem closure_not_always_sound :
    ¬∀ ops : List Op, Along History.step ClosesSoundly {} ops := by
  intro hall
  have h := hall [.entryPlaced 1 .buy 10 none,
    .entryFilled 1 10 100 1 [{ kind := .stopLoss, ibOrderId := 2 }],
    .exitFilled 2 4 95 1,
    .closeSampled,
    .closePlaced ⟨.sell, 10, 0⟩ 3 none,
    .closePartial 3 6 94 1 { resolution := .cancelled, qty := 6 }]
  exact absurd h (by decide +kernel)

end IbTrader.Engine.Closing
