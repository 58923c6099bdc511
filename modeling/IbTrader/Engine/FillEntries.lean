/-
  IbTrader.Engine.FillEntries

  The fill rows the handlers of the order commands write, with what they record:
  whether the order counts as FILLED, the quantity and the average price.

  A full fill writes one row with what its caller has read.  A partial fill reads
  the order once more after its cancel and writes one row, with the larger of the
  two quantities (`recordedFill`).
-/

import IbTrader.Engine.CommandRows

namespace IbTrader.Engine.OrderFlow

open Lib Fallible Data Closing

-- ============================================================================
-- What is recorded
-- ============================================================================

/-- What a FILLED or PARTIAL_FILL row records. -/
structure FillEntry where
  action : TransactionAction
  qty : ℚ
  avgPrice : Option ℚ
  deriving DecidableEq, Repr

def fillEntry (row : TransactionEvent) : FillEntry where
  action := row.action
  qty := row.filledQty
  avgPrice := row.ibAvgFillPrice

/-- What the FILLED and PARTIAL_FILL rows record. -/
def fillEntries (rows : List TransactionEvent) : List FillEntry :=
  (getFilledLegs rows).map fillEntry

/-- What one state has recorded more than another. -/
def Added (entries : List FillEntry) (c c' : Ctx) : Prop :=
  ∃ rows, c'.trade.rows = c.trade.rows ++ rows ∧ fillEntries rows = entries

/-- Whichever way the computation ends, it records these. -/
def Adds {α : Type} (entries : List FillEntry) (x : Flow α) (c : Ctx) : Prop :=
  wp x (fun _ => Added entries c) (fun _ => Added entries c) c

/-- What a handler records of a fill read as `total` at `avg`, and, short of the
    request, read once more after the cancel. -/
def recordedFill (request total avg : ℚ) (second : Reply SettleReading) : Option FillEntry :=
  if total ≤ 0 then none
  else if request ≤ total then some { action := .filled, qty := total, avgPrice := some avg }
  else
    match second.value with
    | .error _ => none
    | .ok reading =>
      let s := reading.settlement request
      some {
        action := if s.resolution = .filled then .filled else .partialFill
        qty := s.finalQty total
        avgPrice := some (s.effectiveAvg total avg) }

-- ============================================================================
-- Rules
-- ============================================================================

section Rules

variable {α β : Type} {entries more : List FillEntry} {c c' c'' : Ctx} {x : Flow α} {f : α → Flow β}

theorem fillEntries_append (rows more : List TransactionEvent) :
    fillEntries (rows ++ more) = fillEntries rows ++ fillEntries more := by
  simp [fillEntries, getFilledLegs]

theorem Added.append (h : Added entries c c') (h' : Added more c' c'') :
    Added (entries ++ more) c c'' := by
  obtain ⟨rows, hrows, rfl⟩ := h
  obtain ⟨rows', hrows', rfl⟩ := h'
  exact ⟨rows ++ rows', by rw [hrows', hrows, List.append_assoc], fillEntries_append _ _⟩

theorem added_of_rows (h : c'.trade.rows = c.trade.rows) : Added [] c c' :=
  ⟨[], by rw [h, List.append_nil], rfl⟩

instance : RecordOrder (Added []) where
  refl _ := added_of_rows rfl
  trans _ _ _ h h' := h.append h'
  of_same h _ := added_of_rows h

/-- The computation records no fill. -/
abbrev AddsNone {α : Type} (x : Flow α) : Prop := Within (Added []) x

theorem adds_pure (a : α) : Adds [] (pure a : Flow α) c := added_of_rows rfl

/-- What is recorded before a computation and in it. -/
theorem Adds.after (h : Adds more x c') (h' : Added entries c c') :
    wp x (fun _ => Added (entries ++ more) c) (fun _ => Added (entries ++ more) c) c' :=
  wp_mono h (fun _ _ => h'.append) (fun _ _ => h'.append)

theorem Adds.from_rows (h : Adds entries x c') (hrows : c'.trade.rows = c.trade.rows) :
    wp x (fun _ => Added entries c) (fun _ => Added entries c) c' :=
  h.after (added_of_rows hrows)

/-- Nothing more is recorded afterwards. -/
theorem Added.then_none (h : Added entries c c') (hx : AddsNone x) :
    wp x (fun _ => Added entries c) (fun _ => Added entries c) c' := by
  have hrest : ∀ c'', Added [] c' c'' → Added entries c c'' := by
    intro c'' hc''
    simpa using h.append hc''
  exact wp_mono (hx c') (fun _ => hrest) (fun _ => hrest)

theorem Adds.then_none (h : Adds entries x c) (hf : ∀ a, AddsNone (f a)) :
    Adds entries (x >>= f) c := by
  unfold Adds
  rw [wp_bind]
  exact wp_mono h (fun a _ hc' => hc'.then_none (hf a)) (fun _ _ hc' => hc')

/-- What a computation records is what its rows say. -/
theorem fillEntries_drop (h : Adds entries x c) :
    fillEntries ((left x c).trade.rows.drop c.trade.rows.length) = entries := by
  obtain ⟨rows, hrows, hentries⟩ := (wp_left x c).mp h
  rw [hrows, List.drop_left]
  exact hentries

end Rules

theorem isFill_of_reportsFill {event : TransactionEvent} (h : event.reportsFill = false) :
    event.isFill = false := by
  rw [TransactionEvent.reportsFill, Bool.or_eq_false_iff] at h
  exact h.1

/-- A row that reports no fill records none. -/
theorem added_plain {event : TransactionEvent} (h : event.reportsFill = false) (c : Ctx) :
    Added [] c { c with trade.rows := insert c.trade.rows event } := by
  refine ⟨[event.stored], rfl, ?_⟩
  have hrow : event.stored.isFill = false := isFill_of_reportsFill h
  simp [fillEntries, getFilledLegs, hrow]

theorem added_fill {event : TransactionEvent} (h : event.isFill = true) (c : Ctx) :
    Added [fillEntry event] c { c with trade.rows := insert c.trade.rows event } := by
  refine ⟨[event.stored], rfl, ?_⟩
  have hrow : event.stored.isFill = true := h
  have hentry : fillEntry event.stored = fillEntry event := rfl
  simp [fillEntries, getFilledLegs, hrow, hentry]

/-- A plain row before the rest. -/
theorem adds_writeTxn_bind {β : Type} {entries : List FillEntry} {event : TransactionEvent}
    {f : Unit → Flow β} {c : Ctx} (h : event.reportsFill = false)
    (hf : ∀ c', Adds entries (f ()) c') : Adds entries (writeTxn event >>= f) c := by
  unfold Adds
  rw [wp_bind, wp_writeTxn]
  exact (hf _).after (added_plain h c)

section Settled

variable {β : Type} {entries : List FillEntry} {f : Settlement → Flow β} {c : Ctx} {ibOrderId : ℤ} {targetQty : ℚ}
  {r : Reply SettleReading}

/-- A cancel that has been awaited, before the rest. -/
theorem adds_cancelAndAwaitResolution_bind {reading : SettleReading} (hread : r.value = .ok reading)
    (hf : ∀ c', Adds entries (f (reading.settlement targetQty)) c') :
    Adds entries (cancelAndAwaitResolution ibOrderId targetQty r >>= f) c := by
  unfold Adds
  rw [wp_bind, wp_cancelAndAwaitResolution, hread]
  exact (hf _).from_rows rfl

theorem adds_cancelAndAwaitResolution_raised {e : Raised} (hread : r.value = .error e) :
    Adds [] (cancelAndAwaitResolution ibOrderId targetQty r >>= f) c := by
  unfold Adds
  rw [wp_bind, wp_cancelAndAwaitResolution, hread]
  exact added_of_rows rfl

end Settled

-- ============================================================================
-- Entries
-- ============================================================================

theorem ExitStep.added {a : Replies} {c c' : Ctx} (h : ExitStep a c c') : Added [] c c' := by
  obtain ⟨rows, hrows, hall⟩ := h.rows
  refine ⟨rows, hrows, ?_⟩
  rw [fillEntries, List.map_eq_nil_iff, getFilledLegs, List.filter_eq_nil_iff]
  intro row hrow
  rw [isFill_of_reportsFill (hall row hrow).reportsFill]
  exact Bool.false_ne_true

section Entries

variable {o : OrderContext} {cmd : Command} {a : Replies} {c : Ctx}

theorem addsNone_writeCancelled (o : OrderContext) (ibOrderId : ℤ) :
    AddsNone (writeCancelled o ibOrderId) := by
  intro c
  rw [wp_writeCancelled]
  exact IsTrans.trans _ _ _
    (added_plain rfl c) (added_of_rows rfl)

theorem addsNone_closeGroup : AddsNone closeGroup := fun _ => added_of_rows rfl

theorem addsNone_finalizePartialCancel {ibOrderId : ℤ} {resolution : Resolution}
    {probe : Reply (Option Bool)} :
    AddsNone (finalizePartialCancel o ibOrderId resolution probe) := by
  unfold finalizePartialCancel
  split
  · exact (addsNone_writeCancelled o ibOrderId).bind fun _ => within_pure true
  · apply (within_exceptException (within_await probe) (within_pure none)).bind
    intro stillOpen
    split
    · exact (within_hear _).bind fun _ =>
        (addsNone_writeCancelled o ibOrderId).bind fun _ => within_pure true
    · exact within_pure false

theorem adds_handleFill {qtyFilled : ℚ} {avgPrice : Option ℚ} {commission : ℚ} :
    Adds [{ action := .filled, qty := qtyFilled, avgPrice }]
      (handleFill o cmd a qtyFilled avgPrice commission) c := by
  unfold handleFill Adds
  rw [wp_bind, wp_updatePnl]
  have hfilled : Adds [{ action := .filled, qty := qtyFilled, avgPrice }]
      (writeTxn (filledRow o qtyFilled avgPrice commission))
      { c with trade.group := c.trade.group.updatePnl none commission } := added_fill rfl _
  refine Adds.from_rows (hfilled.then_none fun _ => ?_) rfl
  exact (within_runIf _ (within_throw _)).bind fun _ =>
    (within_runIf _ (within_emitConsoleClosePnl _)).bind fun _ =>
      exitStep_placeExits.mono fun _ _ => ExitStep.added

theorem adds_recordPartial {ibOrderId : ℤ} {s : Settlement} {finalQty : ℚ} {avgPrice : Option ℚ}
    {commission : ℚ} :
    Adds [{ action := .partialFill, qty := finalQty, avgPrice }]
      (recordPartial o a ibOrderId s finalQty avgPrice commission) c := by
  have hrow : Adds [{ action := .partialFill, qty := finalQty, avgPrice }]
      (writeTxn (partialFillRow o ibOrderId finalQty avgPrice commission)) c := added_fill rfl c
  exact hrow.then_none fun _ => (within_updatePnl _).bind fun _ =>
    addsNone_finalizePartialCancel.bind fun _ => within_pure ()

theorem effectiveAvg_some (s : Settlement) (qtyFilled avg : ℚ) :
    effectiveAvg s qtyFilled (some avg) = some (s.effectiveAvg qtyFilled avg) := by
  unfold effectiveAvg Settlement.effectiveAvg
  split
  · cases s.avgPrice <;> rfl
  · rfl

/-- `_handle_partial` records one fill of what is read after its cancel. -/
theorem adds_handlePartial_reading {ibOrderId : ℤ} {qtyFilled commission : ℚ} {avgPrice : Option ℚ}
    {reading : SettleReading} (hread : a.settle.value = .ok reading) :
    Adds [{
        action := if (reading.settlement o.qtyRequested).resolution = .filled then .filled else .partialFill
        qty := (reading.settlement o.qtyRequested).finalQty qtyFilled
        avgPrice := effectiveAvg (reading.settlement o.qtyRequested) qtyFilled avgPrice }]
      (handlePartial o cmd a ibOrderId qtyFilled avgPrice commission) c := by
  unfold handlePartial
  refine adds_writeTxn_bind rfl fun _ => adds_cancelAndAwaitResolution_bind hread fun c => ?_
  by_cases hfilled : (reading.settlement o.qtyRequested).resolution = .filled
  · rw [if_pos hfilled, if_pos hfilled]
    exact adds_handleFill
  · rw [if_neg hfilled, if_neg hfilled]
    refine adds_recordPartial.then_none fun _ => ?_
    exact (within_runIf _ (within_emitConsoleClosePnl _)).bind fun _ =>
      within_runIf _ (exitStep_placeProfitTaker.mono fun _ _ => ExitStep.added)

theorem adds_handlePartial_error {ibOrderId : ℤ} {qtyFilled commission : ℚ} {avgPrice : Option ℚ} {e : Raised}
    (hread : a.settle.value = .error e) :
    Adds [] (handlePartial o cmd a ibOrderId qtyFilled avgPrice commission) c := by
  unfold handlePartial
  exact adds_writeTxn_bind rfl fun _ => adds_cancelAndAwaitResolution_raised hread

/-- What is recorded of an entry's fill that is short of the request. -/
theorem adds_handlePartial {ibOrderId : ℤ} {total avg commission : ℚ} (hpos : 0 < total)
    (hshort : total < o.qtyRequested) :
    Adds (recordedFill o.qtyRequested total avg a.settle).toList
      (handlePartial o cmd a ibOrderId total (some avg) commission) c := by
  unfold recordedFill
  rw [if_neg (not_le.mpr hpos), if_neg (not_le.mpr hshort)]
  cases hread : a.settle.value with
  | error e => exact adds_handlePartial_error hread
  | ok reading =>
    have hrecords : Adds _ (handlePartial o cmd a ibOrderId total (some avg) commission) c := adds_handlePartial_reading hread
    rw [effectiveAvg_some] at hrecords
    exact hrecords

end Entries

-- ============================================================================
-- Closes
-- ============================================================================

section Closes

variable {k : CloseContext} {a : CloseReplies} {c : Ctx}

theorem adds_recordClose {recorded : Recorded} {event : TransactionEvent} {r : Reply Unit}
    (hrows : recorded.trade.rows = insert c.trade.rows event) (hfill : event.isFill = true) :
    Adds [fillEntry event] (recordClose recorded r) c := by
  have hrow : Added [fillEntry event] c { c with trade := recorded.trade } := by
    obtain ⟨rows, hinsert, hentries⟩ := added_fill hfill c
    exact ⟨rows, hrows.trans hinsert, hentries⟩
  have hrest : AddsNone (do
      runIf recorded.closed (do noteTerminal (← get).orders)
      await r) := by
    apply (within_runIf _ ?_).bind fun _ => within_await r
    exact fun _ => added_of_rows rfl
  unfold recordClose Adds
  rw [wp_bind, wp_modify]
  exact hrow.then_none hrest

theorem adds_closeFill {qtyFilled avgPrice commission : ℚ} :
    Adds [{ action := .filled, qty := qtyFilled, avgPrice := some avgPrice }]
      (closeFill k a qtyFilled avgPrice commission) c := by
  unfold closeFill Adds
  rw [wp_bind, wp_get]
  exact adds_recordClose (handleCloseFill_rows ..) rfl

/-- `effective_avg or avg_price` is the former unless IB reports a price of zero. -/
theorem orElse_effectiveAvg {s : Settlement} (h : s.avgPrice ≠ some 0) (qtyFilled avgPrice : ℚ) :
    orElse (s.effectiveAvg qtyFilled avgPrice) avgPrice = s.effectiveAvg qtyFilled avgPrice := by
  unfold orElse
  split
  case isFalse => rfl
  case isTrue hzero =>
    unfold Settlement.effectiveAvg at hzero ⊢
    split
    case isFalse => rfl
    case isTrue hmore =>
      rw [if_pos hmore] at hzero
      cases havg : s.avgPrice with
      | none => rfl
      | some avg =>
        rw [havg] at h hzero
        obtain rfl : avg = 0 := hzero
        exact absurd rfl h

/-- `_handle_close_partial` records one fill of what is read after its cancel. -/
theorem adds_closePartial_reading {qtyFilled avgPrice commission : ℚ} {reading : SettleReading}
    (hread : a.settlePartial.value = .ok reading) :
    Adds [{
        action := if (reading.settlement k.qtyRequested).resolution = .filled then .filled else .partialFill
        qty := (reading.settlement k.qtyRequested).finalQty qtyFilled
        avgPrice :=
          if (reading.settlement k.qtyRequested).resolution = .filled then
            some (orElse ((reading.settlement k.qtyRequested).effectiveAvg qtyFilled avgPrice) avgPrice)
          else some ((reading.settlement k.qtyRequested).effectiveAvg qtyFilled avgPrice) }]
      (closePartial k a qtyFilled avgPrice commission) c := by
  unfold closePartial
  refine adds_writeTxn_bind rfl fun _ => adds_cancelAndAwaitResolution_bind hread fun c => ?_
  by_cases hfilled : (reading.settlement k.qtyRequested).resolution = .filled
  · simp only [if_pos hfilled]
    exact adds_closeFill
  · simp only [if_neg hfilled]
    unfold Adds
    rw [wp_bind, wp_get]
    exact adds_recordClose (recordClosePartial_rows ..) rfl

theorem adds_closePartial_error {qtyFilled avgPrice commission : ℚ} {e : Raised}
    (hread : a.settlePartial.value = .error e) : Adds [] (closePartial k a qtyFilled avgPrice commission) c := by
  unfold closePartial
  exact adds_writeTxn_bind rfl fun _ => adds_cancelAndAwaitResolution_raised hread

/-- What is recorded of a close's fill that is short of the request. -/
theorem adds_closePartial {total avg commission : ℚ} (hpos : 0 < total)
    (hshort : total < k.qtyRequested)
    (hpriced : ∀ reading, a.settlePartial.value = .ok reading → reading.status.avgFillPrice ≠ some 0) :
    Adds (recordedFill k.qtyRequested total avg a.settlePartial).toList
      (closePartial k a total avg commission) c := by
  unfold recordedFill
  rw [if_neg (not_le.mpr hpos), if_neg (not_le.mpr hshort)]
  cases hread : a.settlePartial.value with
  | error e => exact adds_closePartial_error hread
  | ok reading =>
    have hpriced' : (reading.settlement k.qtyRequested).avgPrice ≠ some 0 := hpriced reading hread
    have hrecords : Adds _ (closePartial k a total avg commission) c := adds_closePartial_reading hread
    rw [orElse_effectiveAvg hpriced', ite_self] at hrecords
    exact hrecords

/-- The two orders' fills are recorded together. -/
theorem adds_recordCrossed {s : Settlement} {status : SmartMarket.OrderStatus}
    (hpriced : ∀ reading, a.settlePartial.value = .ok reading → reading.status.avgFillPrice ≠ some 0) :
    Adds (recordedFill k.qtyRequested (s.qty + status.qtyFilled)
        ((s.qty * s.avgPrice.getD 0 + status.qtyFilled * status.avgFillPrice.getD 0) /
          (s.qty + status.qtyFilled)) a.settlePartial).toList
      (recordCrossed k a s status) c := by
  unfold recordCrossed
  dsimp only
  by_cases hpos : 0 < s.qty + status.qtyFilled
  · rw [if_pos hpos]
    by_cases hfull : k.qtyRequested ≤ s.qty + status.qtyFilled
    · rw [if_pos hfull, recordedFill, if_neg (not_le.mpr hpos), if_pos hfull]
      exact adds_closeFill
    · rw [if_neg hfull]
      exact adds_closePartial hpos (not_le.mp hfull) hpriced
  · rw [if_neg hpos, recordedFill, if_pos (not_lt.mp hpos)]
    exact adds_pure ()

/-- The cancels of the exit orders record nothing. -/
theorem adds_cancelSiblings {cancelled : ℤ → Reply Unit} (legs : List (ℤ × TransactionEvent))
    (hall : siblingsCancelled cancelled legs = true) (c : Ctx) :
    wp (cancelSiblings cancelled legs) (fun _ => Added [] c) (fun _ _ => False) c := by
  induction legs generalizing c with
  | nil => exact added_of_rows rfl
  | cons leg later ih =>
    obtain ⟨ibOrderId, row⟩ := leg
    obtain ⟨hone, hlater⟩ : (cancelled ibOrderId).value.isOk = true ∧
        siblingsCancelled cancelled later = true := Bool.and_eq_true_iff.mp hall
    have hrows : ∀ action ∈ [TransactionAction.cancelAttempt, .cancelled], ∀ terminal : Bool,
        ({ siblingRow action row with isTerminal := terminal } : TransactionEvent).reportsFill =
          false := by
      intro action haction terminal
      simp only [List.mem_cons, List.not_mem_nil, or_false] at haction
      rcases haction with rfl | rfl <;> rfl
    unfold cancelSiblings
    rw [wp_bind, wp_writeTxn, wp_bind, wp_await]
    cases hvalue : (cancelled ibOrderId).value with
    | error e =>
      rw [hvalue] at hone
      cases hone
    | ok u =>
      dsimp only
      rw [wp_bind, wp_writeTxn, wp_bind, wp_noteTerminal]
      refine wp_mono (ih hlater _) (fun _ c' h => ?_) (fun _ _ h => h)
      have hattempt := added_plain (hrows .cancelAttempt (by decide) false) c
      have hcancelled := added_plain (hrows .cancelled (by decide) true)
        { c with trade.rows := insert c.trade.rows (siblingRow .cancelAttempt row) }
      refine IsTrans.trans _ _ _ hattempt (IsTrans.trans _ _ _ hcancelled
        (IsTrans.trans _ _ _ (added_of_rows ?_) h))
      rfl

end Closes

end IbTrader.Engine.OrderFlow
