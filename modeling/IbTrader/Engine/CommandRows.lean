/-
  IbTrader.Engine.CommandRows

  The fill rows the order commands write: at most one for an order, with the
  quantity the coroutine has read last (`writes_executeOrder`,
  `writes_executeClose`).  What is read at each ending is a function of the replies
  (`Ending.readQty`, `closeReadQty`).
-/

import IbTrader.Engine.CloseFlow
import IbTrader.Engine.BookedFills

namespace IbTrader.Engine.OrderFlow

open Lib Fallible Data Closing Booking
open SmartMarket (OrderStatus)

-- ============================================================================
-- Rows written
-- ============================================================================

/-- The rows one state has more than another, as far as they are about the fills of
    an order: the quantities of its fill rows, and no exit placement if the number is
    not one of a protective order. -/
def Wrote (id : ℤ) (own : Prop) (qtys : List ℚ) (c c' : Ctx) : Prop :=
  ∃ rows, c'.trade.rows = c.trade.rows ++ rows ∧ fillQtys id rows = qtys ∧
    (own → NoExitPlacement id rows)

/-- Whichever way the computation ends, it writes these. -/
def Writes {α : Type} (id : ℤ) (own : Prop) (qtys : List ℚ) (x : Flow α) (c : Ctx) : Prop :=
  wp x (fun _ => Wrote id own qtys c) (fun _ => Wrote id own qtys c) c

section Rules

variable {α β : Type} {id : ℤ} {own : Prop} {qtys more : List ℚ} {c c' c'' : Ctx} {x : Flow α}
  {f : α → Flow β}

theorem Wrote.append (h : Wrote id own qtys c c') (h' : Wrote id own more c' c'') :
    Wrote id own (qtys ++ more) c c'' := by
  obtain ⟨rows, hrows, hqtys, hplacement⟩ := h
  obtain ⟨rows', hrows', hmore, hplacement'⟩ := h'
  refine ⟨rows ++ rows', by rw [hrows', hrows, List.append_assoc], ?_, fun hown => ?_⟩
  · rw [fillQtys_append, hqtys, hmore]
  · exact List.forall_mem_append.mpr ⟨hplacement hown, hplacement' hown⟩

theorem wrote_of_rows (h : c'.trade.rows = c.trade.rows) : Wrote id own [] c c' :=
  ⟨[], by rw [h, List.append_nil], rfl, fun _ => List.forall_mem_nil _⟩

instance (id : ℤ) (own : Prop) : RecordOrder (Wrote id own []) where
  refl _ := wrote_of_rows rfl
  trans _ _ _ h h' := h.append h'
  of_same h _ := wrote_of_rows h

/-- The computation writes no fill row of the order. -/
abbrev Unbooked {α : Type} (id : ℤ) (own : Prop) (x : Flow α) : Prop := Within (Wrote id own []) x

theorem writes_of_unbooked (h : Unbooked id own x) : Writes id own [] x c := h c

theorem writes_pure (a : α) : Writes id own [] (pure a : Flow α) c := wrote_of_rows rfl

theorem writes_throw (e : Raised) : Writes id own [] (throw e : Flow α) c := wrote_of_rows rfl

/-- What is written before a computation and in it. -/
theorem Writes.after (h : Writes id own more x c') (h' : Wrote id own qtys c c') :
    wp x (fun _ => Wrote id own (qtys ++ more) c) (fun _ => Wrote id own (qtys ++ more) c) c' :=
  wp_mono h (fun _ _ => h'.append) (fun _ _ => h'.append)

theorem Writes.from_rows (h : Writes id own qtys x c') (hrows : c'.trade.rows = c.trade.rows) :
    wp x (fun _ => Wrote id own qtys c) (fun _ => Wrote id own qtys c) c' :=
  h.after (wrote_of_rows hrows)

/-- Nothing more is booked afterwards. -/
theorem Wrote.then_unbooked (h : Wrote id own qtys c c') (hx : Unbooked id own x) :
    wp x (fun _ => Wrote id own qtys c) (fun _ => Wrote id own qtys c) c' := by
  have hrest : ∀ c'', Wrote id own [] c' c'' → Wrote id own qtys c c'' := by
    intro c'' hc''
    simpa using h.append hc''
  exact wp_mono (hx c') (fun _ => hrest) (fun _ => hrest)

theorem Writes.then_unbooked (h : Writes id own qtys x c) (hf : ∀ a, Unbooked id own (f a)) :
    Writes id own qtys (x >>= f) c := by
  unfold Writes
  rw [wp_bind]
  exact wp_mono h (fun a c' hc' => hc'.then_unbooked (hf a)) (fun _ _ hc' => hc')

end Rules

/-- A row that neither reports a fill nor places a protective order. -/
structure PlainRow (event : TransactionEvent) : Prop where
  reportsFill : event.reportsFill = false
  placement : event.action = .placeAccepted → event.legType ∉ [LegType.profitTaker, .stopLoss]

theorem wrote_insert {id : ℤ} {own : Prop} {event : TransactionEvent} {qtys : List ℚ} (c : Ctx)
    (hqtys : (if bookRow id event then [event.filledQty] else []) = qtys)
    (h : event.action = .placeAccepted → event.legType ∉ [LegType.profitTaker, .stopLoss]) :
    Wrote id own qtys c { c with trade.rows := insert c.trade.rows event } := by
  refine ⟨[event.stored], rfl, ?_, fun _ => List.forall_mem_singleton.mpr fun _ => h⟩
  have hrow := fillQtys_insert id [] event
  rwa [hqtys] at hrow

theorem wrote_plain {id : ℤ} {own : Prop} {event : TransactionEvent} (h : PlainRow event) (c : Ctx) :
    Wrote id own [] c { c with trade.rows := insert c.trade.rows event } := by
  have hrow : bookRow id event = false := by rw [bookRow, h.reportsFill, Bool.false_and]
  exact wrote_insert c (by rw [hrow]; rfl) h.placement

theorem unbooked_writeTxn {id : ℤ} {own : Prop} {event : TransactionEvent} (h : PlainRow event) :
    Unbooked id own (writeTxn event) := within_writeTxn (wrote_plain h)

/-- A plain row before the rest. -/
theorem writes_writeTxn_bind {β : Type} {id : ℤ} {own : Prop} {qtys : List ℚ}
    {event : TransactionEvent} {f : Unit → Flow β} {c : Ctx} (h : PlainRow event)
    (hf : ∀ c', Writes id own qtys (f ()) c') : Writes id own qtys (writeTxn event >>= f) c := by
  unfold Writes
  rw [wp_bind, wp_writeTxn]
  exact (hf _).after (wrote_plain h c)

-- ============================================================================
-- Entries
-- ============================================================================

/-- IB has not given the number to a profit taker or stop loss of the command. -/
def OwnNumber (a : Replies) (id : ℤ) : Prop :=
  a.profitTaker.value ≠ .ok id ∧ a.stopLoss.value ≠ .ok id

theorem ExitStep.wrote {a : Replies} {id : ℤ} {c c' : Ctx} (h : ExitStep a c c') :
    Wrote id (OwnNumber a id) [] c c' := by
  obtain ⟨rows, hrows, hall⟩ := h.rows
  refine ⟨rows, hrows, ?_, ?_⟩
  · unfold fillQtys
    rw [List.map_eq_nil_iff, List.filter_eq_nil_iff]
    intro row hrow
    simp [bookRow, (hall row hrow).reportsFill]
  · rintro ⟨hprofit, hstop⟩ row hrow hid
    exact absurd ((hall row hrow).numbered id hid) (not_or.mpr ⟨hprofit, hstop⟩)

section Entries

variable {o : OrderContext} {cmd : Command} {a : Replies} {id : ℤ} {c : Ctx}

/-- The quantity, for the order it is booked under. -/
def bookedFor (id ibOrderId : ℤ) (qty : ℚ) : List ℚ := if ibOrderId = id then [qty] else []

theorem plainRow_entry {action : TransactionAction} {ibOrderId : Option ℤ} {qty : ℚ}
    (h : action ≠ .filled ∧ action ≠ .partialFill ∧ action ≠ .reconciled) :
    PlainRow (entryRow o action ibOrderId qty) where
  reportsFill := by simp [TransactionEvent.reportsFill, TransactionEvent.isFill, entryRow, h]
  placement _ := by simp [entryRow]

theorem wrote_fill {own : Prop} {event : TransactionEvent} {ibOrderId : ℤ} {qty : ℚ} (c : Ctx)
    (hfill : event.reportsFill = true) (hid : event.ibOrderId = some ibOrderId)
    (hqty : event.ibFilledQty = some qty) (haction : event.action ≠ .placeAccepted) :
    Wrote id own (bookedFor id ibOrderId qty) c
      { c with trade.rows := insert c.trade.rows event } := by
  refine wrote_insert c ?_ fun h => absurd h haction
  simp [bookRow, bookedFor, TransactionEvent.filledQty, hfill, hid, hqty]

/-- A full fill is booked under the order of the context. -/
theorem writes_handleFill {qtyFilled : ℚ} {avgPrice : Option ℚ} {commission : ℚ} :
    Writes id (OwnNumber a id) (bookedFor id o.ibOrderId qtyFilled)
      (handleFill o cmd a qtyFilled avgPrice commission) c := by
  unfold handleFill Writes
  rw [wp_bind, wp_updatePnl]
  have hfilled : Writes id (OwnNumber a id) (bookedFor id o.ibOrderId qtyFilled)
      (writeTxn (filledRow o qtyFilled avgPrice commission))
      { c with trade.group := c.trade.group.updatePnl none commission } :=
    wrote_fill _ rfl rfl rfl (by simp [filledRow, entryRow])
  refine Writes.from_rows (hfilled.then_unbooked fun _ => ?_) rfl
  exact (within_runIf _ (within_throw _)).bind fun _ =>
    (within_runIf _ (within_emitConsoleClosePnl _)).bind fun _ =>
      exitStep_placeExits.mono fun _ _ => ExitStep.wrote

theorem unbooked_writeCancelled {own : Prop} (o : OrderContext) (ibOrderId : ℤ) :
    Unbooked id own (writeCancelled o ibOrderId) := by
  intro c
  rw [wp_writeCancelled]
  have hplain : PlainRow
      { entryRow o .cancelled (some ibOrderId) o.qtyRequested with isTerminal := true } :=
    ⟨rfl, fun h => by cases h⟩
  exact IsTrans.trans _ _ _ (wrote_plain hplain c) (wrote_of_rows rfl)

theorem unbooked_finalizePartialCancel {own : Prop} {ibOrderId : ℤ} {resolution : Resolution}
    {probe : Reply (Option Bool)} :
    Unbooked id own (finalizePartialCancel o ibOrderId resolution probe) := by
  unfold finalizePartialCancel
  split
  · exact (unbooked_writeCancelled o ibOrderId).bind fun _ => within_pure true
  · apply (within_exceptException (within_await probe) (within_pure none)).bind
    intro stillOpen
    split
    · exact (within_hear _).bind fun _ =>
        (unbooked_writeCancelled o ibOrderId).bind fun _ => within_pure true
    · exact within_pure false

theorem writes_recordPartial {own : Prop} {ibOrderId : ℤ} {s : Settlement} {finalQty : ℚ}
    {avgPrice : Option ℚ} {commission : ℚ} :
    Writes id own (bookedFor id ibOrderId finalQty)
      (recordPartial o a ibOrderId s finalQty avgPrice commission) c := by
  have hrow : Writes id own (bookedFor id ibOrderId finalQty)
      (writeTxn (partialFillRow o ibOrderId finalQty avgPrice commission)) c :=
    wrote_fill c rfl rfl rfl (by simp [partialFillRow, entryRow])
  exact hrow.then_unbooked fun _ => (within_updatePnl _).bind fun _ =>
    unbooked_finalizePartialCancel.bind fun _ => within_pure ()

/-- What `_handle_partial` has read of an order when its cancel is settled. -/
def partReadQty (o : OrderContext) (a : Replies) (id ibOrderId : ℤ) (qtyFilled : ℚ) : List ℚ :=
  match a.settle.value with
  | .error _ => []
  | .ok reading =>
    let s := reading.settlement o.qtyRequested
    bookedFor id (if s.resolution = .filled then o.ibOrderId else ibOrderId) (s.finalQty qtyFilled)

/-- The quantity read at the endings that book one, for the order it is booked under. -/
def Ending.readQty (o : OrderContext) (a : Replies) (id : ℤ) : Ending → List ℚ
  | .filled qtyFilled _ _ => bookedFor id o.ibOrderId qtyFilled
  | .partlyFilled ibOrderId qtyFilled _ _ => partReadQty o a id ibOrderId qtyFilled
  | .marketRefused (some (qtyFilled, _, _)) => partReadQty o a id o.ibOrderId qtyFilled
  | .expired =>
    match a.settle.value with
    | .error _ => []
    | .ok reading =>
      let s := reading.settlement o.qtyRequested
      if s.resolution = .filled ∨ 0 < s.qty then bookedFor id o.ibOrderId s.qty else []
  | .raised | .rejected _ | .notRouted | .letBe | .inactive | .canceledByIb | .gaveUp
  | .marketRefused none => []

theorem writes_handlePartial {ibOrderId : ℤ} {qtyFilled : ℚ} {avgPrice : Option ℚ}
    {commission : ℚ} :
    Writes id (OwnNumber a id) (partReadQty o a id ibOrderId qtyFilled)
      (handlePartial o cmd a ibOrderId qtyFilled avgPrice commission) c := by
  unfold handlePartial
  refine writes_writeTxn_bind (plainRow_entry (by decide)) fun c => ?_
  unfold Writes partReadQty
  rw [wp_bind, wp_cancelAndAwaitResolution]
  cases a.settle.value with
  | error e => exact wrote_of_rows rfl
  | ok reading =>
    dsimp only
    refine Writes.from_rows ?_ rfl
    split
    · exact writes_handleFill
    · refine writes_recordPartial.then_unbooked fun _ => ?_
      exact (within_runIf _ (within_emitConsoleClosePnl _)).bind fun _ =>
        within_runIf _ (exitStep_placeProfitTaker.mono fun _ _ => ExitStep.wrote)

theorem unbooked_closeGroup {own : Prop} : Unbooked id own closeGroup := fun _ => wrote_of_rows rfl

theorem writes_expire :
    Writes id (OwnNumber a id) (Ending.readQty o a id .expired) (expire o cmd a) c := by
  unfold expire
  refine writes_writeTxn_bind (plainRow_entry (by decide)) fun c => ?_
  unfold Writes Ending.readQty
  rw [wp_bind, wp_cancelAndAwaitResolution]
  cases a.settle.value with
  | error e => exact wrote_of_rows rfl
  | ok reading =>
    dsimp only
    refine Writes.from_rows ?_ rfl
    by_cases hfilled : (reading.settlement o.qtyRequested).resolution = .filled
    · rw [if_pos hfilled, if_pos (.inl hfilled)]
      exact writes_handleFill
    · rw [if_neg hfilled]
      by_cases hpos : 0 < (reading.settlement o.qtyRequested).qty
      · rw [if_pos hpos, if_pos (.inr hpos)]
        exact writes_recordPartial.then_unbooked fun _ =>
          within_runIf _ (within_emitConsoleClosePnl _)
      · rw [if_neg hpos, if_neg (not_or.mpr ⟨hfilled, hpos⟩)]
        exact (unbooked_finalizePartialCancel.bind fun _ =>
          within_runIf _ unbooked_closeGroup) _

theorem plainRow_rejected : PlainRow
    { entryRow o .placeRejected (some o.ibOrderId) o.qtyRequested with isTerminal := true } :=
  ⟨rfl, fun h => by cases h⟩

/-- Every ending writes the fill row it books. -/
theorem writes_finish (ending : Ending) :
    Writes id (OwnNumber a id) (ending.readQty o a id) (finish o cmd a ending) c := by
  cases ending with
  | raised => exact writes_throw _
  | rejected status =>
    exact ((within_await _).bind fun _ => (within_runIf _ (within_hear _)).bind fun _ =>
      unbooked_closeGroup.bind fun _ => (unbooked_writeTxn plainRow_rejected).bind fun _ =>
        within_throw _) c
  | notRouted => exact ((within_await _).bind fun _ => unbooked_closeGroup) c
  | letBe => exact writes_pure ()
  | inactive =>
    exact ((within_hear _).bind fun _ =>
      (unbooked_writeTxn (plainRow_entry (by decide))).bind fun _ => (within_await _).bind fun _ =>
        unbooked_closeGroup.bind fun _ => unbooked_writeCancelled _ _) c
  | canceledByIb => exact ((within_hear _).bind fun _ => unbooked_closeGroup) c
  | gaveUp => exact (unbooked_closeGroup.bind fun _ => unbooked_writeCancelled _ _) c
  | expired => exact writes_expire
  | filled qtyFilled avgPrice commission => exact writes_handleFill
  | partlyFilled ibOrderId qtyFilled avgPrice commission => exact writes_handlePartial
  | marketRefused recorded =>
    cases recorded with
    | none => exact writes_throw _
    | some recorded => exact writes_handlePartial.then_unbooked fun _ => within_throw _

/-- The quantity an entry command has read last of an order, if its ending books it. -/
def entryReadQty (o : OrderContext) (placed : Reply Unit) (run : EntryRun) (a : Replies) (id : ℤ) :
    List ℚ :=
  match placed.value with
  | .ok () => (run.ending o).readQty o a id
  | .error _ => []

theorem writes_executeOrder {placed : Reply Unit} {run : EntryRun} :
    Writes id (OwnNumber a id) (entryReadQty o placed run a id)
      (executeOrder o cmd placed run a) c := by
  unfold executeOrder
  refine writes_writeTxn_bind (plainRow_entry (by decide)) fun c => ?_
  unfold Writes entryReadQty
  rw [wp_bind, wp_await]
  cases placed.value with
  | error e => exact wrote_of_rows rfl
  | ok u =>
    dsimp only
    refine Writes.from_rows (writes_writeTxn_bind (plainRow_entry (by decide)) fun c => ?_) rfl
    unfold Writes
    rw [wp_bind, wp_modify, wp_bind, wp_hear]
    exact Writes.from_rows (writes_finish _) rfl

end Entries

-- ============================================================================
-- Closes
-- ============================================================================

/-- What `_handle_close_partial` has read when its cancel is settled. -/
def closePartialQty (a : CloseReplies) (qty qtyFilled : ℚ) : Option ℚ :=
  match a.settlePartial.value with
  | .error _ => none
  | .ok reading => some ((reading.settlement qty).finalQty qtyFilled)

/-- What is read in the end, for a quantity read first. -/
def closeFillQty (a : CloseReplies) (qty qtyFilled : ℚ) : Option ℚ :=
  if qty ≤ qtyFilled then some qtyFilled else closePartialQty a qty qtyFilled

/-- What is read after the cancel and the polls. -/
def giveUpQty (a : CloseReplies) (qty : ℚ) : Option ℚ :=
  match a.cancel.value, a.polls.value with
  | .ok (), .ok polls => (raceFill (polls.take 10)).bind fun status => closeFillQty a qty status.qtyFilled
  | _, _ => none

/-- What is read after the wait. -/
def awaitQty (a : CloseReplies) (qty : ℚ) : Option ℚ :=
  match a.reading.value with
  | .error _ => none
  | .ok reading =>
    if reading.outcome.avgPrice.isSome = true ∧ 0 < reading.outcome.qty then
      closeFillQty a qty reading.outcome.qty
    else giveUpQty a qty

/-- What a limit close has read when it returns, if all is filled. -/
def limitQty (a : CloseReplies) (qty : ℚ) : Option ℚ :=
  match a.reading.value with
  | .error _ => none
  | .ok reading =>
    let immediate := reading.immediate
    if immediate.avgPrice.isSome = true ∧ 0 < immediate.qty ∧ qty ≤ immediate.qty then
      some immediate.qty
    else none

/-- What a smart-market close reads when its walk has used up its time. -/
def crossQty (a : CloseReplies) (qty : ℚ) : Option ℚ :=
  match a.settle.value with
  | .error _ => none
  | .ok reading =>
    let s := reading.settlement qty
    if 0 < qty - s.qty then
      match a.market.value, a.marketStatus.value with
      | .error .exception, _ => awaitQty a qty
      | .error .taskCancelled, _ => none
      | .ok _, .error _ => none
      | .ok _, .ok status =>
        let totalQty := s.qty + status.qtyFilled
        if 0 < totalQty then closeFillQty a qty totalQty else none
    else awaitQty a qty

/-- What a smart-market close reads. -/
def smartMarketQty (a : CloseReplies) (qty : ℚ) : Option ℚ :=
  match a.walk.value with
  | .error _ => none
  | .ok walk =>
    if walk.status.hitCap then none
    else if walk.rth = true ∧ walk.status = .durationExpired ∧ walk.qtyFilled < qty then crossQty a qty
    else awaitQty a qty

/-- What a close reads once its order is placed. -/
def watchQty (cmd : CloseCommand) (a : CloseReplies) (qty : ℚ) : Option ℚ :=
  if cmd.strategy = .market then awaitQty a qty
  else
    match a.ack.value with
    | .error _ => none
    | .ok ack =>
      if ackRefused ack.status then none
      else
        match cmd.strategy with
        | .limit => limitQty a qty
        | .smartMarket => smartMarketQty a qty
        | .mid | .bidAsk | .market => awaitQty a qty

section Closes

variable {k : CloseContext} {a : CloseReplies} {id : ℤ} {own : Prop} {c : Ctx}

/-- The quantity booked under the order, if one is booked. -/
def bookedForSome (id ibOrderId : ℤ) (qty : Option ℚ) : List ℚ := qty.toList.flatMap (bookedFor id ibOrderId)

@[simp] theorem bookedForSome_some (id ibOrderId : ℤ) (qty : ℚ) :
    bookedForSome id ibOrderId (some qty) = bookedFor id ibOrderId qty := by simp [bookedForSome]

theorem writes_recordClose {recorded : Recorded} {event : TransactionEvent} {qty : ℚ}
    {r : Reply Unit} (hrows : recorded.trade.rows = insert c.trade.rows event)
    (hfill : event.reportsFill = true) (hid : event.ibOrderId = some k.ibOrderId)
    (hqty : event.ibFilledQty = some qty) (haction : event.action ≠ .placeAccepted) :
    Writes id own (bookedFor id k.ibOrderId qty) (recordClose recorded r) c := by
  have hrow : Wrote id own (bookedFor id k.ibOrderId qty) c
      { c with trade.rows := insert c.trade.rows event } := wrote_fill c hfill hid hqty haction
  have hwrote : Wrote id own (bookedFor id k.ibOrderId qty) c { c with trade := recorded.trade } := by
    obtain ⟨rows, hinsert, hrest⟩ := hrow
    exact ⟨rows, hrows.trans hinsert, hrest⟩
  have hrest : Unbooked id own (do
      runIf recorded.closed (do noteTerminal (← get).orders)
      await r) := by
    apply (within_runIf _ ?_).bind fun _ => within_await r
    exact fun _ => wrote_of_rows rfl
  unfold recordClose Writes
  rw [wp_bind, wp_modify]
  exact hwrote.then_unbooked hrest

theorem writes_closeFill {qtyFilled avgPrice commission : ℚ} :
    Writes id own (bookedFor id k.ibOrderId qtyFilled) (closeFill k a qtyFilled avgPrice commission)
      c := by
  unfold closeFill Writes
  rw [wp_bind, wp_get]
  exact writes_recordClose (handleCloseFill_rows ..) rfl rfl rfl (by simp [closeFillRow])

theorem plainRow_cancelAttempt : PlainRow (cancelAttemptRow k) := ⟨rfl, fun h => by cases h⟩

theorem writes_closePartial {qtyFilled avgPrice commission : ℚ} :
    Writes id own (bookedForSome id k.ibOrderId (closePartialQty a k.qtyRequested qtyFilled))
      (closePartial k a qtyFilled avgPrice commission) c := by
  unfold closePartial
  refine writes_writeTxn_bind plainRow_cancelAttempt fun c => ?_
  unfold Writes closePartialQty
  rw [wp_bind, wp_cancelAndAwaitResolution]
  cases a.settlePartial.value with
  | error e => exact wrote_of_rows rfl
  | ok reading =>
    dsimp only
    rw [bookedForSome_some]
    split
    · exact Writes.from_rows writes_closeFill rfl
    · rw [wp_bind, wp_get]
      exact Writes.from_rows
        (writes_recordClose (recordClosePartial_rows ..) rfl rfl rfl (by simp [closePartialRow])) rfl

theorem writes_recordFill {qtyFilled avgPrice commission : ℚ} :
    Writes id own (bookedForSome id k.ibOrderId (closeFillQty a k.qtyRequested qtyFilled))
      (recordFill k a qtyFilled avgPrice commission) c := by
  unfold recordFill closeFillQty
  split
  · unfold Writes
    rw [wp_bind, wp_hear, bookedForSome_some]
    exact Writes.from_rows writes_closeFill rfl
  · exact writes_closePartial

theorem writes_giveUpClose :
    Writes id own (bookedForSome id k.ibOrderId (giveUpQty a k.qtyRequested)) (giveUpClose k a) c := by
  unfold giveUpClose giveUpQty Writes
  rw [wp_bind, wp_await]
  cases a.cancel.value with
  | error e => exact wrote_of_rows rfl
  | ok u =>
    dsimp only
    rw [wp_bind, wp_await]
    cases a.polls.value with
    | error e => exact wrote_of_rows rfl
    | ok polls =>
      dsimp only
      cases raceFill (polls.take 10) with
      | none => exact wrote_of_rows rfl
      | some status => exact Writes.from_rows writes_recordFill rfl

theorem writes_awaitClose :
    Writes id own (bookedForSome id k.ibOrderId (awaitQty a k.qtyRequested)) (awaitClose k a) c := by
  unfold awaitClose awaitQty Writes
  rw [wp_bind, wp_await]
  cases a.reading.value with
  | error e => exact wrote_of_rows rfl
  | ok reading =>
    dsimp only
    generalize reading.outcome = outcome
    cases outcome.avgPrice with
    | none => exact Writes.from_rows writes_giveUpClose rfl
    | some avgPrice =>
      by_cases hpos : 0 < outcome.qty
      · dsimp only
        rw [if_pos hpos, if_pos ⟨rfl, hpos⟩]
        exact Writes.from_rows writes_recordFill rfl
      · dsimp only
        rw [if_neg hpos, if_neg fun h => hpos h.2]
        exact Writes.from_rows writes_giveUpClose rfl

theorem writes_limitClose :
    Writes id own (bookedForSome id k.ibOrderId (limitQty a k.qtyRequested)) (limitClose k a) c := by
  unfold limitClose limitQty Writes
  rw [wp_bind, wp_await]
  cases a.reading.value with
  | error e => exact wrote_of_rows rfl
  | ok reading =>
    dsimp only
    generalize reading.immediate = immediate
    cases immediate.avgPrice with
    | none => exact wrote_of_rows rfl
    | some avgPrice =>
      by_cases hfull : 0 < immediate.qty ∧ k.qtyRequested ≤ immediate.qty
      · have hrecord : closeFillQty a k.qtyRequested immediate.qty = some immediate.qty :=
          if_pos hfull.2
        dsimp only
        rw [if_pos hfull, if_pos ⟨rfl, hfull⟩, ← hrecord]
        exact Writes.from_rows writes_recordFill rfl
      · dsimp only
        rw [if_neg hfull, if_neg fun h => hfull h.2]
        exact wrote_of_rows rfl

theorem writes_recordCrossed {s : Settlement} {status : OrderStatus} :
    Writes id own (bookedForSome id k.ibOrderId
      (if 0 < s.qty + status.qtyFilled then closeFillQty a k.qtyRequested (s.qty + status.qtyFilled)
        else none)) (recordCrossed k a s status) c := by
  unfold recordCrossed
  dsimp only
  split
  · unfold closeFillQty
    split
    · rw [bookedForSome_some]
      exact writes_closeFill
    · exact writes_closePartial
  · exact writes_pure ()

theorem writes_crossToMarket :
    Writes id own (bookedForSome id k.ibOrderId (crossQty a k.qtyRequested)) (crossToMarket k a)
      c := by
  unfold crossToMarket crossQty Writes
  rw [wp_bind, wp_cancelAndAwaitResolution]
  cases a.settle.value with
  | error e => exact wrote_of_rows rfl
  | ok reading =>
    dsimp only
    split
    case isFalse => exact Writes.from_rows writes_awaitClose rfl
    case isTrue =>
      rw [wp_bind, wp_exceptException, wp_bind, wp_await]
      cases a.market.value with
      | error e =>
        cases e with
        | exception => exact Writes.from_rows writes_awaitClose rfl
        | taskCancelled => exact wrote_of_rows rfl
      | ok marketId =>
        dsimp only
        rw [wp_pure]
        dsimp only
        rw [wp_bind, wp_modify, wp_bind, wp_await]
        cases a.marketStatus.value with
        | error e => exact wrote_of_rows rfl
        | ok status =>
          dsimp only
          rw [wp_bind, wp_runIf]
          split
          · exact Writes.from_rows writes_recordCrossed rfl
          · exact Writes.from_rows writes_recordCrossed rfl

theorem writes_smartMarketClose :
    Writes id own (bookedForSome id k.ibOrderId (smartMarketQty a k.qtyRequested))
      (smartMarketClose k a) c := by
  unfold smartMarketClose smartMarketQty Writes
  rw [wp_bind, wp_await]
  cases a.walk.value with
  | error e => exact wrote_of_rows rfl
  | ok walk =>
    dsimp only
    split
    · exact wrote_of_rows rfl
    · split
      · exact Writes.from_rows writes_crossToMarket rfl
      · exact Writes.from_rows writes_awaitClose rfl

theorem writes_watchClose {cmd : CloseCommand} :
    Writes id own (bookedForSome id k.ibOrderId (watchQty cmd a k.qtyRequested)) (watchClose cmd k a)
      c := by
  unfold watchClose watchQty
  split
  · exact writes_awaitClose
  · unfold Writes
    rw [wp_bind, wp_await]
    cases a.ack.value with
    | error e => exact wrote_of_rows rfl
    | ok ack =>
      dsimp only
      cases ackRefused ack.status with
      | true => exact Writes.from_rows (writes_of_unbooked (within_await a.ackCancel)) rfl
      | false =>
        cases cmd.strategy with
        | limit => exact Writes.from_rows writes_limitClose rfl
        | smartMarket => exact Writes.from_rows writes_smartMarketClose rfl
        | mid | bidAsk | market => exact Writes.from_rows writes_awaitClose rfl

theorem plainRow_sibling {action : TransactionAction} {leg : TransactionEvent} {terminal : Bool}
    (h : action = .cancelAttempt ∨ action = .cancelled) :
    PlainRow { siblingRow action leg with isTerminal := terminal } := by
  rcases h with rfl | rfl
  · exact ⟨rfl, fun h => by cases h⟩
  · exact ⟨rfl, fun h => by cases h⟩

/-- The cancels of the exit orders all come back. -/
def siblingsCancelled (cancelled : ℤ → Reply Unit) (legs : List (ℤ × TransactionEvent)) : Bool :=
  legs.all fun leg => (cancelled leg.1).value.isOk

/-- The cancels of the exit orders book nothing, and end the close if one raises. -/
theorem unbooked_cancelSiblings (id : ℤ) (own : Prop) {cancelled : ℤ → Reply Unit}
    (legs : List (ℤ × TransactionEvent)) (c : Ctx) :
    wp (cancelSiblings cancelled legs)
      (fun _ c' => Wrote id own [] c c' ∧ siblingsCancelled cancelled legs = true)
      (fun _ c' => Wrote id own [] c c' ∧ siblingsCancelled cancelled legs = false) c := by
  induction legs generalizing c with
  | nil => exact ⟨wrote_of_rows rfl, rfl⟩
  | cons leg later ih =>
    obtain ⟨ibOrderId, row⟩ := leg
    have hattempt : Wrote id own [] c
        { c with trade.rows := insert c.trade.rows (siblingRow .cancelAttempt row) } :=
      wrote_plain (plainRow_sibling (.inl rfl)) c
    unfold cancelSiblings
    rw [wp_bind, wp_writeTxn, wp_bind, wp_await]
    cases hvalue : (cancelled ibOrderId).value with
    | error e =>
      refine ⟨IsTrans.trans _ _ _ hattempt (wrote_of_rows rfl), ?_⟩
      simp [siblingsCancelled, hvalue, Except.isOk, Except.toBool]
    | ok u =>
      dsimp only
      rw [wp_bind, wp_writeTxn, wp_bind, wp_noteTerminal]
      have hall : siblingsCancelled cancelled ((ibOrderId, row) :: later) =
          siblingsCancelled cancelled later := by
        simp [siblingsCancelled, hvalue, Except.isOk, Except.toBool]
      have hcancelled : Wrote id own [] c { c with
          trade.rows := (Data.insert (Data.insert c.trade.rows (siblingRow .cancelAttempt row))
            { siblingRow .cancelled row with isTerminal := true }) } :=
        IsTrans.trans _ _ _ hattempt (wrote_plain (plainRow_sibling (.inr rfl)) _)
      rw [hall]
      refine wp_mono (ih _) (fun _ c' h => ⟨?_, h.2⟩) (fun _ c' h => ⟨?_, h.2⟩) <;>
      · refine IsTrans.trans _ _ _ hcancelled (IsTrans.trans _ _ _ (wrote_of_rows ?_) h.1)
        rfl

theorem plainRow_close {action : TransactionAction} {ibOrderId : Option ℤ} {side : Side}
    {qty multiplier : ℚ} (h : action = .placeAttempt ∨ action = .placeAccepted) :
    PlainRow (closeRow action ibOrderId side qty multiplier) := by
  rcases h with rfl | rfl
  · exact ⟨rfl, fun _ => by simp [closeRow, placementRow]⟩
  · exact ⟨rfl, fun _ => by simp [closeRow, placementRow]⟩

/-- The quantity a close by serial number has read last of an order, if it books it. -/
def closeReadQty (cmd : CloseCommand) (a : CloseReplies) (rows : List TransactionEvent) (id : ℤ) :
    List ℚ :=
  match getEntryFill rows, closeQuantity rows with
  | some _, some qtyToClose =>
    if siblingsCancelled a.cancelled (openExits rows) then
      match a.prepared.value, a.placed.value with
      | .ok (), .ok ibOrderId => bookedForSome id ibOrderId (watchQty cmd a qtyToClose)
      | _, _ => []
    else []
  | _, _ => []

theorem writes_executeClose {cmd : CloseCommand} :
    Writes id own (closeReadQty cmd a c.trade.rows id) (executeClose cmd a) c := by
  unfold executeClose Writes closeReadQty
  rw [wp_bind, wp_get]
  dsimp only
  cases getEntryFill c.trade.rows with
  | none => exact wrote_of_rows rfl
  | some entry =>
  cases closeQuantity c.trade.rows with
  | none => exact wrote_of_rows rfl
  | some qty =>
    dsimp only
    rw [wp_bind]
    refine wp_mono (unbooked_cancelSiblings id own (openExits c.trade.rows) c) ?_ ?_
    · rintro _ c' ⟨hc', hall⟩
      rw [if_pos hall]
      refine Writes.after ?_ hc'
      unfold Writes
      rw [wp_bind, wp_await]
      cases a.prepared.value with
      | error e => exact wrote_of_rows rfl
      | ok u =>
        dsimp only
        refine Writes.from_rows
          (writes_writeTxn_bind (plainRow_close (.inl rfl)) fun c => ?_) rfl
        unfold Writes
        rw [wp_bind, wp_await]
        cases a.placed.value with
        | error e => exact wrote_of_rows rfl
        | ok ibOrderId =>
          dsimp only
          refine Writes.from_rows
            (writes_writeTxn_bind (plainRow_close (.inr rfl)) fun c => ?_) rfl
          unfold Writes
          rw [wp_bind, wp_modify]
          exact Writes.from_rows writes_watchClose rfl
    · rintro _ c' ⟨hc', hall⟩
      rw [if_neg (by simp [hall])]
      exact hc'

end Closes

end IbTrader.Engine.OrderFlow
