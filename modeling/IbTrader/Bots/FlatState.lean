/-
  IbTrader.Bots.FlatState

  A bot that is off or waits for an entry has no position and no order in its
  document, and a bot that waits for an exit has a position (`Flat`).

  `FsmEvent` lists what can happen to the document between two reads of it: a
  lifecycle method, an event of one of the streams handled to its end, the
  bookkeeping of a terminal fill that runs after the strategy has been told, a
  reset.  Any of them may come at any time.  `FsmEvent.KeepsFlat` says, from the
  event and the document it finds, when `Flat` survives it: the exceptions are
  the fill that comes after the entry was given up and moves no state, the
  terminal fill of nothing, and the ways back to `AWAITING_EXIT_TRIGGER` that do
  not look at the quantity.
-/

import IbTrader.Lib.Run
import IbTrader.Bots.StateWriters

namespace IbTrader.Bots.Runtime

open Lib
open Engine.OrderLedger (LedgerEvent)

-- ============================================================================
-- The invariant
-- ============================================================================

/-- The fields `is_clean_for_start` looks at are empty. -/
structure PositionEmpty (doc : BotDoc) : Prop where
  qty : doc.qty = 0
  entryPrice : doc.entryPrice = none
  ibOrderId : BotDoc.isEmptyField doc.ibOrderId = true
  awaitingIbOrderId : BotDoc.isEmptyField doc.awaitingIbOrderId = true

/-- The state is one in which the bot holds nothing. -/
def FlatState (s : BotState) : Prop := s = .off ∨ s = .awaitingEntryTrigger

instance (s : BotState) : Decidable (FlatState s) := inferInstanceAs (Decidable (_ ∨ _))

theorem FlatState.ne_awaitingExit {s : BotState} (h : FlatState s) : s ≠ .awaitingExitTrigger := by
  rcases h with rfl | rfl <;> decide

/-- The document has the position its state says. -/
structure Flat (doc : BotDoc) : Prop where
  empty : FlatState doc.state → PositionEmpty doc
  holding : doc.state = .awaitingExitTrigger → doc.qty ≠ 0

theorem positionEmpty_iff (doc : BotDoc) :
    PositionEmpty doc ↔ doc.qty = 0 ∧ doc.entryPrice = none ∧
      BotDoc.isEmptyField doc.ibOrderId = true ∧
      BotDoc.isEmptyField doc.awaitingIbOrderId = true :=
  ⟨fun h => ⟨h.qty, h.entryPrice, h.ibOrderId, h.awaitingIbOrderId⟩,
    fun ⟨hqty, hprice, hid, hawaiting⟩ => ⟨hqty, hprice, hid, hawaiting⟩⟩

theorem flat_iff (doc : BotDoc) :
    Flat doc ↔ (FlatState doc.state → PositionEmpty doc) ∧
      (doc.state = .awaitingExitTrigger → doc.qty ≠ 0) :=
  ⟨fun h => ⟨h.empty, h.holding⟩, fun ⟨hempty, hholding⟩ => ⟨hempty, hholding⟩⟩

instance (doc : BotDoc) : Decidable (PositionEmpty doc) :=
  decidable_of_iff' _ (positionEmpty_iff doc)

instance (doc : BotDoc) : Decidable (Flat doc) := decidable_of_iff' _ (flat_iff doc)

/-- A document is clean for a start when the bot is off and the fields are
    empty. -/
theorem isCleanForStart_iff (doc : BotDoc) :
    BotDoc.isCleanForStart (some doc) = none ↔ doc.state = .off ∧ PositionEmpty doc := by
  rw [positionEmpty_iff]
  simp only [BotDoc.isCleanForStart]
  split_ifs <;> simp_all

/-- A flat bot that is off passes the check of `/start`. -/
theorem Flat.isCleanForStart {doc : BotDoc} (h : Flat doc) (hoff : doc.state = .off) :
    BotDoc.isCleanForStart (some doc) = none :=
  (isCleanForStart_iff doc).mpr ⟨hoff, h.empty (.inl hoff)⟩

-- ============================================================================
-- The events
-- ============================================================================

/-- The leg `_apply_fill` is told. -/
inductive FillLeg where
  | entry
  | exit
  deriving DecidableEq, Repr

/-- What happens to the document. -/
inductive FsmEvent where
  | transition (t : Transition)
  | forceOff (reason : Option String)
  | orderUpdate (event : LedgerEvent)
  | applyFill (leg : FillLeg) (args : FillArgs)
  | positionEvent (ibQty : ℚ) (verified : Option ℚ)
  | reconciled (qty avgPrice : Option ℚ)
  | strategyPatch (fields : StateFields)
  deriving DecidableEq, Repr

/-- The reverts of `_run_pipeline`: to a state an order is placed from, and to no
    other. -/
def pipelineRevert (prior : BotState) : Handler := fun doc =>
  if prior = .awaitingEntryTrigger ∨ prior = .awaitingExitTrigger then revertToState prior doc
  else none

/-- `_apply_fill`. -/
def applyFill (leg : FillLeg) (args : FillArgs) (doc : BotDoc) : BotDoc :=
  match leg with
  | .entry => applyEntryFill args doc
  | .exit => applyExitFill args doc

/-- `_apply_position_event` to its end. -/
def positionEvent (ibQty : ℚ) (verified : Option ℚ) (doc : BotDoc) : BotDoc :=
  match applyPositionEvent ibQty verified doc with
  | some reduced => if reduced.qty = 0 then (handled onManualClose reduced).1 else reduced
  | none =>
    if doc.state = .off ∨ doc.state = .errored ∨ doc.state = .awaitingEntryTrigger then doc
    else if doc.qty ≤ |ibQty| then doc
    else match verified with
      | none => doc
      | some verified =>
        -- more than the bot tracks: it parks itself for a review
        if doc.qty < verified then (handled onIbPositionMismatch doc).1 else doc

/-- The fields a strategy may patch: not the position and not its entry price. -/
def strategyPatch (fields : StateFields) (doc : BotDoc) : BotDoc :=
  writeState { fields with qty := none, entryPrice := none } doc

/-- The document an event leaves. -/
def FsmEvent.apply (config : StrategyConfig) (doc : BotDoc) : FsmEvent → BotDoc
  | .transition (.revertToState prior) => (handled (pipelineRevert prior) doc).1
  | .transition t => (handled (t.handler config) doc).1
  | .forceOff reason => doc.forceOffState reason
  | .orderUpdate event => (dispatchOrderEvent config event doc).1
  | .applyFill leg args => Runtime.applyFill leg args doc
  | .positionEvent ibQty verified => Runtime.positionEvent ibQty verified doc
  | .reconciled qty avgPrice => applyReconciled qty avgPrice doc
  | .strategyPatch fields => Runtime.strategyPatch fields doc

/-- An event that leaves a flat document flat, from the event and the document it
    finds. -/
def FsmEvent.KeepsFlat (config : StrategyConfig) (doc : BotDoc) : FsmEvent → Prop
  -- the reverts to `AWAITING_EXIT_TRIGGER` take the quantity as it is
  | .transition (.revertToState prior) => prior = .awaitingExitTrigger → doc.qty ≠ 0
  | .transition .exitCancelled | .transition .forceQuitCancelAndReplace =>
    doc.state = .exitOrderPlaced → doc.qty ≠ 0
  -- a progress fill writes the quantity and moves no state
  | .transition (.entryFilled args) =>
    doc.state = .awaitingEntryTrigger → args.terminal = false → args.qty = 0
  | .transition _ => True
  | .orderUpdate event =>
    tagged config event = true →
      (event.status ∈ fillStatuses → doc.state = .awaitingEntryTrigger →
        event.terminal = false → event.filledQty = 0) ∧
      -- a terminal fill of nothing clears the document and `_apply_fill` writes over it
      (event.status ∈ fillStatuses →
        doc.state = .entryOrderPlaced ∨ doc.state = .awaitingEntryTrigger →
        event.terminal = true → event.filledQty ≠ 0) ∧
      (event.status ∈ cancelStatuses → event.terminal = true → doc.state = .exitOrderPlaced →
        doc.qty ≠ 0)
  | .applyFill .entry args =>
    (FlatState doc.state → args.qty = 0 ∧ doc.entryTimeSet = true) ∧
      (doc.state = .awaitingExitTrigger → args.qty ≠ 0)
  | .applyFill .exit _ => True
  | .reconciled qty _ =>
    (FlatState doc.state → qty.getD 0 = 0) ∧
      (doc.state = .awaitingExitTrigger → qty ≠ some 0)
  | .forceOff _ | .positionEvent .. | .strategyPatch _ => True

instance (config : StrategyConfig) (doc : BotDoc) (e : FsmEvent) :
    Decidable (e.KeepsFlat config doc) := by
  unfold FsmEvent.KeepsFlat
  split <;> infer_instance

-- ============================================================================
-- What each event leaves
-- ============================================================================

/-- The bot has an order in flight or waits for the operator. -/
def Busy (s : BotState) : Prop := s = .errored ∨ s = .entryOrderPlaced ∨ s = .exitOrderPlaced

theorem flat_of_busy {doc : BotDoc} (h : Busy doc.state) : Flat doc := by
  constructor
  · rintro (hs | hs) <;> rcases h with h | h | h <;> rw [hs] at h <;> cases h
  · intro hs
    rcases h with h | h | h <;> rw [hs] at h <;> cases h

theorem flat_of_empty {doc : BotDoc} (hempty : PositionEmpty doc) (hstate : FlatState doc.state) :
    Flat doc :=
  ⟨fun _ => hempty, fun hexit => absurd hexit hstate.ne_awaitingExit⟩

theorem flat_of_holding {doc : BotDoc} (hqty : doc.qty ≠ 0)
    (hstate : doc.state = .awaitingExitTrigger) : Flat doc :=
  ⟨fun hflat => absurd hstate hflat.ne_awaitingExit, fun _ => hqty⟩

theorem flat_awaitingExit_iff {doc : BotDoc} (hstate : doc.state = .awaitingExitTrigger) :
    Flat doc ↔ doc.qty ≠ 0 :=
  ⟨fun h => h.holding hstate, fun h => flat_of_holding h hstate⟩

/-- What the clears leave is empty, whatever else is written beside them. -/
theorem positionEmpty_of_cleared {doc : BotDoc} (hqty : doc.qty = 0) (hprice : doc.entryPrice = none)
    (hid : doc.ibOrderId = none) (hawaiting : doc.awaitingIbOrderId = none) :
    PositionEmpty doc :=
  ⟨hqty, hprice, by rw [hid]; rfl, by rw [hawaiting]; rfl⟩

section Step

variable {config : StrategyConfig} {doc : BotDoc}

/-- What the clears leave is flat in a state that holds nothing. -/
theorem flat_of_cleared {doc : BotDoc} (hstate : FlatState doc.state) (hqty : doc.qty = 0)
    (hprice : doc.entryPrice = none) (hid : doc.ibOrderId = none)
    (hawaiting : doc.awaitingIbOrderId = none) : Flat doc :=
  flat_of_empty (positionEmpty_of_cleared hqty hprice hid hawaiting) hstate

/-- An exit fill clears the document or leaves the bot busy. -/
theorem onExitFilled_flat_state (args : FillArgs) (h : Flat doc) :
    Flat (handled (onExitFilled config args) doc).1 := by
  simp only [handled, onExitFilled]
  split
  case isFalse => exact h
  case isTrue hs =>
    split
    · exact flat_of_busy (.inr (.inr hs))
    · split
      · refine flat_of_cleared ?_ rfl rfl rfl rfl
        show FlatState (if config.stopOnExit = true then BotState.off else .awaitingEntryTrigger)
        split
        · exact .inl rfl
        · exact .inr rfl
      · split
        · exact flat_of_busy (.inl rfl)
        · exact flat_of_busy (.inr (.inr rfl))

/-- The lifecycle methods but for four clear the fields or leave the bot busy. -/
theorem transition_flat (t : Transition) (h : Flat doc)
    (hrevert : ∀ prior, t ≠ .revertToState prior) (hexit : t ≠ .exitCancelled)
    (hquit : t ≠ .forceQuitCancelAndReplace) (hfill : ∀ args, t ≠ .entryFilled args) :
    Flat (handled (t.handler config) doc).1 := by
  cases t with
  | revertToState prior => exact absurd rfl (hrevert prior)
  | exitCancelled => exact absurd rfl hexit
  | forceQuitCancelAndReplace => exact absurd rfl hquit
  | entryFilled args => exact absurd rfl (hfill args)
  | exitFilled args => exact onExitFilled_flat_state args h
  | forceStop => exact flat_of_busy (.inl rfl)
  | start symbol =>
    simp only [Transition.handler, handled, onStart]
    split
    · exact flat_of_cleared (.inr rfl) rfl rfl rfl rfl
    · exact h
  | stop =>
    simp only [Transition.handler, handled, onStop]
    split
    · exact h
    · exact flat_of_cleared (.inl rfl) rfl rfl rfl rfl
  | crash =>
    simp only [Transition.handler, handled, onCrash]
    split
    · exact h
    · exact flat_of_busy (.inl rfl)
  | ibPositionMismatch =>
    simp only [Transition.handler, handled, onIbPositionMismatch]
    split
    · exact h
    · exact flat_of_busy (.inl rfl)
  | placeEntryOrder symbol qty origin id serial =>
    simp only [Transition.handler, handled, onPlaceEntryOrder]
    split
    · exact flat_of_busy (.inr (.inl rfl))
    · exact h
  | placeExitOrder qty origin id =>
    simp only [Transition.handler, handled, onPlaceExitOrder]
    split
    · exact flat_of_busy (.inr (.inr rfl))
    · exact h
  | captureOrderId cmdId =>
    simp only [Transition.handler, handled, captureOrderId]
    split
    case isTrue hplaced => exact flat_of_busy (.inr hplaced)
    case isFalse => exact h
  | entryTimeout =>
    simp only [Transition.handler, handled, onEntryTimeout]
    split
    · exact flat_of_cleared (.inr rfl) rfl rfl rfl rfl
    · exact h
  | manualClose =>
    simp only [Transition.handler, handled, onManualClose]
    split
    · exact flat_of_cleared (.inr rfl) rfl rfl rfl rfl
    · exact h
  | entryCancelled =>
    simp only [Transition.handler, handled, onEntryCancelled]
    split
    · exact flat_of_cleared (.inr rfl) rfl rfl rfl rfl
    · exact h

/-- The reverts to `AWAITING_EXIT_TRIGGER` keep the quantity. -/
theorem pipelineRevert_flat_iff (prior : BotState) (h : Flat doc) :
    Flat (handled (pipelineRevert prior) doc).1 ↔
      (prior = .awaitingExitTrigger → doc.qty ≠ 0) := by
  unfold pipelineRevert
  by_cases hentry : prior = .awaitingEntryTrigger
  · subst hentry
    refine iff_of_true ?_ (fun hexit => nomatch hexit)
    exact flat_of_cleared (.inr rfl) rfl rfl rfl rfl
  · by_cases hexit : prior = .awaitingExitTrigger
    · subst hexit
      exact (flat_awaitingExit_iff rfl).trans ⟨fun hqty _ => hqty, fun hqty => hqty rfl⟩
    · simp only [handled, hentry, hexit, or_self, if_false, Option.getD_none, false_imp_iff]
      exact iff_true_intro h

/-- Giving up an exit order goes back to a position of the quantity it finds. -/
theorem exitGivenUp_flat_iff (h : Flat doc) :
    Flat (handled onExitCancelled doc).1 ↔ (doc.state = .exitOrderPlaced → doc.qty ≠ 0) := by
  by_cases hs : doc.state = .exitOrderPlaced
  · simp only [handled, onExitCancelled, if_pos hs, Option.getD_some]
    exact (flat_awaitingExit_iff rfl).trans ⟨fun hqty _ => hqty, fun hqty => hqty hs⟩
  · have hkept : (handled onExitCancelled doc).1 = doc := by
      simp only [handled, onExitCancelled, if_neg hs, Option.getD_none]
    rw [hkept]
    exact iff_of_true h fun hexit => absurd hexit hs

/-- A progress fill that finds the bot awaiting an entry gives it a quantity. -/
theorem entryProgress_flat_iff {qty price : ℚ} (h : Flat doc)
    (hs : doc.state = .entryOrderPlaced ∨ doc.state = .awaitingEntryTrigger) :
    Flat { doc with filledQty := qty, qty := qty, avgPrice := some price } ↔
      (doc.state = .awaitingEntryTrigger → qty = 0) := by
  rcases hs with hs | hs
  · refine iff_of_true (flat_of_busy (.inr (.inl hs))) ?_
    rw [hs]
    exact fun hentry => nomatch hentry
  · have hempty := h.empty (.inr hs)
    constructor
    · intro hflat _
      exact (hflat.empty (.inr hs)).qty
    · intro hqty
      exact flat_of_empty
        ⟨hqty hs, hempty.entryPrice, hempty.ibOrderId, hempty.awaitingIbOrderId⟩ (.inr hs)

theorem onEntryFilled_flat_iff (args : FillArgs) (h : Flat doc) :
    Flat (handled (onEntryFilled args) doc).1 ↔
      (doc.state = .awaitingEntryTrigger → args.terminal = false → args.qty = 0) := by
  by_cases hs : doc.state = .entryOrderPlaced ∨ doc.state = .awaitingEntryTrigger
  · cases hterminal : args.terminal with
    | false =>
      simp only [handled, onEntryFilled, if_pos hs, hterminal, if_true, Option.getD_some,
        forall_const]
      exact entryProgress_flat_iff h hs
    | true =>
      simp only [handled, onEntryFilled, if_pos hs, hterminal, Bool.true_eq_false, if_false,
        false_imp_iff, imp_true_iff, iff_true]
      split
      case isTrue => exact flat_of_cleared (.inr rfl) rfl rfl rfl rfl
      case isFalse hqty => exact flat_of_holding hqty rfl
  · simp only [handled, onEntryFilled, if_neg hs, Option.getD_none]
    exact iff_of_true h fun hentry => absurd (.inr hentry) hs

/-- `_apply_fill` on the entry leg writes the quantity it is told, and an entry
    price where there is no entry time. -/
theorem applyEntryFill_flat_iff (args : FillArgs) (h : Flat doc) :
    Flat (applyEntryFill args doc) ↔
      (FlatState doc.state → args.qty = 0 ∧ doc.entryTimeSet = true) ∧
        (doc.state = .awaitingExitTrigger → args.qty ≠ 0) := by
  by_cases hflat : FlatState doc.state
  · have hempty := h.empty hflat
    constructor
    · intro happlied
      have hwritten := happlied.empty hflat
      refine ⟨fun _ => ⟨hwritten.qty, ?_⟩, fun hexit => absurd hexit hflat.ne_awaitingExit⟩
      by_contra htime
      have hprice : (applyEntryFill args doc).entryPrice = some args.price := if_neg htime
      rw [hwritten.entryPrice] at hprice
      cases hprice
    · rintro ⟨hfill, -⟩
      obtain ⟨hqty, htime⟩ := hfill hflat
      have hprice : (applyEntryFill args doc).entryPrice = none :=
        (if_pos htime).trans hempty.entryPrice
      exact flat_of_empty ⟨hqty, hprice, hempty.ibOrderId, hempty.awaitingIbOrderId⟩ hflat
  · by_cases hexit : doc.state = .awaitingExitTrigger
    · have hiff : Flat (applyEntryFill args doc) ↔ args.qty ≠ 0 := flat_awaitingExit_iff hexit
      rw [hiff]
      exact ⟨fun hqty => ⟨fun hs => absurd hs hflat, fun _ => hqty⟩, fun hqty => hqty.2 hexit⟩
    · refine iff_of_true ⟨fun hs => absurd hs hflat, fun hs => absurd hs hexit⟩ ?_
      exact ⟨fun hs => absurd hs hflat, fun hs => absurd hs hexit⟩

/-- `_apply_fill` on the exit leg writes the average price alone. -/
theorem applyExitFill_flat (args : FillArgs) (h : Flat doc) : Flat (applyExitFill args doc) :=
  ⟨fun hs => ⟨(h.empty hs).qty, (h.empty hs).entryPrice, (h.empty hs).ibOrderId,
    (h.empty hs).awaitingIbOrderId⟩, h.holding⟩

theorem reconciled_flat_iff (qty avgPrice : Option ℚ) (h : Flat doc) :
    Flat (applyReconciled qty avgPrice doc) ↔
      (FlatState doc.state → qty.getD 0 = 0) ∧
        (doc.state = .awaitingExitTrigger → qty ≠ some 0) := by
  by_cases hflat : FlatState doc.state
  · have hempty := h.empty hflat
    have hqty : (applyReconciled qty avgPrice doc).qty = qty.getD 0 := by
      show qty.getD doc.qty = _
      rw [hempty.qty]
    constructor
    · intro happlied
      refine ⟨fun _ => ?_, fun hexit => absurd hexit hflat.ne_awaitingExit⟩
      rw [← hqty]
      exact (happlied.empty hflat).qty
    · rintro ⟨hzero, -⟩
      exact flat_of_empty ⟨hqty.trans (hzero hflat), hempty.entryPrice, hempty.ibOrderId,
        hempty.awaitingIbOrderId⟩ hflat
  · by_cases hexit : doc.state = .awaitingExitTrigger
    · have hiff : Flat (applyReconciled qty avgPrice doc) ↔ qty.getD doc.qty ≠ 0 :=
        flat_awaitingExit_iff hexit
      have hheld := h.holding hexit
      rw [hiff]
      constructor
      · intro hne
        refine ⟨fun hs => absurd hs hflat, fun _ hzero => hne ?_⟩
        rw [hzero, Option.getD_some]
      · rintro ⟨-, hne⟩
        cases qty with
        | none => exact hheld
        | some q => exact fun hzero => hne hexit (congrArg some hzero)
    · refine iff_of_true ⟨fun hs => absurd hs hflat, fun hs => absurd hs hexit⟩ ?_
      exact ⟨fun hs => absurd hs hflat, fun hs => absurd hs hexit⟩

theorem strategyPatch_flat (fields : StateFields) (h : Flat doc) : Flat (strategyPatch fields doc) :=
  ⟨fun hs => ⟨(h.empty hs).qty, (h.empty hs).entryPrice, (h.empty hs).ibOrderId,
    (h.empty hs).awaitingIbOrderId⟩, h.holding⟩

/-- A reduction is of a bot that is not off and not waiting for an entry. -/
theorem applyPositionEvent_some {ibQty : ℚ} {verified : Option ℚ} {reduced : BotDoc}
    (h : applyPositionEvent ibQty verified doc = some reduced) :
    reduced.state = doc.state ∧ (Busy doc.state ∨ doc.state = .awaitingExitTrigger) := by
  simp only [applyPositionEvent] at h
  split_ifs at h with hidle
  cases verified with
  | none => cases h
  | some v =>
    dsimp only at h
    split_ifs at h
    cases h
    refine ⟨rfl, ?_⟩
    cases hs : doc.state with
    | off => exact absurd (.inl hs) hidle
    | errored => exact .inl (.inl rfl)
    | awaitingEntryTrigger => exact absurd (.inr (.inr hs)) hidle
    | entryOrderPlaced => exact .inl (.inr (.inl rfl))
    | awaitingExitTrigger => exact .inr rfl
    | exitOrderPlaced => exact .inl (.inr (.inr rfl))

/-- A position event brought to its end leaves no empty position behind. -/
theorem positionEvent_flat (ibQty : ℚ) (verified : Option ℚ) (h : Flat doc) :
    Flat (positionEvent ibQty verified doc) := by
  unfold positionEvent
  cases happly : applyPositionEvent ibQty verified doc with
  | some reduced =>
    obtain ⟨hstate, hbusy⟩ := applyPositionEvent_some happly
    dsimp only
    split
    case isTrue =>
      simp only [handled, onManualClose]
      split
      case isTrue => exact flat_of_cleared (.inr rfl) rfl rfl rfl rfl
      case isFalse hrefused =>
        refine flat_of_busy (hstate ▸ hbusy.resolve_right fun hexit => hrefused (.inl ?_))
        rw [hstate, hexit]
    case isFalse hqty =>
      rcases hbusy with hbusy | hexit
      · exact flat_of_busy (hstate ▸ hbusy)
      · exact flat_of_holding hqty (hstate.trans hexit)
  | none =>
    dsimp only
    split_ifs
    · exact h
    · exact h
    · cases verified with
      | none => exact h
      | some v =>
        dsimp only
        split
        · simp only [handled, onIbPositionMismatch]
          split
          · exact h
          · exact flat_of_busy (.inl rfl)
        · exact h

/-- A fill: late progress gives a quantity to a bot that waits for an entry, and a
    terminal fill of nothing an entry price. -/
theorem dispatchFill_flat_iff (event : LedgerEvent) (h : Flat doc) :
    Flat (dispatchFill config event doc).1 ↔
      (doc.state = .awaitingEntryTrigger → event.terminal = false → event.filledQty = 0) ∧
        (doc.state = .entryOrderPlaced ∨ doc.state = .awaitingEntryTrigger →
          event.terminal = true → event.filledQty ≠ 0) := by
  by_cases hentry : doc.state = .entryOrderPlaced ∨ doc.state = .awaitingEntryTrigger
  · cases hterminal : event.terminal with
    | false =>
      rw [dispatchFill_entry_progress hentry hterminal, entryProgress_flat_iff h hentry]
      simp
    | true =>
      rw [dispatchFill_entry_terminal hentry hterminal]
      dsimp only
      split
      case isTrue hqty =>
        have hcleared : Flat (doc.clearPositionFields.withState .awaitingEntryTrigger) :=
          flat_of_cleared (.inr rfl) rfl rfl rfl rfl
        rw [applyEntryFill_flat_iff _ hcleared]
        constructor
        · rintro ⟨hfill, -⟩
          cases (hfill (.inr rfl)).2
        · rintro ⟨-, hne⟩
          exact absurd hqty (hne hentry rfl)
      case isFalse hqty =>
        have hactive : Flat (entryActivated (fillArgs event "BUY") doc) := flat_of_holding hqty rfl
        rw [applyEntryFill_flat_iff _ hactive]
        refine iff_of_true ⟨fun hs => absurd rfl hs.ne_awaitingExit, fun _ => hqty⟩ ?_
        exact ⟨fun _ hprogress => (nomatch hprogress), fun _ _ => hqty⟩
  · refine iff_of_true ?_
      ⟨fun hs => absurd (.inr hs) hentry, fun hs => absurd hs hentry⟩
    by_cases hexit : doc.state = .exitOrderPlaced
    · rw [dispatchFill_exit hexit]
      have hfilled : Flat (handled (onExitFilled config (fillArgs event "SELL")) doc).1 :=
        onExitFilled_flat_state _ h
      dsimp only
      split
      · exact applyExitFill_flat _ hfilled
      · exact hfilled
    · rw [dispatchFill_ignored]
      · exact h
      · cases hs : doc.state with
        | off => exact .inl rfl
        | errored => exact .inr (.inl rfl)
        | awaitingExitTrigger => exact .inr (.inr rfl)
        | awaitingEntryTrigger => exact absurd (.inr hs) hentry
        | entryOrderPlaced => exact absurd (.inl hs) hentry
        | exitOrderPlaced => exact absurd hs hexit

theorem dispatchCancel_flat_iff (h : Flat doc) :
    Flat (dispatchCancel doc).1 ↔ (doc.state = .exitOrderPlaced → doc.qty ≠ 0) := by
  by_cases hexit : doc.state = .exitOrderPlaced
  · rw [dispatchCancel_exit hexit]
    exact (flat_awaitingExit_iff rfl).trans ⟨fun hqty _ => hqty, fun hqty => hqty hexit⟩
  · refine iff_of_true ?_ fun hs => absurd hs hexit
    by_cases hentry : doc.state = .entryOrderPlaced
    · rw [dispatchCancel_entry hentry]
      exact flat_of_cleared (.inr rfl) rfl rfl rfl rfl
    · rw [dispatchCancel_ignored hentry hexit]
      exact h

/-- An order event keeps `Flat` exactly when the branch it takes does. -/
theorem orderUpdate_flat_iff (event : LedgerEvent) (h : Flat doc) :
    Flat (dispatchOrderEvent config event doc).1 ↔
      (FsmEvent.orderUpdate event).KeepsFlat config doc := by
  simp only [FsmEvent.KeepsFlat]
  cases htag : tagged config event with
  | false =>
    rw [dispatch_of_not_tagged htag]
    exact iff_of_true h fun hours => (nomatch hours)
  | true =>
    by_cases hfill : event.status ∈ fillStatuses
    · have hcancel : event.status ∉ cancelStatuses := fun hc => cancelStatus_not_fill hc hfill
      rw [dispatch_fill htag hfill, dispatchFill_flat_iff event h]
      simp [hfill, hcancel]
    · by_cases hcancel : event.terminal = true ∧ event.status ∈ cancelStatuses
      · rw [dispatch_cancel htag hcancel.1 hcancel.2, dispatchCancel_flat_iff h]
        simp [hfill, hcancel.1, hcancel.2]
      · rw [dispatch_other hfill hcancel]
        refine iff_of_true h fun _ => ⟨fun hf => absurd hf hfill, fun hf => absurd hf hfill, ?_⟩
        exact fun hstatus hterminal => absurd ⟨hterminal, hstatus⟩ hcancel

/-- Every event: a flat document stays flat exactly when the event is one that
    keeps it so. -/
theorem apply_flat_iff (e : FsmEvent) (h : Flat doc) :
    Flat (e.apply config doc) ↔ e.KeepsFlat config doc := by
  cases e with
  | transition t =>
    cases t with
    | revertToState prior => exact pipelineRevert_flat_iff prior h
    | exitCancelled => exact exitGivenUp_flat_iff h
    | forceQuitCancelAndReplace => exact exitGivenUp_flat_iff h
    | entryFilled args => exact onEntryFilled_flat_iff args h
    | start | stop | forceStop | crash | ibPositionMismatch | placeEntryOrder | placeExitOrder
    | captureOrderId | entryTimeout | manualClose | entryCancelled | exitFilled =>
      refine iff_of_true ?_ trivial
      refine transition_flat _ h ?_ ?_ ?_ ?_
      · rintro _ ⟨⟩
      · rintro ⟨⟩
      · rintro ⟨⟩
      · rintro _ ⟨⟩
  | forceOff reason => exact iff_of_true (flat_of_cleared (.inl rfl) rfl rfl rfl rfl) trivial
  | orderUpdate event => exact orderUpdate_flat_iff event h
  | applyFill leg args =>
    cases leg with
    | entry => exact applyEntryFill_flat_iff args h
    | exit => exact iff_of_true (applyExitFill_flat args h) trivial
  | positionEvent ibQty verified =>
    exact iff_of_true (positionEvent_flat ibQty verified h) trivial
  | reconciled qty avgPrice => exact reconciled_flat_iff qty avgPrice h
  | strategyPatch fields => exact iff_of_true (strategyPatch_flat fields h) trivial

end Step

-- ============================================================================
-- Runs
-- ============================================================================

/-- A run that starts flat is flat throughout exactly when each of its events keeps
    the document it finds flat. -/
theorem flat_throughout_iff (config : StrategyConfig) {doc : BotDoc} (hdoc : Flat doc)
    (events : List FsmEvent) :
    (∀ es, es <+: events → Flat (es.foldl (FsmEvent.apply config) doc)) ↔
      Along (FsmEvent.apply config) (fun d e => e.KeepsFlat config d) doc events :=
  Along.iff_forall_prefix (I := fun _ => True) (fun _ _ _ => trivial)
    (fun _ e _ hflat => apply_flat_iff e hflat) events trivial hdoc

/-- An event of order 17, which buys ten. -/
def buyEvent (status : String) (terminal : Bool) (filledQty : ℚ) : LedgerEvent where
  ibOrderId := "17"
  orderRef := "IBT:host:bot"
  symbol := "MGC"
  secType := "FUT"
  conId := 1
  side := "BUY"
  terminal := terminal
  status := status
  targetQty := 10
  filledQty := filledQty
  avgPrice := some 100
  totalCommission := 0
  lastFillQty := some filledQty
  lastFillPrice := some 100

/-- A bot that starts and places order 17. -/
def entryPlaced : List FsmEvent :=
  [.transition (.start (some "MGC")),
    .transition (.placeEntryOrder "MGC" 10 "strategy" (some pendingOrderId) none),
    .transition (.captureOrderId "17")]

/-- An entry filled in two parts keeps the document flat. -/
theorem flat_throughout_filled :
    Flat ((entryPlaced ++ [FsmEvent.orderUpdate (buyEvent "PartiallyFilled" false 4),
      FsmEvent.orderUpdate (buyEvent "Filled" true 10)]).foldl (FsmEvent.apply {}) {}) :=
  (flat_throughout_iff {} (by decide +kernel) _).mpr (by decide +kernel) _ (List.prefix_refl _)

/-- `Flat` does not hold throughout: the entry times out, and a part of it that had
    filled is reported afterwards. -/
theorem flat_throughout_fails :
    ¬∀ (config : StrategyConfig) (doc : BotDoc), Flat doc → ∀ events : List FsmEvent,
      Flat (events.foldl (FsmEvent.apply config) doc) := by
  intro hall
  have hlate := hall {} {} (by decide +kernel)
    (entryPlaced ++ [.transition .entryTimeout,
      .orderUpdate (buyEvent "PartiallyFilled" false 4)])
  exact absurd hlate (by decide +kernel)

end IbTrader.Bots.Runtime
