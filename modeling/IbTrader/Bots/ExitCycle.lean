/-
  IbTrader.Bots.ExitCycle

  The exit orders of one cycle: the order placed for a position, and the retries for
  what it leaves.

  The retries asked for are counted in the document as long as an order is in flight,
  and what the terminal events have filled is what the position has lost (`Cycling`).
  Each event says by itself what becomes of the cycle (`CycleStep`, `exit_cycle`).
-/

import IbTrader.Bots.RoundTrip
import IbTrader.Lib.Run

namespace IbTrader.Bots.Runtime

open Lib
open Engine.OrderLedger (LedgerEvent)

-- ============================================================================
-- Retries
-- ============================================================================

/-- The parts of a bot's configuration that a retry is posted with. -/
structure EngineConfig where
  engineUrl : Option String := none
  refId : Option String := none
  botRef : Option String := none
  ref : Option String := none
  deriving DecidableEq, Repr

/-- What is posted to `/engine/orders`. -/
structure EngineOrder where
  symbol : String
  side : String
  qty : ℚ
  orderType : String
  botRef : Option String
  deriving DecidableEq, Repr

/-- A text that is not empty. -/
def present (text : Option String) : Option String := text.filter (· ≠ "")

/-- `_handle_retry_exit_order`, up to the answer of the engine; the text of a quantity is
    never empty. -/
def handleRetryExitOrder (engine : EngineConfig) (args : RetryExit) : Option EngineOrder :=
  match present args.symbol, present engine.engineUrl with
  | some symbol, some _ =>
    some
      { symbol
        side := if args.side = "" then "SELL" else args.side
        qty := args.qty
        orderType := "smart_market"
        botRef := ((present engine.refId).or (present engine.botRef)).or engine.ref }
  | _, _ => none

/-- The retries among the effects of a handler. -/
def askedRetries (effects : List Effect) : List RetryExit :=
  effects.filterMap fun
    | .retryExitOrder retry => some retry
    | .recordTradeClosed _ | .cancelOrder _ | .pagerAlert .. | .requestStop => none

theorem askedRetries_retry (retry : RetryExit) : askedRetries [.retryExitOrder retry] = [retry] := rfl

theorem askedRetries_append (a b : List Effect) : askedRetries (a ++ b) = askedRetries a ++ askedRetries b := List.filterMap_append

/-- The side that closes a position. -/
def closingSide : Direction → String
  | .long => "SELL"
  | .short => "BUY"

-- ============================================================================
-- Events
-- ============================================================================

/-- An event of the exit order in flight: a progress fill, a terminal fill up to the
    position, or a cancel without a fill. -/
def ExitEvent (config : StrategyConfig) (doc : BotDoc) (event : LedgerEvent) : Prop :=
  doc.state = .exitOrderPlaced ∧ tagged config event = true ∧
    ((event.terminal = false ∧ event.status ∈ fillStatuses) ∨
      (event.terminal = true ∧ event.status ∈ fillStatuses ∧ 0 ≤ event.filledQty ∧ event.filledQty ≤ doc.qty) ∨
      (event.terminal = true ∧ event.status ∈ cancelStatuses ∧ event.filledQty = 0))

instance (config : StrategyConfig) (doc : BotDoc) (event : LedgerEvent) : Decidable (ExitEvent config doc event) :=
  inferInstanceAs (Decidable (_ ∧ _ ∧ (_ ∨ _ ∨ _)))

/-- What the terminal events have filled. -/
def terminalFilled (events : List LedgerEvent) : ℚ := ((events.filter (·.terminal)).map (·.filledQty)).sum

theorem terminalFilled_append (events : List LedgerEvent) (event : LedgerEvent) :
    terminalFilled (events ++ [event]) = terminalFilled events + if event.terminal then event.filledQty else 0 := by
  unfold terminalFilled
  cases hterminal : event.terminal <;> simp [List.filter_append, hterminal]

/-- What an event does to a cycle that started with a quantity and has asked for some
    retries. -/
structure CycleStep (engine : EngineConfig) (direction : Direction) (symbol : Option String) (start : ℚ)
    (events : List LedgerEvent) (asked : List RetryExit) (event : LedgerEvent) (doc doc' : BotDoc)
    (effects : List Effect) : Prop where
  conserved : terminalFilled (events ++ [event]) + doc'.qty = start
  retried : ∀ retry ∈ askedRetries effects, retry.side = closingSide direction ∧ retry.qty = doc'.qty ∧ retry.symbol = symbol
  posted : ∀ retry ∈ askedRetries effects, ∀ order ∈ handleRetryExitOrder engine retry,
    order.side = closingSide direction ∧ order.qty = doc'.qty ∧ some order.symbol = symbol
  /-- With a symbol and an engine every retry that is asked for is posted. -/
  placed : (present symbol).isSome → (present engine.engineUrl).isSome →
    ∀ retry ∈ askedRetries effects, (handleRetryExitOrder engine retry).isSome
  bounded : (asked ++ askedRetries effects).length ≤ maxExitRetries
  retries_left : event.terminal = true → event.status ∈ fillStatuses → event.filledQty < doc.qty →
    asked.length < maxExitRetries → doc'.state = .exitOrderPlaced ∧ (askedRetries effects).length = 1
  exhausted : event.terminal = true → event.status ∈ fillStatuses → event.filledQty < doc.qty →
    asked.length = maxExitRetries → doc'.state = .errored ∧ doc'.qty = doc.qty - event.filledQty ∧ askedRetries effects = []
  cancelled : event.status ∈ cancelStatuses →
    doc'.state = .awaitingExitTrigger ∧ doc'.qty = doc.qty ∧ askedRetries effects = []

/-- A cycle in flight: the document counts the retries asked for. -/
structure Cycling (direction : Direction) (symbol : Option String) (asked : List RetryExit) (doc : BotDoc) : Prop where
  retries : doc.exitRetries = asked.length
  bounded : asked.length ≤ maxExitRetries
  direction : doc.positionDirection = some direction
  symbol : doc.symbol = symbol

section Steps

variable {config : StrategyConfig} {engine : EngineConfig} {direction : Direction} {symbol : Option String} {start : ℚ}
  {events : List LedgerEvent} {asked : List RetryExit} {event : LedgerEvent} {doc : BotDoc}

theorem closingSide_ne (direction : Direction) : closingSide direction ≠ "" := by
  cases direction <;> decide

/-- A retry that is posted is posted as it was asked for. -/
theorem handleRetryExitOrder_eq {retry : RetryExit} {order : EngineOrder} (hside : retry.side ≠ "")
    (h : order ∈ handleRetryExitOrder engine retry) :
    order.side = retry.side ∧ order.qty = retry.qty ∧ some order.symbol = retry.symbol := by
  unfold handleRetryExitOrder at h
  split at h
  case h_1 symbol url hsymbol hurl =>
    obtain rfl := Option.some.inj h
    exact ⟨if_neg hside, rfl, (Option.filter_eq_some_iff.mp hsymbol).1.symm⟩
  case h_2 => cases h

/-- A retry is posted where there are a symbol and an engine to post it to. -/
theorem handleRetryExitOrder_isSome {retry : RetryExit} (hsymbol : (present retry.symbol).isSome)
    (hurl : (present engine.engineUrl).isSome) : (handleRetryExitOrder engine retry).isSome := by
  obtain ⟨symbol, hsymbol⟩ := Option.isSome_iff_exists.mp hsymbol
  obtain ⟨url, hurl⟩ := Option.isSome_iff_exists.mp hurl
  rw [handleRetryExitOrder, hsymbol, hurl]
  rfl

/-- The terminal fill that leaves a residual while there are retries left. -/
theorem onExitFilled_retry {args : FillArgs} (hstate : doc.state = .exitOrderPlaced) (hterminal : args.terminal = true)
    (hrest : args.qty < doc.qty) (hleft : doc.exitRetries < maxExitRetries) :
    onExitFilled config args doc =
      some (({ doc with
               qty := doc.qty - args.qty
               orderQty := some (doc.qty - args.qty)
               filledQty := 0
               exitRetries := doc.exitRetries + 1 }).withState .exitOrderPlaced,
        [.retryExitOrder
          { symbol := doc.symbol
            qty := doc.qty - args.qty
            attempt := doc.exitRetries + 1
            side := closingSide (exitDirection args doc) }]) := by
  have hpos : max (doc.qty - args.qty) 0 = doc.qty - args.qty := max_eq_left (sub_nonneg.mpr hrest.le)
  have hne : doc.qty - args.qty ≠ 0 := ne_of_gt (sub_pos.mpr hrest)
  have hnot : ¬ maxExitRetries ≤ doc.exitRetries := by omega
  cases hdirection : exitDirection args doc <;>
    simp only [onExitFilled, hstate, if_true, hterminal, Bool.true_eq_false, if_false, hpos, hne, hnot, hdirection,
      closingSide]

/-- The terminal fill that leaves a residual when there are none. -/
theorem onExitFilled_exhausted {args : FillArgs} (hstate : doc.state = .exitOrderPlaced)
    (hterminal : args.terminal = true) (hrest : args.qty < doc.qty) (hnone : maxExitRetries ≤ doc.exitRetries) :
    onExitFilled config args doc =
      some (({ doc with
               qty := doc.qty - args.qty
               errorReason := some "exit_retries_exhausted" }).withState .errored,
        [.pagerAlert "BOT_EXIT_RETRIES_EXHAUSTED" (some (doc.qty - args.qty))]) := by
  have hpos : max (doc.qty - args.qty) 0 = doc.qty - args.qty := max_eq_left (sub_nonneg.mpr hrest.le)
  have hne : doc.qty - args.qty ≠ 0 := ne_of_gt (sub_pos.mpr hrest)
  simp only [onExitFilled, hstate, if_true, hterminal, Bool.true_eq_false, if_false, hpos, hne, hnone]

/-- A status is that of a fill or of a cancel. -/
theorem fillStatus_not_cancel {status : String} (h : status ∈ fillStatuses) : status ∉ cancelStatuses :=
  fun hcancel => cancelStatus_not_fill hcancel h

variable (engine)

theorem Cycling.progress (h : Cycling direction symbol asked doc) (hstart : terminalFilled events + doc.qty = start)
    (hstate : doc.state = .exitOrderPlaced) (htag : tagged config event = true) (hterminal : event.terminal = false)
    (hstatus : event.status ∈ fillStatuses) :
    CycleStep engine direction symbol start events asked event doc (dispatchOrderEvent config event doc).1
        (dispatchOrderEvent config event doc).2 ∧
      Cycling direction symbol (asked ++ askedRetries (dispatchOrderEvent config event doc).2)
        (dispatchOrderEvent config event doc).1 := by
  have hnot : event.terminal ≠ true := by simp [hterminal]
  rw [dispatch_fill htag hstatus, dispatchFill_exit_progress hstate hterminal]
  refine ⟨⟨?_, nofun, nofun, fun _ _ => nofun, ?_, fun h => absurd h hnot, fun h => absurd h hnot,
    fun hcancel => absurd hcancel (fillStatus_not_cancel hstatus)⟩, ?_⟩
  · rw [terminalFilled_append, hterminal, ← hstart]
    simp
  · simpa [askedRetries] using h.bounded
  · have hasked : asked ++ askedRetries [] = asked := List.append_nil asked
    rw [hasked]
    exact ⟨h.retries, h.bounded, h.direction, h.symbol⟩

theorem Cycling.flat (h : Cycling direction symbol asked doc) (hstart : terminalFilled events + doc.qty = start)
    (hstate : doc.state = .exitOrderPlaced) (htag : tagged config event = true) (hterminal : event.terminal = true)
    (hstatus : event.status ∈ fillStatuses) (hflat : event.filledQty = doc.qty) :
    CycleStep engine direction symbol start events asked event doc (dispatchOrderEvent config event doc).1
        (dispatchOrderEvent config event doc).2 ∧
      (dispatchOrderEvent config event doc).1.state ≠ .exitOrderPlaced := by
  have hle : doc.qty ≤ (fillArgs event "SELL").qty := le_of_eq hflat.symm
  have hrest : ¬ event.filledQty < doc.qty := by rw [hflat]; exact lt_irrefl _
  rw [dispatch_fill htag hstatus,
    dispatchFill_exit_terminal hstate hterminal (onExitFilled_flat config _ hstate hterminal hle)]
  have hnone : askedRetries ((if config.stopOnExit then [Effect.requestStop] else []) ++
      [.recordTradeClosed (tradeClosed config (fillArgs event "SELL") doc)]) = [] := by
    cases config.stopOnExit <;> rfl
  refine ⟨⟨?_, ?_, ?_, ?_, ?_, fun _ _ h => absurd h hrest, fun _ _ h => absurd h hrest,
    fun hcancel => absurd hcancel (fillStatus_not_cancel hstatus)⟩, ?_⟩
  · rw [terminalFilled_append, hterminal, ← hstart, if_pos rfl, hflat]
    exact add_zero _
  · dsimp only
    rw [hnone]
    exact nofun
  · dsimp only
    rw [hnone]
    exact nofun
  · dsimp only
    rw [hnone]
    exact fun _ _ => nofun
  · dsimp only
    rw [hnone, List.append_nil]
    exact h.bounded
  · cases config.stopOnExit <;> simp [applyExitFill]

theorem Cycling.retry (h : Cycling direction symbol asked doc) (hstart : terminalFilled events + doc.qty = start)
    (hstate : doc.state = .exitOrderPlaced) (htag : tagged config event = true) (hterminal : event.terminal = true)
    (hstatus : event.status ∈ fillStatuses) (hrest : event.filledQty < doc.qty) (hleft : asked.length < maxExitRetries) :
    CycleStep engine direction symbol start events asked event doc (dispatchOrderEvent config event doc).1
        (dispatchOrderEvent config event doc).2 ∧
      Cycling direction symbol (asked ++ askedRetries (dispatchOrderEvent config event doc).2)
        (dispatchOrderEvent config event doc).1 := by
  have hretries : doc.exitRetries < maxExitRetries := by rw [h.retries]; exact hleft
  have hrest' : (fillArgs event "SELL").qty < doc.qty := hrest
  rw [dispatch_fill htag hstatus,
    dispatchFill_exit_terminal hstate hterminal (onExitFilled_retry hstate hterminal hrest' hretries)]
  have hdirection : exitDirection (fillArgs event "SELL") doc = direction := by
    rw [exitDirection, h.direction, Option.getD_some]
  rw [hdirection]
  refine ⟨⟨?_, ?_, ?_, ?_, ?_, fun _ _ _ _ => ⟨rfl, rfl⟩, fun _ _ _ hexhausted => absurd hexhausted hleft.ne,
    fun hcancel => absurd hcancel (fillStatus_not_cancel hstatus)⟩, ?_⟩
  · rw [terminalFilled_append, hterminal, ← hstart, if_pos rfl]
    show terminalFilled events + event.filledQty + (doc.qty - event.filledQty) = _
    ring
  · intro retry hretry
    rw [List.mem_singleton.mp hretry]
    exact ⟨rfl, rfl, h.symbol⟩
  · intro retry hretry order horder
    rw [List.mem_singleton.mp hretry] at horder
    obtain ⟨hside, hqty, hsymbol⟩ := handleRetryExitOrder_eq (closingSide_ne direction) horder
    exact ⟨hside, hqty, hsymbol.trans h.symbol⟩
  · intro hsymbol hurl retry hretry
    rw [List.mem_singleton.mp hretry]
    exact handleRetryExitOrder_isSome (h.symbol ▸ hsymbol) hurl
  · rw [askedRetries_retry, List.length_append, List.length_singleton]
    omega
  · refine ⟨?_, ?_, h.direction, h.symbol⟩
    · rw [askedRetries_retry, List.length_append, List.length_singleton, ← h.retries]
      rfl
    · rw [askedRetries_retry, List.length_append, List.length_singleton]
      omega

theorem Cycling.exhausted (h : Cycling direction symbol asked doc) (hstart : terminalFilled events + doc.qty = start)
    (hstate : doc.state = .exitOrderPlaced) (htag : tagged config event = true) (hterminal : event.terminal = true)
    (hstatus : event.status ∈ fillStatuses) (hrest : event.filledQty < doc.qty)
    (hnone : ¬ asked.length < maxExitRetries) :
    CycleStep engine direction symbol start events asked event doc (dispatchOrderEvent config event doc).1
        (dispatchOrderEvent config event doc).2 ∧
      (dispatchOrderEvent config event doc).1.state ≠ .exitOrderPlaced := by
  have hretries : maxExitRetries ≤ doc.exitRetries := by
    rw [h.retries]
    omega
  have hrest' : (fillArgs event "SELL").qty < doc.qty := hrest
  rw [dispatch_fill htag hstatus,
    dispatchFill_exit_terminal hstate hterminal (onExitFilled_exhausted hstate hterminal hrest' hretries)]
  have hasked : ∀ qty, askedRetries [Effect.pagerAlert "BOT_EXIT_RETRIES_EXHAUSTED" qty] = [] := fun _ => rfl
  refine ⟨⟨?_, nofun, nofun, fun _ _ => nofun, ?_, fun _ _ _ hleft => absurd hleft hnone, fun _ _ _ _ => ⟨rfl, rfl, rfl⟩,
    fun hcancel => absurd hcancel (fillStatus_not_cancel hstatus)⟩, ?_⟩
  · rw [terminalFilled_append, hterminal, ← hstart, if_pos rfl]
    show terminalFilled events + event.filledQty + (doc.qty - event.filledQty) = _
    ring
  · rw [hasked, List.append_nil]
    exact h.bounded
  · exact BotState.noConfusion

theorem Cycling.cancelled (h : Cycling direction symbol asked doc) (hstart : terminalFilled events + doc.qty = start)
    (hstate : doc.state = .exitOrderPlaced) (htag : tagged config event = true) (hterminal : event.terminal = true)
    (hstatus : event.status ∈ cancelStatuses) (hzero : event.filledQty = 0) :
    CycleStep engine direction symbol start events asked event doc (dispatchOrderEvent config event doc).1
        (dispatchOrderEvent config event doc).2 ∧
      (dispatchOrderEvent config event doc).1.state ≠ .exitOrderPlaced := by
  have hnot : event.status ∉ fillStatuses := cancelStatus_not_fill hstatus
  rw [dispatch_cancel htag hterminal hstatus, dispatchCancel_exit hstate]
  refine ⟨⟨?_, nofun, nofun, fun _ _ => nofun, ?_, fun _ hfill => absurd hfill hnot, fun _ hfill => absurd hfill hnot,
    fun _ => ⟨rfl, rfl, rfl⟩⟩, BotState.noConfusion⟩
  · rw [terminalFilled_append, hterminal, ← hstart, if_pos rfl, hzero, add_zero]
    rfl
  · rw [show askedRetries ([] : List Effect) = [] from rfl, List.append_nil]
    exact h.bounded

/-- An event of a cycle in flight: the cycle goes on, or it is over. -/
theorem Cycling.step (h : Cycling direction symbol asked doc) (hstart : terminalFilled events + doc.qty = start)
    (hevent : ExitEvent config doc event) :
    CycleStep engine direction symbol start events asked event doc (dispatchOrderEvent config event doc).1
        (dispatchOrderEvent config event doc).2 ∧
      ((dispatchOrderEvent config event doc).1.state = .exitOrderPlaced →
        Cycling direction symbol (asked ++ askedRetries (dispatchOrderEvent config event doc).2)
          (dispatchOrderEvent config event doc).1) := by
  obtain ⟨hstate, htag, ⟨hterminal, hstatus⟩ | ⟨hterminal, hstatus, -, hle⟩ | ⟨hterminal, hstatus, hzero⟩⟩ := hevent
  · obtain ⟨hstep, hcycling⟩ := h.progress engine hstart hstate htag hterminal hstatus
    exact ⟨hstep, fun _ => hcycling⟩
  · rcases hle.eq_or_lt with hflat | hrest
    · obtain ⟨hstep, hover⟩ := h.flat engine hstart hstate htag hterminal hstatus hflat
      exact ⟨hstep, fun hgoes => absurd hgoes hover⟩
    · by_cases hleft : asked.length < maxExitRetries
      · obtain ⟨hstep, hcycling⟩ := h.retry engine hstart hstate htag hterminal hstatus hrest hleft
        exact ⟨hstep, fun _ => hcycling⟩
      · obtain ⟨hstep, hover⟩ := h.exhausted engine hstart hstate htag hterminal hstatus hrest hleft
        exact ⟨hstep, fun hgoes => absurd hgoes hover⟩
  · obtain ⟨hstep, hover⟩ := h.cancelled engine hstart hstate htag hterminal hstatus hzero
    exact ⟨hstep, fun hgoes => absurd hgoes hover⟩

end Steps

-- ============================================================================
-- Cycles
-- ============================================================================

/-- The retries asked for in a run. -/
def askedIn (config : StrategyConfig) (doc : BotDoc) (events : List LedgerEvent) : List RetryExit :=
  askedRetries (deliver config events doc).2

theorem askedIn_append (config : StrategyConfig) (doc : BotDoc) (events : List LedgerEvent) (event : LedgerEvent) :
    askedIn config doc (events ++ [event]) =
      askedIn config doc events ++ askedRetries ((bot config).emit ((bot config).run doc events) event) := by
  simp [askedIn, deliver, Mealy.trace_append, Mealy.trace_cons, askedRetries_append, Function.comp_def]

/-- While an order of the cycle is in flight, the cycle is counted. -/
theorem cycling_run {config : StrategyConfig} {direction : Direction} {symbol : Option String} {placed : BotDoc}
    (hplaced : Cycling direction symbol [] placed) (events : List LedgerEvent)
    (hevents : Along (bot config).next (ExitEvent config) placed events) :
    terminalFilled events + ((bot config).run placed events).qty = placed.qty ∧
      (((bot config).run placed events).state = .exitOrderPlaced →
        Cycling direction symbol (askedIn config placed events) ((bot config).run placed events)) := by
  induction events using List.reverseRecOn with
  | nil => exact ⟨zero_add _, fun _ => hplaced⟩
  | append_singleton events event ih =>
    obtain ⟨hbefore, hevent, -⟩ := (Along.append events [event]).mp hevents
    obtain ⟨hstart, hcycling⟩ := ih hbefore
    obtain ⟨hstep, hgoes⟩ := (hcycling hevent.1).step {} hstart hevent
    rw [Mealy.run_append, askedIn_append]
    exact ⟨hstep.conserved, hgoes⟩

/-- The exit orders of a cycle: whatever is filled of each, the terminal fills and what is
    left of the position add up to what there was, every retry is placed to close what is
    left, and the bot is in `ERRORED` with the rest once the retries are used up. -/
theorem exit_cycle (config : StrategyConfig) (engine : EngineConfig) {doc placed : BotDoc} {direction : Direction}
    (hdirection : doc.positionDirection = some direction) {qty : ℚ} {origin : String} {ibOrderId : Option String}
    (hplaced : onPlaceExitOrder qty origin ibOrderId doc = some (placed, [])) (events : List LedgerEvent)
    (event : LedgerEvent) (hevents : Along (bot config).next (ExitEvent config) placed (events ++ [event])) :
    CycleStep engine direction doc.symbol doc.qty events (askedIn config placed events) event
      ((bot config).run placed events) ((bot config).run placed (events ++ [event]))
      ((bot config).emit ((bot config).run placed events) event) := by
  have hstate : doc.state = .awaitingExitTrigger := by
    by_contra hne
    rw [onPlaceExitOrder, if_neg hne] at hplaced
    cases hplaced
  rw [onPlaceExitOrder, if_pos hstate] at hplaced
  have hsame := (Prod.mk.inj (Option.some.inj hplaced)).1
  have hcycling : Cycling direction doc.symbol [] placed := by
    rw [← hsame]
    exact ⟨rfl, Nat.zero_le _, hdirection, rfl⟩
  have hqty : placed.qty = doc.qty := by rw [← hsame]; rfl
  obtain ⟨hbefore, hevent, -⟩ := (Along.append events [event]).mp hevents
  obtain ⟨hstart, hgoes⟩ := cycling_run hcycling events hbefore
  rw [hqty] at hstart
  have hrun : (bot config).run placed (events ++ [event]) =
      (dispatchOrderEvent config event ((bot config).run placed events)).1 := Mealy.run_append _ _ _ _
  rw [hrun]
  exact ((hgoes hevent.1).step engine hstart hevent).1

/-- A terminal event of the bot's own orders, short of what was ordered. -/
def partialExit (filled : ℚ) : LedgerEvent where
  ibOrderId := "7"
  orderRef := ""
  symbol := "MES"
  secType := "FUT"
  conId := 7
  side := "BUY"
  terminal := true
  status := "PartialFillCancelled"
  targetQty := 10
  filledQty := filled
  avgPrice := some 100
  totalCommission := 0
  lastFillQty := none
  lastFillPrice := none

/-- A short position of ten. -/
def shortOfTen : BotDoc where
  state := .awaitingExitTrigger
  qty := 10
  positionDirection := some .short
  symbol := some "MES"

def localEngine : EngineConfig where
  engineUrl := some "http://127.0.0.1:8081"
  refId := some "short-bot"

/-- Four and then two of the ten are bought back, and a retry for the rest is placed. -/
theorem exit_cycle_short :
    let placed := ((onPlaceExitOrder 10 "exit" none shortOfTen).get rfl).1
    let bought := [partialExit 4] ++ [partialExit 2]
    terminalFilled bought + ((bot {}).run placed bought).qty = 10 ∧
      ∀ retry ∈ askedRetries ((bot {}).emit ((bot {}).run placed [partialExit 4]) (partialExit 2)),
        (handleRetryExitOrder localEngine retry).isSome := by
  have hstep := @exit_cycle {} localEngine shortOfTen _ .short rfl 10 "exit" none rfl [partialExit 4] (partialExit 2)
    (by decide +kernel)
  exact ⟨hstep.conserved, hstep.placed (by decide) (by decide)⟩

end IbTrader.Bots.Runtime
