/-
  IbTrader.Bots.RoundTrip

  The profit a bot records for a round trip.

  A position is opened by the terminal event of an entry order and worked out of
  by exit orders, one after the other: each is the retry `on_exit_filled` has
  just asked for, or a new order placed from `AWAITING_EXIT_TRIGGER`.  Every
  order is followed through the events the ledger emits for it.  Only the order
  that leaves the position flat is recorded, with the quantity that was left for
  it, so what earlier exit orders filled is in the record only when it comes to
  nothing (`roundTrip_pnl_iff`).
-/

import Mathlib.Algebra.Order.BigOperators.Group.List
import Mathlib.Tactic.FieldSimp
import Mathlib.Tactic.Linarith
import Mathlib.Tactic.Ring
import IbTrader.Engine.OrderStream
import IbTrader.Bots.Runtime

namespace IbTrader.Bots.Runtime

open Lib
open Engine.OrderLedger (LedgerEvent LedgerEntry Fill makeEvent fillEvent resolveTerminalStatus
  progressEvents terminalEvent orderEvents)

-- ============================================================================
-- Working exit orders
-- ============================================================================

/-- A bot as a machine: order events in, effects out. -/
def bot (config : StrategyConfig) : Mealy BotDoc LedgerEvent Effect where
  next doc event := (dispatchOrderEvent config event doc).1
  emit doc event := (dispatchOrderEvent config event doc).2

/-- The document and the effects a list of order events leaves. -/
def deliver (config : StrategyConfig) (events : List LedgerEvent) (doc : BotDoc) :
    BotDoc × List Effect :=
  ((bot config).run doc events, ((bot config).trace doc events).map Prod.snd)

/-- The bot works one exit order: a retry is in flight already, otherwise the
    strategy places an order for the position it holds. -/
def workExit (config : StrategyConfig) (doc : BotDoc) (order : LedgerEntry) :
    Option (BotDoc × List Effect) :=
  match doc.state with
  | .exitOrderPlaced => some (deliver config (orderEvents order) doc)
  | .awaitingExitTrigger =>
    (onPlaceExitOrder doc.qty "exit" (some order.ibOrderId) doc).map fun r =>
      deliver config (orderEvents order) r.1
  | .off | .errored | .awaitingEntryTrigger | .entryOrderPlaced => none

/-- The bot works exit orders one after the other. -/
def workExits (config : StrategyConfig) :
    BotDoc → List LedgerEntry → Option (BotDoc × List Effect)
  | doc, [] => some (doc, [])
  | doc, order :: orders =>
    (workExit config doc order).bind fun r =>
      (workExits config r.1 orders).map fun rest => (rest.1, r.2 ++ rest.2)

/-- The trades recorded among the effects of a run. -/
def recordedTrades (effects : List Effect) : List TradeClosed :=
  effects.filterMap fun
    | .recordTradeClosed trade => some trade
    | .retryExitOrder _ | .cancelOrder _ | .pagerAlert .. | .requestStop => none

theorem recordedTrades_append (a b : List Effect) :
    recordedTrades (a ++ b) = recordedTrades a ++ recordedTrades b := by
  simp [recordedTrades]

-- ============================================================================
-- What a trip is worth
-- ============================================================================

/-- `+1` for a long position, `-1` for a short one. -/
def Direction.factor : Direction → ℚ
  | .long => 1
  | .short => -1

/-- The profit of one exit fill against the entry average. -/
def fillPnl (config : StrategyConfig) (direction : Direction) (entryPrice : ℚ) (f : Fill) : ℚ :=
  (f.price - entryPrice) * f.qty * config.contractMultiplier * Direction.factor direction

/-- The profit of an exit order over all its fills. -/
def orderPnl (config : StrategyConfig) (direction : Direction) (entryPrice : ℚ)
    (order : LedgerEntry) : ℚ :=
  (order.fills.map (fillPnl config direction entryPrice)).sum

/-- The profit of exit orders over all their fills. -/
def tripPnl (config : StrategyConfig) (direction : Direction) (entryPrice : ℚ)
    (orders : List LedgerEntry) : ℚ :=
  (orders.map (orderPnl config direction entryPrice)).sum

/-- The profit of an order from its quantity and average price. -/
theorem orderPnl_eq (config : StrategyConfig) (d : Direction) (p : ℚ) {order : LedgerEntry}
    (h : order.filledQty ≠ 0) :
    orderPnl config d p order =
      (order.avgPrice.getD 0 - p) * order.filledQty * config.contractMultiplier *
        Direction.factor d := by
  have hsum : ∀ fills : List Fill,
      (fills.map (fillPnl config d p)).sum =
        ((fills.map fun f => f.qty * f.price).sum - p * (fills.map Fill.qty).sum) *
          config.contractMultiplier * Direction.factor d := by
    intro fills
    induction fills with
    | nil => simp
    | cons f fills ih =>
      simp only [List.map_cons, List.sum_cons, ih, fillPnl]
      ring
  rw [orderPnl, hsum]
  simp only [LedgerEntry.avgPrice, h, if_false, Option.getD_some]
  have hqty : (order.fills.map Fill.qty).sum = order.filledQty := rfl
  rw [hqty]
  field_simp

-- ============================================================================
-- One exit order
-- ============================================================================

/-- The bot holds a position with an exit order in flight. -/
structure Exiting (doc : BotDoc) (qty entryPrice : ℚ) (direction : Direction) : Prop where
  state : doc.state = .exitOrderPlaced
  qty : doc.qty = qty
  entryPrice : doc.entryPrice = some entryPrice
  direction : doc.positionDirection = some direction

/-- The bot holds a position, with or without an exit order in flight. -/
structure Holding (doc : BotDoc) (qty entryPrice : ℚ) (direction : Direction) : Prop where
  state : doc.state = .awaitingExitTrigger ∨ doc.state = .exitOrderPlaced
  qty : doc.qty = qty
  entryPrice : doc.entryPrice = some entryPrice
  direction : doc.positionDirection = some direction

/-- The order carries the bot's tag. -/
def Ours (config : StrategyConfig) (order : LedgerEntry) : Prop :=
  tagged config (terminalEvent order) = true

instance (config : StrategyConfig) (order : LedgerEntry) : Decidable (Ours config order) :=
  inferInstanceAs (Decidable (_ = _))

variable {config : StrategyConfig} {doc : BotDoc} {qty entryPrice : ℚ} {direction : Direction}

/-- A progress event of the exit order in flight leaves the position as it is. -/
theorem Exiting.progress (config : StrategyConfig) {event : LedgerEvent} (h : Exiting doc qty entryPrice direction)
    (hterminal : event.terminal = false) (hstatus : event.status ∈ fillStatuses) :
    Exiting (dispatchOrderEvent config event doc).1 qty entryPrice direction ∧
      (dispatchOrderEvent config event doc).2 = [] := by
  cases htag : tagged config event with
  | false =>
    rw [dispatch_of_not_tagged htag]
    exact ⟨h, rfl⟩
  | true =>
    rw [dispatch_fill htag hstatus, dispatchFill_exit_progress h.state hterminal]
    exact ⟨⟨h.state, h.qty, h.entryPrice, h.direction⟩, rfl⟩

theorem fillEvent_status (e : LedgerEntry) (q p : ℚ) :
    (fillEvent e q p).status ∈ fillStatuses := by
  simp only [fillEvent, makeEvent]
  split <;> simp [fillStatuses]

/-- All progress events of an exit order leave the position as it is. -/
theorem Exiting.run_progressEvents (config : StrategyConfig) (fills : List Fill) :
    ∀ {doc : BotDoc} (e : LedgerEntry), Exiting doc qty entryPrice direction →
      Exiting ((bot config).run doc (progressEvents e fills)) qty entryPrice direction ∧
        (bot config).trace doc (progressEvents e fills) = [] := by
  induction fills with
  | nil => intro doc e h; exact ⟨h, rfl⟩
  | cons f fills ih =>
    intro doc e h
    have hterminal : (fillEvent (e.addFill f) f.qty f.price).terminal = false := rfl
    obtain ⟨hnext, hquiet⟩ := h.progress config hterminal (fillEvent_status _ _ _)
    obtain ⟨hrun, htrace⟩ := ih (e.addFill f) hnext
    refine ⟨hrun, ?_⟩
    rw [progressEvents, Mealy.trace_cons]
    have hemit : (bot config).emit doc (fillEvent (e.addFill f) f.qty f.price) = [] := hquiet
    rw [hemit, List.map_nil, List.nil_append]
    exact htrace

/-- Working an exit order comes down to its terminal event. -/
theorem Exiting.deliver_orderEvents (h : Exiting doc qty entryPrice direction)
    (config : StrategyConfig) (order : LedgerEntry) :
    ∃ doc', Exiting doc' qty entryPrice direction ∧
      deliver config (orderEvents order) doc =
        dispatchOrderEvent config (terminalEvent order) doc' := by
  obtain ⟨hrun, htrace⟩ := h.run_progressEvents config order.fills
    { order with fills := [] }
  refine ⟨_, hrun, ?_⟩
  simp only [deliver, orderEvents, Mealy.run_append, Mealy.trace_append, htrace,
    Mealy.run_cons, Mealy.run_nil, Mealy.trace_cons, Mealy.trace_nil, List.nil_append,
    List.append_nil, List.map_map, Function.comp_def, List.map_id']
  rfl

/-- Every exit order the bot works starts with the position held and ends with
    its terminal event. -/
theorem Holding.workExit_eq (h : Holding doc qty entryPrice direction)
    (config : StrategyConfig) (order : LedgerEntry) :
    ∃ doc', Exiting doc' qty entryPrice direction ∧
      workExit config doc order = some (dispatchOrderEvent config (terminalEvent order) doc') := by
  rcases h.state with hs | hs
  · obtain ⟨placed, hplace, hstate, hqty, -, hentry, hdir⟩ :=
      onPlaceExitOrder_accepted hs doc.qty "exit" (some order.ibOrderId)
    have hplaced : Exiting placed qty entryPrice direction :=
      ⟨hstate, hqty.trans h.qty, hentry.trans h.entryPrice, hdir.trans h.direction⟩
    obtain ⟨doc', hex, heq⟩ := hplaced.deliver_orderEvents config order
    refine ⟨doc', hex, ?_⟩
    unfold workExit
    rw [hs]
    simp only [hplace, Option.map_some, heq]
  · have hplaced : Exiting doc qty entryPrice direction := ⟨hs, h.qty, h.entryPrice, h.direction⟩
    obtain ⟨doc', hex, heq⟩ := hplaced.deliver_orderEvents config order
    refine ⟨doc', hex, ?_⟩
    unfold workExit
    rw [hs]
    simp only [heq]

-- ============================================================================
-- The terminal event of an exit order
-- ============================================================================

theorem terminalEvent_status_of_filled {order : LedgerEntry} (h : 0 < order.filledQty) :
    (terminalEvent order).status ∈ fillStatuses := by
  simp only [terminalEvent, makeEvent, resolveTerminalStatus, ne_of_gt h, if_false]
  split <;> simp [fillStatuses]

theorem terminalEvent_status_of_unfilled {order : LedgerEntry} (h : order.filledQty = 0) :
    (terminalEvent order).status ∈ cancelStatuses := by
  simp only [terminalEvent, makeEvent, resolveTerminalStatus, h, lt_irrefl, false_and, if_false,
    if_true]
  split <;> simp [cancelStatuses]

/-- An exit order that fills nothing: the position is held as before. -/
theorem Exiting.unfilled {order : LedgerEntry} (h : Exiting doc qty entryPrice direction)
    (htag : Ours config order) (hfilled : order.filledQty = 0) :
    Holding (dispatchOrderEvent config (terminalEvent order) doc).1 qty entryPrice direction ∧
      recordedTrades (dispatchOrderEvent config (terminalEvent order) doc).2 = [] := by
  rw [dispatch_cancel htag rfl (terminalEvent_status_of_unfilled hfilled),
    dispatchCancel_exit h.state]
  exact ⟨⟨.inl rfl, h.qty, h.entryPrice, h.direction⟩, rfl⟩

/-- An exit order that fills a part: what it left is held, or the bot is in
    `ERRORED`; nothing is recorded. -/
theorem Exiting.part_filled {order : LedgerEntry} (h : Exiting doc qty entryPrice direction)
    (htag : Ours config order) (hpos : 0 < order.filledQty) (hrest : order.filledQty < qty) :
    ((dispatchOrderEvent config (terminalEvent order) doc).1.state = .errored ∨
      Holding (dispatchOrderEvent config (terminalEvent order) doc).1 (qty - order.filledQty)
        entryPrice direction) ∧
      recordedTrades (dispatchOrderEvent config (terminalEvent order) doc).2 = [] := by
  have hrest' : (fillArgs (terminalEvent order) "SELL").qty < doc.qty := by
    rw [h.qty]
    exact hrest
  obtain ⟨r, hr, hqty, hentry, hdir, hstate, hquiet, -⟩ :=
    onExitFilled_residual config _ h.state rfl hrest'
  rw [dispatch_fill htag (terminalEvent_status_of_filled hpos),
    dispatchFill_exit_terminal h.state rfl hr]
  constructor
  · by_cases hretries : maxExitRetries ≤ doc.exitRetries
    · rw [if_pos hretries] at hstate
      exact .inl hstate
    · rw [if_neg hretries] at hstate
      refine .inr ⟨.inr hstate, ?_, hentry.trans h.entryPrice, hdir.trans h.direction⟩
      show r.1.qty = _
      rw [hqty, h.qty]
      rfl
  · rw [recordedTrades, List.filterMap_eq_nil_iff]
    intro effect heffect
    cases effect with
    | recordTradeClosed trade => exact absurd heffect (hquiet trade)
    | retryExitOrder | cancelOrder | pagerAlert | requestStop => rfl

/-- The profit recorded by the exit order that leaves the position flat: its own
    fills, as long as the entry average is positive. -/
theorem Exiting.flat {order : LedgerEntry} (h : Exiting doc qty entryPrice direction)
    (htag : Ours config order) (hpos : 0 < order.filledQty) (hflat : order.filledQty = qty) :
    ((dispatchOrderEvent config (terminalEvent order) doc).1.state = .off ∨
      (dispatchOrderEvent config (terminalEvent order) doc).1.state = .awaitingEntryTrigger) ∧
      ∃ trade, recordedTrades (dispatchOrderEvent config (terminalEvent order) doc).2 = [trade] ∧
        trade.realizedPnl =
          if 0 < entryPrice then orderPnl config direction entryPrice order else 0 := by
  have hle : doc.qty ≤ (fillArgs (terminalEvent order) "SELL").qty := by
    rw [h.qty, ← hflat]
    exact le_refl _
  rw [dispatch_fill htag (terminalEvent_status_of_filled hpos),
    dispatchFill_exit_terminal h.state rfl (onExitFilled_flat config _ h.state rfl hle)]
  constructor
  · cases hstop : config.stopOnExit with
    | false => exact .inr (by simp [applyExitFill])
    | true => exact .inl (by simp [applyExitFill])
  · refine ⟨tradeClosed config (fillArgs (terminalEvent order) "SELL") doc, ?_, ?_⟩
    · rw [recordedTrades_append]
      cases hstop : config.stopOnExit with
      | false => rfl
      | true => rfl
    · have hprice : (fillArgs (terminalEvent order) "SELL").price = order.avgPrice.getD 0 := rfl
      simp only [tradeClosed, realizedPnl, exitDirection, h.entryPrice, h.direction, h.qty,
        Option.getD_some, hprice]
      split
      · rw [orderPnl_eq config direction entryPrice (ne_of_gt hpos), hflat]
        cases direction with
        | long => simp only [Direction.factor]; ring
        | short => simp only [Direction.factor]; ring
      · rfl

-- ============================================================================
-- The trip
-- ============================================================================

/-- A bot that neither holds nor exits works no more exit orders. -/
theorem workExits_of_idle {exits : List LedgerEntry} {r : BotDoc × List Effect}
    (hidle : doc.state ∉ [BotState.awaitingExitTrigger, .exitOrderPlaced])
    (h : workExits config doc exits = some r) : exits = [] ∧ r = (doc, []) := by
  cases exits with
  | nil => exact ⟨rfl, (Option.some.inj h).symm⟩
  | cons order exits =>
    have hnone : workExit config doc order = none := by
      unfold workExit
      cases hstate : doc.state with
      | awaitingExitTrigger | exitOrderPlaced => rw [hstate] at hidle; simp at hidle
      | off | errored | awaitingEntryTrigger | entryOrderPlaced => rfl
    rw [workExits, hnone, Option.bind_none] at h
    cases h

theorem sum_filledQty_nonneg {exits : List LedgerEntry} (h : ∀ order ∈ exits, 0 ≤ order.filledQty) :
    0 ≤ (exits.map LedgerEntry.filledQty).sum := by
  refine List.sum_nonneg fun q hq => ?_
  obtain ⟨order, horder, rfl⟩ := List.mem_map.mp hq
  exact h order horder

/-- What a trip from a position leaves: one trade, the profit of the last exit
    order. -/
def RecordsLast (config : StrategyConfig) (direction : Direction) (entryPrice : ℚ)
    (exits : List LedgerEntry) (effects : List Effect) : Prop :=
  ∃ trade last, exits.getLast? = some last ∧ recordedTrades effects = [trade] ∧
    trade.realizedPnl = if 0 < entryPrice then orderPnl config direction entryPrice last else 0

/-- An exit order that records nothing comes before the others. -/
theorem RecordsLast.cons {exits : List LedgerEntry} {effects before : List Effect}
    (h : RecordsLast config direction entryPrice exits effects) (order : LedgerEntry)
    (hquiet : recordedTrades before = []) :
    RecordsLast config direction entryPrice (order :: exits) (before ++ effects) := by
  obtain ⟨trade, last, hlast, htrades, hpnl⟩ := h
  refine ⟨trade, last, ?_, ?_, hpnl⟩
  · rw [List.getLast?_cons, hlast, Option.getD_some]
  · rw [recordedTrades_append, hquiet, List.nil_append]
    exact htrades

/-- Exit orders that fill the position between them and that the bot works to
    the end record one trade: what the last of them filled. -/
theorem Holding.workExits_flat (exits : List LedgerEntry) :
    ∀ {doc : BotDoc} {qty : ℚ} {r : BotDoc × List Effect},
      Holding doc qty entryPrice direction → 0 < qty →
      (∀ order ∈ exits, Ours config order ∧ 0 ≤ order.filledQty) →
      (exits.map LedgerEntry.filledQty).sum = qty → workExits config doc exits = some r →
      RecordsLast config direction entryPrice exits r.2 := by
  induction exits with
  | nil =>
    intro doc qty r _ hpos _ hsum _
    rw [List.map_nil, List.sum_nil] at hsum
    exact absurd hsum (ne_of_lt hpos)
  | cons order exits ih =>
    intro doc qty r h hpos hours hsum hwork
    obtain ⟨htag, hnonneg⟩ := hours order List.mem_cons_self
    have hrest : ∀ o ∈ exits, Ours config o ∧ 0 ≤ o.filledQty :=
      fun o ho => hours o (List.mem_cons_of_mem _ ho)
    have hrestsum := sum_filledQty_nonneg fun o ho => (hrest o ho).2
    obtain ⟨doc', hex, heq⟩ := h.workExit_eq config order
    rw [List.map_cons, List.sum_cons] at hsum
    rw [workExits, heq, Option.bind_some, Option.map_eq_some_iff] at hwork
    obtain ⟨rest, hrestwork, rfl⟩ := hwork
    rcases lt_trichotomy order.filledQty qty with hlt | hfull | hgt
    · rcases hnonneg.lt_or_eq with hfilled | hzero
      · obtain ⟨hnext, hquiet⟩ := hex.part_filled htag hfilled hlt
        rcases hnext with herr | hhold
        · -- in `ERRORED` no further order is placed, so the trip cannot be completed
          obtain ⟨rfl, -⟩ := workExits_of_idle (by simp [herr]) hrestwork
          rw [List.map_nil, List.sum_nil, add_zero] at hsum
          exact absurd hsum (ne_of_lt hlt)
        · exact (ih hhold (by linarith) hrest (by linarith) hrestwork).cons order hquiet
      · obtain ⟨hhold, hquiet⟩ := hex.unfilled htag hzero.symm
        exact (ih hhold hpos hrest (by linarith) hrestwork).cons order hquiet
    · obtain ⟨hstate, trade, htrades, hpnl⟩ := hex.flat htag (hfull ▸ hpos) hfull
      obtain ⟨rfl, rfl⟩ := workExits_of_idle (by rcases hstate with hs | hs <;> simp [hs]) hrestwork
      refine ⟨trade, order, rfl, ?_, hpnl⟩
      rw [List.append_nil]
      exact htrades
    · linarith

/-- The terminal event of an entry order that filled something opens a position
    of its quantity at its average price. -/
theorem holding_of_entry {entry : LedgerEntry}
    (hstate : doc.state = .entryOrderPlaced ∨ doc.state = .awaitingEntryTrigger)
    (htag : Ours config entry) (hfilled : 0 < entry.filledQty) :
    Holding (dispatchOrderEvent config (terminalEvent entry) doc).1 entry.filledQty
      (entry.avgPrice.getD 0) (entryDirection entry.side) := by
  have hne : (terminalEvent entry).filledQty ≠ 0 := ne_of_gt hfilled
  rw [dispatch_fill htag (terminalEvent_status_of_filled hfilled),
    dispatchFill_entry_terminal hstate rfl, if_neg hne]
  refine ⟨.inl rfl, rfl, rfl, ?_⟩
  show some (entryDirection (fillArgs (terminalEvent entry) "").side) = _
  rw [fillArgs_side]
  rfl

/-- When the record of a trip is complete: the exit orders before the one that
    leaves the position flat come to nothing; with an entry average that is not
    positive, which the code takes for missing, the whole trip does. -/
def RecordComplete (config : StrategyConfig) (direction : Direction) (entryPrice : ℚ)
    (exits : List LedgerEntry) : Prop :=
  if 0 < entryPrice then tripPnl config direction entryPrice exits.dropLast = 0
  else tripPnl config direction entryPrice exits = 0

theorem tripPnl_dropLast (config : StrategyConfig) (d : Direction) (p : ℚ)
    {exits : List LedgerEntry} {last : LedgerEntry} (h : exits.getLast? = some last) :
    tripPnl config d p exits = tripPnl config d p exits.dropLast + orderPnl config d p last := by
  obtain ⟨init, rfl⟩ := List.getLast?_eq_some_iff.mp h
  simp [tripPnl]

/-- A round trip is recorded as one trade, and its profit is that of all the exit
    fills exactly when the record is complete. -/
theorem roundTrip_pnl_iff (config : StrategyConfig) {doc : BotDoc} {entry : LedgerEntry}
    {exits : List LedgerEntry} {r : BotDoc × List Effect}
    (hstate : doc.state = .entryOrderPlaced ∨ doc.state = .awaitingEntryTrigger)
    (hentry : Ours config entry) (hfilled : 0 < entry.filledQty)
    (hexits : ∀ order ∈ exits, Ours config order ∧ ∀ f ∈ order.fills, 0 < f.qty)
    (hflat : (exits.map LedgerEntry.filledQty).sum = entry.filledQty)
    (hwork : workExits config (dispatchOrderEvent config (terminalEvent entry) doc).1 exits =
      some r) :
    ∃ trade, recordedTrades r.2 = [trade] ∧
      (trade.realizedPnl =
          tripPnl config (entryDirection entry.side) (entry.avgPrice.getD 0) exits ↔
        RecordComplete config (entryDirection entry.side) (entry.avgPrice.getD 0) exits) := by
  have hhold := holding_of_entry hstate hentry hfilled
  have hours : ∀ order ∈ exits, Ours config order ∧ 0 ≤ order.filledQty := by
    intro order ho
    refine ⟨(hexits order ho).1, List.sum_nonneg ?_⟩
    intro q hq
    obtain ⟨f, hf, rfl⟩ := List.mem_map.mp hq
    exact ((hexits order ho).2 f hf).le
  obtain ⟨trade, last, hlast, htrades, hpnl⟩ :=
    hhold.workExits_flat exits hfilled hours hflat hwork
  refine ⟨trade, htrades, ?_⟩
  rw [hpnl, RecordComplete]
  split
  · rw [tripPnl_dropLast config _ _ hlast]
    constructor
    · intro h; linarith
    · intro h; linarith
  · exact eq_comm

/-- A long position of 10 at 100. -/
def longTen : LedgerEntry :=
  { ibOrderId := "1", orderRef := "IBT:bot", symbol := "MES", secType := "FUT", conId := 0
    side := "BUY", targetQty := 10, fills := [⟨10, 100, 1, "e1"⟩] }

/-- Two exit orders out of it: the first is cancelled with 4 filled at `price`,
    the retry fills the rest at 120. -/
def splitExits (price : ℚ) : List LedgerEntry :=
  [ { ibOrderId := "2", orderRef := "IBT:bot", symbol := "MES", secType := "FUT", conId := 0
      side := "SELL", targetQty := 10, fills := [⟨4, price, 1, "x1"⟩] },
    { ibOrderId := "3", orderRef := "IBT:bot", symbol := "MES", secType := "FUT", conId := 0
      side := "SELL", targetQty := 6, fills := [⟨2, 120, 1, "x2"⟩, ⟨4, 120, 1, "x3"⟩] } ]

/-- The trip of `splitExits` with the first order filled at the entry price: the
    record is complete. -/
theorem roundTrip_pnl_breakEven :
    ∃ r trade,
      workExits { orderRefPrefix := "IBT:" }
          (dispatchOrderEvent { orderRefPrefix := "IBT:" } (terminalEvent longTen)
            { state := .entryOrderPlaced }).1 (splitExits 100) = some r ∧
        recordedTrades r.2 = [trade] ∧
        trade.realizedPnl = tripPnl { orderRefPrefix := "IBT:" } .long 100 (splitExits 100) := by
  have hdone : (workExits { orderRefPrefix := "IBT:" }
      (dispatchOrderEvent { orderRefPrefix := "IBT:" } (terminalEvent longTen)
        { state := .entryOrderPlaced }).1 (splitExits 100)).isSome = true := by decide +kernel
  obtain ⟨r, hr⟩ := Option.isSome_iff_exists.mp hdone
  obtain ⟨trade, htrades, hpnl⟩ := roundTrip_pnl_iff { orderRefPrefix := "IBT:" } (.inl rfl)
    (by decide +kernel) (by decide +kernel) (by decide +kernel) (by decide +kernel) hr
  refine ⟨r, trade, hr, htrades, ?_⟩
  have hprice : (longTen.avgPrice.getD 0) = 100 := by decide +kernel
  rw [hprice] at hpnl
  refine hpnl.mpr ?_
  unfold RecordComplete
  decide +kernel

/-- The profit of a trip is not always recorded in full: with the first exit
    order filled at 110 the record misses its 40. -/
theorem roundTrip_pnl_fails :
    ¬∀ (config : StrategyConfig) (doc : BotDoc) (entry : LedgerEntry) (exits : List LedgerEntry)
      (r : BotDoc × List Effect),
      (doc.state = .entryOrderPlaced ∨ doc.state = .awaitingEntryTrigger) →
      Ours config entry → 0 < entry.filledQty →
      (∀ order ∈ exits, Ours config order ∧ ∀ f ∈ order.fills, 0 < f.qty) →
      (exits.map LedgerEntry.filledQty).sum = entry.filledQty →
      workExits config (dispatchOrderEvent config (terminalEvent entry) doc).1 exits = some r →
      ∃ trade, recordedTrades r.2 = [trade] ∧
        trade.realizedPnl =
          tripPnl config (entryDirection entry.side) (entry.avgPrice.getD 0) exits := by
  intro hall
  have hpnls : (workExits { orderRefPrefix := "IBT:" }
      (dispatchOrderEvent { orderRefPrefix := "IBT:" } (terminalEvent longTen)
        { state := .entryOrderPlaced }).1 (splitExits 110)).map
        (fun r => (recordedTrades r.2).map TradeClosed.realizedPnl) = some [120] := by
    decide +kernel
  obtain ⟨r, hr, hpnl⟩ := Option.map_eq_some_iff.mp hpnls
  obtain ⟨trade, htrades, htrip⟩ := hall { orderRefPrefix := "IBT:" } { state := .entryOrderPlaced }
    longTen (splitExits 110) r (.inl rfl) (by decide +kernel) (by decide +kernel) (by decide +kernel)
    (by decide +kernel) hr
  have htotal : tripPnl { orderRefPrefix := "IBT:" } (entryDirection longTen.side)
      (longTen.avgPrice.getD 0) (splitExits 110) = 160 := by decide +kernel
  rw [htrades, List.map_cons, List.map_nil, htrip, htotal] at hpnl
  revert hpnl
  decide +kernel

end IbTrader.Bots.Runtime
