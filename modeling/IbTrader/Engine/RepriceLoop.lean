/-
  IbTrader.Engine.RepriceLoop

  `reprice_loop` (`ib_trader/engine/order.py`): an order is amended step by step from the
  mid to the far side of the quote.

  The loop is a coroutine, and each `Phase` is an `await` it is suspended at.  A run is a
  sequence of inputs: the call awaited returns, with what the loop reads next, or an
  exception or the cancel of the task ends the loop.  What the loop does is logged in its
  order, so that "not after" is a statement about the log.
-/

import IbTrader.Data.Transactions
import IbTrader.Engine.Pricing
import IbTrader.Lib.Run
import Mathlib.Data.List.Chain

namespace IbTrader.Engine.RepriceLoop

open Lib Data Pricing

-- ============================================================================
-- The loop
-- ============================================================================

/-- The parameters of `reprice_loop` that its steps depend on. -/
structure Args where
  side : Side
  totalSteps : ℕ
  initialPrice : ℚ
  tickSize : Option ℚ := none
  deriving DecidableEq, Repr

/-- `tick_size or STK_TICK`. -/
def Args.tick (args : Args) : ℚ :=
  match args.tickSize with
  | some tickSize => if tickSize = 0 then stkTick else tickSize
  | none => stkTick

/-- What the loop looks at of the order's track. -/
structure OrderTrack where
  isFilled : Bool := false
  isCanceled : Bool := false
  deriving DecidableEq, Repr

structure Quote where
  bid : ℚ := 0
  ask : ℚ := 0
  last : ℚ := 0
  deriving DecidableEq, Repr

/-- `_get_prices`: the quote cache, or the snapshot where it has no price. -/
def getPrices (cached : Option Quote) (snapshot : Quote) : Quote :=
  match cached with
  | some quote => if 0 < quote.bid ∨ 0 < quote.ask ∨ 0 < quote.last then quote else snapshot
  | none => snapshot

/-- The bid and the ask of a step: the last price where there is neither, and `none` where
    there is no price at all. -/
def Quote.sides (quote : Quote) : Option (ℚ × ℚ) :=
  if quote.bid = 0 ∧ quote.ask = 0 then
    if 0 < quote.last then some (quote.last, quote.last) else none
  else some (quote.bid, quote.ask)

/-- The two rows of an amendment, in the order they are written. -/
inductive Table where
  | repriceEvents
  | transactions
  deriving DecidableEq, Repr

/-- What the loop reads when it goes on. -/
structure Reading where
  track : Option OrderTrack := some {}
  cached : Option Quote := none
  snapshot : Quote := {}
  /-- The table that refuses its row. -/
  refused : Option Table := none
  deriving DecidableEq, Repr

def Reading.quote (r : Reading) : Quote := getPrices r.cached r.snapshot

inductive Observed where
  | filled
  | canceled
  deriving DecidableEq, Repr

/-- The checks of the track, the fill first. -/
def observe : Option OrderTrack → Option Observed
  | some track =>
    if track.isFilled then some .filled
    else if track.isCanceled then some .canceled
    else none
  | none => none

/-- A call of `amend_order`, with the quote that the price was computed from. -/
structure Amendment where
  stepNumber : ℕ
  bid : ℚ
  ask : ℚ
  newPrice : ℚ
  deriving DecidableEq, Repr

/-- What the loop does. -/
inductive Event where
  | observed (seen : Observed)
  /-- `amend_order` is called. -/
  | amend (amendment : Amendment)
  /-- A row is written. -/
  | row (table : Table) (amendment : Amendment)
  deriving DecidableEq, Repr

inductive Phase where
  /-- The task is not started yet. -/
  | created
  /-- `asyncio.sleep`. -/
  | sleeping (step : ℕ)
  /-- `_get_prices`. -/
  | pricing (step : ℕ)
  /-- `get_order_status` of a step that leaves the price as it is. -/
  | holding (step : ℕ)
  /-- `amend_order`. -/
  | amending (amendment : Amendment)
  /-- `get_order_status` after an amendment. -/
  | reporting (step : ℕ)
  /-- `get_order_status` after the loop has stopped at a fill. -/
  | paused (step : ℕ)
  | done
  deriving DecidableEq, Repr

structure Run where
  phase : Phase := .created
  lastSentPrice : ℚ
  amendCount : ℕ := 0
  log : List Event := []
  deriving DecidableEq, Repr

/-- The run at its start. -/
def Args.start (args : Args) : Run where
  lastSentPrice := args.initialPrice

/-- The loop breaks. -/
def leave (run : Run) (step : ℕ) : Observed → Run
  | .filled => { run with phase := .paused step, log := run.log ++ [.observed .filled] }
  | .canceled => { run with phase := .done, log := run.log ++ [.observed .canceled] }

/-- The top of the loop. -/
def enter (args : Args) (run : Run) (step : ℕ) (r : Reading) : Run :=
  if args.totalSteps < step then { run with phase := .done }
  else
    match observe r.track with
    | some seen => leave run step seen
    | none => { run with phase := .sleeping step }

/-- The check after the sleep. -/
def wake (run : Run) (step : ℕ) (r : Reading) : Run :=
  match observe r.track with
  | some seen => leave run step seen
  | none => { run with phase := .pricing step }

/-- From the quote to the call of `amend_order`. -/
def reprice (args : Args) (run : Run) (step : ℕ) (r : Reading) : Run :=
  match r.quote.sides with
  | none => enter args run (step + 1) r
  | some (bid, ask) =>
    let target := match args.side with | .buy => ask | .sell => bid
    match calcStepPrice bid ask target step args.totalSteps args.tick with
    | none => { run with phase := .done }
    | some newPrice =>
      if newPrice = run.lastSentPrice then { run with phase := .holding step }
      else
        { run with
          phase := .amending { stepNumber := step, bid, ask, newPrice }
          log := run.log ++ [.amend { stepNumber := step, bid, ask, newPrice }] }

/-- `amend_order` has returned. -/
def record (run : Run) (amendment : Amendment) (r : Reading) : Run :=
  let sent := { run with lastSentPrice := amendment.newPrice, amendCount := run.amendCount + 1 }
  match r.refused with
  | some .repriceEvents => { sent with phase := .done }
  | some .transactions =>
    { sent with phase := .done, log := run.log ++ [.row .repriceEvents amendment] }
  | none =>
    { sent with
      phase := .reporting amendment.stepNumber
      log := run.log ++ [.row .repriceEvents amendment, .row .transactions amendment] }

/-- The loop from one `await` to the next. -/
def resume (args : Args) (run : Run) (r : Reading) : Run :=
  match run.phase with
  | .created => enter args run 1 r
  | .sleeping step => wake run step r
  | .pricing step => reprice args run step r
  | .holding step | .reporting step => enter args run (step + 1) r
  | .amending amendment => record run amendment r
  | .paused _ => { run with phase := .done }
  | .done => run

inductive Input where
  /-- The call awaited returns. -/
  | resume (reading : Reading)
  /-- The call awaited raises, or the task is cancelled. -/
  | raises
  deriving DecidableEq, Repr

/-- One input. -/
def step (args : Args) (run : Run) : Input → Run
  | .resume r => resume args run r
  | .raises => { run with phase := .done }

/-- The run from its start. -/
def runFrom (args : Args) (inputs : List Input) : Run := inputs.foldl (step args) args.start

/-- The amendments that the loop has asked for. -/
def Event.amendment? : Event → Option Amendment
  | .amend amendment => some amendment
  | _ => none

def Event.isObserved : Event → Bool
  | .observed _ => true
  | _ => false

def amendments (log : List Event) : List Amendment := log.filterMap Event.amendment?

/-- The prices of the order: the one it was placed at and those asked for since. -/
def Args.path (args : Args) (log : List Event) : List ℚ :=
  args.initialPrice :: (amendments log).map Amendment.newPrice

-- ============================================================================
-- What the loop sends
-- ============================================================================

/-- The prices of a quote are on the grid, and its bid is not above its ask. -/
structure Quote.OnGrid (quote : Quote) (tickSize : ℚ) : Prop where
  bid : isOnTick quote.bid tickSize = some true
  ask : isOnTick quote.ask tickSize = some true
  last : isOnTick quote.last tickSize = some true
  le : quote.bid ≤ quote.ask

theorem Quote.OnGrid.sides {quote : Quote} {tickSize bid ask : ℚ} (h : quote.OnGrid tickSize)
    (hsides : quote.sides = some (bid, ask)) :
    isOnTick bid tickSize = some true ∧ isOnTick ask tickSize = some true ∧ bid ≤ ask := by
  unfold Quote.sides at hsides
  split_ifs at hsides
  · cases hsides
    exact ⟨h.last, h.last, le_rfl⟩
  · cases hsides
    exact ⟨h.bid, h.ask, h.le⟩

/-- An amendment to a price of the grid inside a quote that the loop has read. -/
structure Args.Priced (args : Args) (inputs : List Input) (amendment : Amendment) : Prop where
  onTick : isOnTick amendment.newPrice args.tick = some true
  bid : amendment.bid ≤ amendment.newPrice
  ask : amendment.newPrice ≤ amendment.ask
  quoted : ∃ r : Reading, .resume r ∈ inputs ∧ r.quote.sides = some (amendment.bid, amendment.ask)

/-- What the loop has sent, after a number of steps. -/
structure Args.Sends (args : Args) (inputs : List Input) (log : List Event) (steps : ℕ) : Prop where
  within : (amendments log).length ≤ steps
  priced : ∀ amendment ∈ amendments log, args.Priced inputs amendment
  moves : (args.path log).IsChain (· ≠ ·)
  quiet : log.Pairwise fun earlier later => earlier.isObserved → later.amendment? = none

/-- What holds besides while the loop goes on. -/
structure Args.Walks (args : Args) (inputs : List Input) (log : List Event) (lastSentPrice : ℚ) (steps : ℕ) : Prop
    extends args.Sends inputs log steps where
  steps_le : steps ≤ args.totalSteps
  last : lastSentPrice ∈ (args.path log).getLast?
  unseen : ∀ event ∈ log, event.isObserved = false

section Walks

variable {args : Args} {inputs : List Input} {log : List Event} {lastSentPrice : ℚ} {steps : ℕ}

theorem Args.Sends.mono {steps' : ℕ} (h : args.Sends inputs log steps) (hle : steps ≤ steps') :
    args.Sends inputs log steps' :=
  { h with within := h.within.trans hle }

theorem Args.Walks.start (args : Args) (inputs : List Input) : args.Walks inputs [] args.initialPrice 0 where
  within := le_rfl
  priced := fun _ h => absurd h List.not_mem_nil
  moves := .singleton _
  quiet := .nil
  steps_le := Nat.zero_le _
  last := rfl
  unseen := fun _ h => absurd h List.not_mem_nil

/-- While nothing has been observed, anything may come next. -/
theorem Args.Walks.quiet_append (h : args.Walks inputs log lastSentPrice steps) (event : Event) :
    (log ++ [event]).Pairwise fun earlier later => earlier.isObserved → later.amendment? = none := by
  refine List.pairwise_append.mpr ⟨h.quiet, List.pairwise_singleton _ _, fun earlier hearlier _ _ hseen => ?_⟩
  rw [h.unseen earlier hearlier] at hseen
  cases hseen

/-- What is no amendment leaves the amendments as they are. -/
theorem amendments_append {event : Event} (h : event.amendment? = none) (log : List Event) :
    amendments (log ++ [event]) = amendments log := by
  have hnone : [event].filterMap Event.amendment? = [] := by rw [List.filterMap_cons_none h, List.filterMap_nil]
  rw [amendments, List.filterMap_append, hnone, List.append_nil, amendments]

theorem Args.Walks.append (h : args.Walks inputs log lastSentPrice steps) {event : Event}
    (hevent : event.amendment? = none) : args.Sends inputs (log ++ [event]) steps where
  within := by rw [amendments_append hevent]; exact h.within
  priced := by rw [amendments_append hevent]; exact h.priced
  moves := by rw [Args.path, amendments_append hevent]; exact h.moves
  quiet := h.quiet_append event

theorem Args.Walks.row (h : args.Walks inputs log lastSentPrice steps) (table : Table) (amendment : Amendment) :
    args.Walks inputs (log ++ [.row table amendment]) lastSentPrice steps where
  toSends := h.append rfl
  steps_le := h.steps_le
  last := by rw [Args.path, amendments_append rfl]; exact h.last
  unseen := List.forall_mem_append.mpr ⟨h.unseen, List.forall_mem_singleton.mpr rfl⟩

/-- An amendment to another price than the last one. -/
theorem Args.Walks.amend (h : args.Walks inputs log lastSentPrice steps) {amendment : Amendment}
    (hsteps : steps + 1 ≤ args.totalSteps) (hpriced : args.Priced inputs amendment)
    (hne : amendment.newPrice ≠ lastSentPrice) :
    args.Walks inputs (log ++ [.amend amendment]) amendment.newPrice (steps + 1) := by
  have hsent : amendments (log ++ [.amend amendment]) = amendments log ++ [amendment] := List.filterMap_append
  have hpath : args.path (log ++ [.amend amendment]) = args.path log ++ [amendment.newPrice] := by
    rw [Args.path, hsent, List.map_append]
    rfl
  refine
    { within := ?_, priced := ?_, moves := ?_, quiet := h.quiet_append _, steps_le := hsteps, last := ?_, unseen := ?_ }
  · rw [hsent, List.length_append]
    exact Nat.add_le_add_right h.within 1
  · rw [hsent]
    exact List.forall_mem_append.mpr ⟨h.priced, List.forall_mem_singleton.mpr hpriced⟩
  · rw [hpath]
    refine h.moves.append (.singleton _) fun price hprice next hnext => ?_
    obtain rfl : lastSentPrice = price := Option.mem_unique h.last hprice
    obtain rfl : amendment.newPrice = next := Option.some.inj hnext
    exact hne.symm
  · rw [hpath, List.getLast?_concat]
    exact rfl
  · exact List.forall_mem_append.mpr ⟨h.unseen, List.forall_mem_singleton.mpr rfl⟩

end Walks

/-- Where the loop is: the steps before this one, or with it, may each have sent an
    amendment, and the one awaited is the last price. -/
def Args.Holds (args : Args) (inputs : List Input) (run : Run) : Prop :=
  match run.phase with
  | .created => args.Walks inputs run.log run.lastSentPrice 0
  | .sleeping step | .pricing step =>
    ∃ before, step = before + 1 ∧ step ≤ args.totalSteps ∧ args.Walks inputs run.log run.lastSentPrice before
  | .holding step | .reporting step => args.Walks inputs run.log run.lastSentPrice step
  | .amending amendment => args.Walks inputs run.log amendment.newPrice amendment.stepNumber
  | .paused _ | .done => args.Sends inputs run.log args.totalSteps

section Steps

variable {args : Args} {inputs : List Input} {run : Run} {before : ℕ}

theorem holds_done (h : args.Sends inputs run.log args.totalSteps) : args.Holds inputs { run with phase := .done } := h

theorem holds_leave (h : args.Walks inputs run.log run.lastSentPrice before) (step : ℕ) (seen : Observed) :
    args.Holds inputs (leave run step seen) := by
  cases seen with
  | filled => exact (h.append rfl).mono h.steps_le
  | canceled => exact (h.append rfl).mono h.steps_le

theorem holds_enter (h : args.Walks inputs run.log run.lastSentPrice before) (r : Reading) :
    args.Holds inputs (enter args run (before + 1) r) := by
  unfold enter
  split
  case isTrue => exact holds_done (h.mono h.steps_le)
  case isFalse hstep =>
    split
    · exact holds_leave h _ _
    · exact ⟨before, rfl, not_lt.mp hstep, h⟩

theorem holds_wake (h : args.Walks inputs run.log run.lastSentPrice before) (hstep : before + 1 ≤ args.totalSteps)
    (r : Reading) : args.Holds inputs (wake run (before + 1) r) := by
  unfold wake
  split
  · exact holds_leave h _ _
  · exact ⟨before, rfl, hstep, h⟩

/-- The walk has used up one step more without an amendment. -/
theorem Args.Walks.skip (h : args.Walks inputs run.log run.lastSentPrice before) (hstep : before + 1 ≤ args.totalSteps) :
    args.Walks inputs run.log run.lastSentPrice (before + 1) :=
  { h with within := Nat.le_succ_of_le h.within, steps_le := hstep }

theorem holds_reprice (h : args.Walks inputs run.log run.lastSentPrice before) (hstep : before + 1 ≤ args.totalSteps)
    {r : Reading} (hr : .resume r ∈ inputs) (hquote : r.quote.OnGrid args.tick) :
    args.Holds inputs (reprice args run (before + 1) r) := by
  unfold reprice
  split
  case h_1 => exact holds_enter (h.skip hstep) r
  case h_2 bid ask hsides =>
    dsimp only
    split
    case h_1 => exact holds_done (h.mono h.steps_le)
    case h_2 newPrice hprice =>
      split_ifs with hsame
      · exact h.skip hstep
      · obtain ⟨hbid, hask, hle⟩ := hquote.sides hsides
        have htarget : (match args.side with | .buy => ask | .sell => bid) = bid ∨
            (match args.side with | .buy => ask | .sell => bid) = ask := by
          cases args.side with
          | buy => exact .inr rfl
          | sell => exact .inl rfl
        obtain ⟨honTick, hlow, hhigh⟩ := calcStepPrice_spec hbid hask hle htarget hstep hprice
        exact h.amend hstep ⟨honTick, hlow, hhigh, r, hr, hsides⟩ hsame

theorem holds_record {amendment : Amendment} (h : args.Walks inputs run.log amendment.newPrice amendment.stepNumber)
    (r : Reading) : args.Holds inputs (record run amendment r) := by
  have hfirst := h.row .repriceEvents amendment
  unfold record
  dsimp only
  split
  · exact h.mono h.steps_le
  · exact hfirst.mono h.steps_le
  · have hboth := hfirst.row .transactions amendment
    rw [List.append_assoc] at hboth
    exact hboth

theorem Args.Holds.sends (h : args.Holds inputs run) : args.Sends inputs run.log args.totalSteps := by
  unfold Args.Holds at h
  split at h
  · exact h.mono h.steps_le
  · obtain ⟨before, -, -, h⟩ := h
    exact h.mono h.steps_le
  · obtain ⟨before, -, -, h⟩ := h
    exact h.mono h.steps_le
  · exact h.mono h.steps_le
  · exact h.mono h.steps_le
  · exact h.mono h.steps_le
  · exact h
  · exact h

theorem Args.Holds.step (hquotes : ∀ r : Reading, .resume r ∈ inputs → r.quote.OnGrid args.tick)
    (h : args.Holds inputs run) {input : Input} (hinput : input ∈ inputs) : args.Holds inputs (step args run input) := by
  cases input with
  | raises => exact holds_done h.sends
  | resume r =>
    show args.Holds inputs (resume args run r)
    have hholds := h
    unfold Args.Holds at hholds
    unfold resume
    cases hphase : run.phase with
    | created =>
      rw [hphase] at hholds
      exact holds_enter hholds r
    | sleeping step =>
      rw [hphase] at hholds
      obtain ⟨before, rfl, hstep, hwalks⟩ := hholds
      exact holds_wake hwalks hstep r
    | pricing step =>
      rw [hphase] at hholds
      obtain ⟨before, rfl, hstep, hwalks⟩ := hholds
      exact holds_reprice hwalks hstep hinput (hquotes r hinput)
    | holding step =>
      rw [hphase] at hholds
      exact holds_enter hholds r
    | amending amendment =>
      rw [hphase] at hholds
      exact holds_record hholds r
    | reporting step =>
      rw [hphase] at hholds
      exact holds_enter hholds r
    | paused step => exact holds_done h.sends
    | done => exact h

end Steps

/-- With quotes on the grid, whenever a fill or a cancel is observed: at most one amendment
    for each step, to a price of the grid inside the quote it was computed from and other
    than the price before it, and none after the loop has observed the fill or the cancel. -/
theorem reprice_loop_sends (args : Args) (inputs : List Input)
    (hquotes : ∀ r : Reading, .resume r ∈ inputs → r.quote.OnGrid args.tick) :
    args.Sends inputs (runFrom args inputs).log args.totalSteps := by
  have hholds : args.Holds inputs (runFrom args inputs) :=
    Along.invariant (P := fun _ input => input ∈ inputs) (fun _ _ h hinput => h.step hquotes hinput) inputs
      (Args.Walks.start args inputs) (.of_forall inputs fun _ h => h)
  exact hholds.sends

/-- A quote of ten cents. -/
def tenCents : Reading where
  snapshot := { bid := 100, ask := 10010 / 100 }

/-- A BUY in two steps: two amendments, the second to the ask. -/
theorem reprice_loop_sends_two :
    (amendments (runFrom ⟨.buy, 2, 10005 / 100, none⟩ (List.replicate 9 (.resume tenCents))).log).map Amendment.newPrice =
        [10008 / 100, 10010 / 100] ∧
      Args.Sends ⟨.buy, 2, 10005 / 100, none⟩ (List.replicate 9 (.resume tenCents))
        (runFrom ⟨.buy, 2, 10005 / 100, none⟩ (List.replicate 9 (.resume tenCents))).log 2 := by
  refine ⟨by decide +kernel, reprice_loop_sends ⟨.buy, 2, 10005 / 100, none⟩ _ fun r hr => ?_⟩
  obtain rfl : r = tenCents := Input.resume.inj (List.eq_of_mem_replicate hr)
  exact ⟨by decide +kernel, by decide +kernel, by decide +kernel, by decide +kernel⟩

end IbTrader.Engine.RepriceLoop
