/-
  IbTrader.Bots.BarFeed

  The bar branch of `_dispatch_event` (`ib_trader/bots/runtime.py`): what becomes
  of the 5-second bars a running bot is delivered.

  The branch looks at the state before it looks at the bar.  While an order is in
  flight the strategy is not to be asked, and the bar does not reach the
  aggregator either.  `feed` is the bot; `complete` hands over at the same moments
  but aggregates every bar delivered.  The two agree throughout exactly when no
  new bar comes at a moment the bot does not look (`feedComplete_iff`).
-/

import IbTrader.Bots.BarAggregator
import IbTrader.Bots.Lifecycle
import IbTrader.Lib.Mealy
import IbTrader.Lib.Run

namespace IbTrader.Bots.BarFeed

open Lib

-- ============================================================================
-- The bar branch
-- ============================================================================

/-- A 5-second bar of the stream, and what its dispatch finds. -/
structure Delivery where
  bar : Bar
  /-- the state `_refresh_state` reads, `none` where it raises -/
  found : Option BotState
  /-- the post-warmup cooldown is not over -/
  cooling : Bool := false
  deriving DecidableEq, Repr

/-- The event the strategy is handed; the symbol is the bot's own. -/
structure BarCompleted where
  bar : Bar
  window : List Bar
  barCount : ℕ
  deriving DecidableEq, Repr

/-- The states the gate keeps out. -/
def inFlight (s : BotState) : Bool := s = .entryOrderPlaced ∨ s = .exitOrderPlaced

/-- The dispatch gets past the refresh and the gate. -/
def Delivery.looks (d : Delivery) : Bool := d.found.any fun s => !inFlight s

/-- From the completed bars to the strategy: the last one, once the cooldown is over
    and the window is full. -/
def handOver (aggregator : BarAggregator) (completed : List Bar) (cooling : Bool) :
    List BarCompleted :=
  match completed.getLast? with
  | none => []
  | some lastBar =>
    if cooling then []
    else match aggregator.getBarWindow with
      | none | some [] => []
      | some window =>
        [{ bar := lastBar, window := window, barCount := aggregator.totalBarCount }]

/-- The bar branch of `_dispatch_event`. -/
def dispatchBar (a : BarAggregator) (d : Delivery) : BarAggregator × List BarCompleted :=
  if d.looks then
    let (next, completed) := a.addBars [d.bar]
    (next, handOver next completed d.cooling)
  else (a, [])

/-- The bot as a machine: bars in, what the strategy is handed out. -/
def feed : Mealy BarAggregator Delivery BarCompleted where
  next a d := (dispatchBar a d).1
  emit a d := (dispatchBar a d).2

/-- The same moments, with every bar aggregated. -/
def complete : Mealy BarAggregator Delivery BarCompleted where
  next a d := (a.addBars [d.bar]).1
  emit a d :=
    if d.looks then
      let (next, completed) := a.addBars [d.bar]
      handOver next completed d.cooling
    else []

/-- `complete` aggregates the bars delivered, all of them. -/
theorem complete_run (ds : List Delivery) (a : BarAggregator) :
    complete.run a ds = (a.addBars (ds.map Delivery.bar)).1 := by
  induction ds generalizing a with
  | nil => rfl
  | cons d ds ih =>
    rw [Mealy.run_cons, ih, List.map_cons, BarAggregator.addBars_cons]
    rfl

-- ============================================================================
-- The property
-- ============================================================================

/-- The aggregator holds the bars of everything delivered, and the strategy has been
    handed what they complete at the moments it is asked. -/
structure FeedComplete (a : BarAggregator) (ds : List Delivery) : Prop where
  contents : feed.run a ds = (a.addBars (ds.map Delivery.bar)).1
  handed : feed.trace a ds = complete.trace a ds

/-- The bar is looked at, or is one that has been seen. -/
def Counted (a : BarAggregator) (d : Delivery) : Prop := d.looks = false → a.seen d.bar

instance (a : BarAggregator) (d : Delivery) : Decidable (Counted a d) :=
  inferInstanceAs (Decidable (_ → _))

-- ============================================================================
-- One bar
-- ============================================================================

section Step

variable {a : BarAggregator} {d : Delivery}

theorem addBars_single (a : BarAggregator) (bar : Bar) : a.addBars [bar] = a.addBar bar := by
  rw [BarAggregator.addBars_cons, BarAggregator.addBars_nil, List.append_nil]

/-- A bar changes the aggregator exactly when it is new. -/
theorem addBar_eq_self_iff (a : BarAggregator) (bar : Bar) :
    (a.addBar bar).1 = a ↔ a.seen bar := by
  constructor
  · intro hsame
    by_contra hnew
    have hlast := BarAggregator.addBar_lastSeenTs hnew
    rw [hsame] at hlast
    exact hnew ⟨bar.time, hlast, le_rfl⟩
  · intro hseen
    rw [BarAggregator.addBar_seen hseen]

/-- The two machines step alike exactly when the bar is counted. -/
theorem feed_next_eq_iff : feed.next a d = complete.next a d ↔ Counted a d := by
  show (dispatchBar a d).1 = (a.addBars [d.bar]).1 ↔ Counted a d
  unfold dispatchBar Counted
  rw [addBars_single]
  cases d.looks with
  | true => simp
  | false =>
    simp only [Bool.false_eq_true, if_false, forall_const]
    exact eq_comm.trans (addBar_eq_self_iff a d.bar)

/-- At the moments the bot looks, it hands over what there is. -/
theorem feed_emit (a : BarAggregator) (d : Delivery) : feed.emit a d = complete.emit a d := by
  show (dispatchBar a d).2 = complete.emit a d
  unfold dispatchBar
  simp only [complete]
  split <;> rfl

/-- After a counted bar the run goes on as the complete one does. -/
theorem feedComplete_cons (h : Counted a d) (ds : List Delivery) :
    FeedComplete a (d :: ds) ↔ FeedComplete (feed.next a d) ds := by
  have hnext := feed_next_eq_iff.mpr h
  have hcontents : (a.addBars ((d :: ds).map Delivery.bar)).1 =
      ((feed.next a d).addBars (ds.map Delivery.bar)).1 := by
    rw [← complete_run, ← complete_run, hnext, Mealy.run_cons]
  have htrace : feed.trace a (d :: ds) = complete.trace a (d :: ds) ↔
      feed.trace (feed.next a d) ds = complete.trace (feed.next a d) ds := by
    rw [Mealy.trace_cons, Mealy.trace_cons, feed_emit, ← hnext, List.append_cancel_left_eq]
  constructor
  · rintro ⟨hrun, htr⟩
    exact ⟨by rw [← hcontents]; exact hrun, htrace.mp htr⟩
  · rintro ⟨hrun, htr⟩
    exact ⟨by rw [hcontents]; exact hrun, htrace.mpr htr⟩

end Step

-- ============================================================================
-- Every run
-- ============================================================================

/-- At every moment of a run nothing delivered is missing, exactly when every bar of
    it is counted: it is looked at when it comes, or had been seen. -/
theorem feedComplete_iff (a : BarAggregator) (ds : List Delivery) :
    (∀ es, es <+: ds → FeedComplete a es) ↔ Along feed.next Counted a ds := by
  induction ds generalizing a with
  | nil =>
    refine ⟨fun _ => trivial, fun _ es hes => ?_⟩
    rw [List.prefix_nil.mp hes]
    exact ⟨rfl, rfl⟩
  | cons d ds ih =>
    constructor
    · intro hall
      have hfirst : FeedComplete a [d] := hall [d] ⟨ds, rfl⟩
      have hcounted : Counted a d := feed_next_eq_iff.mp hfirst.contents
      refine ⟨hcounted, (ih _).mp fun es hes => ?_⟩
      exact (feedComplete_cons hcounted es).mp (hall _ (List.cons_prefix_cons.mpr ⟨rfl, hes⟩))
    · rintro ⟨hcounted, halong⟩ es hes
      cases es with
      | nil => exact ⟨rfl, rfl⟩
      | cons e es =>
        obtain ⟨rfl, htail⟩ := List.cons_prefix_cons.mp hes
        exact (feedComplete_cons hcounted es).mpr ((ih _).mpr halong es htail)

/-- A flat bar of this second and price. -/
def barAt (second : ℕ) (price : ℚ) : Bar where
  timestampUtc := .datetime (second * 1000000)
  open_ := price
  high := price
  low := price
  close := price
  volume := 1

/-- An order is in flight while the second bar of a slot comes. -/
def orderMeanwhile : List Delivery :=
  [{ bar := barAt 0 100, found := some .awaitingEntryTrigger },
    { bar := barAt 5 110, found := some .entryOrderPlaced },
    { bar := barAt 10 105, found := some .awaitingExitTrigger }]

/-- The strategy is handed a bar of ten seconds without its high. -/
theorem feedComplete_fails :
    ¬∀ (a : BarAggregator) (ds : List Delivery), feed.trace a ds = complete.trace a ds := by
  intro hall
  have hhigh := congrArg (fun trace => trace.map fun p => p.2.bar.high)
    (hall { targetSeconds := 10, lookbackBars := 1 } orderMeanwhile)
  exact absurd hhigh (by decide +kernel)

end IbTrader.Bots.BarFeed
