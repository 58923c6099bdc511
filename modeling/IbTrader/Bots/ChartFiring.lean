/-
  IbTrader.Bots.ChartFiring

  When the stop of a chart-signal position fires, over a whole sequence of ticks.

  The timer of a marginal trade and the sample clock of a clean one are in the document.
  They are the timer and the clock of `Lib.Linger` and `Lib.Poll` for the condition that
  the tick has reached the stop (`docOn_position`), and the stop is that of the best price
  so far.
-/

import IbTrader.Lib.Linger
import IbTrader.Bots.ChartRatchet

namespace IbTrader.Bots.ChartSignal

open IbTrader.Lib

-- ============================================================================
-- One tick
-- ============================================================================

/-- The time of the first is late enough for the second, of a marginal trade. -/
def lingered (config : Config) (start now : Datetime) : Prop :=
  config.slLingerMarginalSeconds ≤ secondsSince start now

instance lingered.decidable (config : Config) (start now : Datetime) : Decidable (lingered config start now) :=
  inferInstanceAs (Decidable (_ ≤ _))

/-- The same of a clean trade. -/
def polled (config : Config) (start now : Datetime) : Prop :=
  config.slCheckCleanSeconds ≤ secondsSince start now

instance polled.decidable (config : Config) (start now : Datetime) : Decidable (polled config start now) :=
  inferInstanceAs (Decidable (_ ≤ _))

section Tick

variable {config : Config} {doc : Doc} {now : Datetime} {mid : ℚ}

theorem lingerTimer_eq (config : Config) (doc : Doc) (now : Datetime) (breached : Bool) :
    lingerTimer config doc now breached =
      (Linger.next (lingered config) doc.slTouch breached now, Linger.fire (lingered config) doc.slTouch breached now) := by
  unfold lingerTimer Linger.next Linger.fire
  cases breached with
  | false => rfl
  | true =>
    cases doc.slTouch with
    | none => rfl
    | some start =>
      by_cases hdue : config.slLingerMarginalSeconds ≤ secondsSince start now
      · have hlingered : lingered config start now := hdue
        simp [hdue, hlingered]
      · have hlingered : ¬ lingered config start now := hdue
        simp [hdue, hlingered]

theorem pollTimer_eq {last : Datetime} (h : doc.slLastCheckTs = some last) (now : Datetime) (breached : Bool) :
    pollTimer config doc now breached =
      (some (if polled config last now then now else last), breached && decide (polled config last now)) := by
  unfold pollTimer
  rw [h, Option.elim_some]
  by_cases hdue : config.slCheckCleanSeconds ≤ secondsSince last now
  · have hpolled : polled config last now := hdue
    simp [hdue, hpolled]
  · have hpolled : ¬ polled config last now := hdue
    simp [hdue, hpolled]

/-- The documents are of one position, with the same timers. -/
structure SamePosition (a b : Doc) : Prop where
  entryLine : a.entryLine = b.entryLine
  entryPrice : a.entryPrice = b.entryPrice
  qty : a.qty = b.qty
  slTouch : a.slTouch = b.slTouch
  slLastCheckTs : a.slLastCheckTs = b.slLastCheckTs

theorem samePosition_ratchet (config : Config) (doc : Doc) (price : ℚ) (line : Option ℚ) :
    SamePosition (doc.ratchet config price line) doc := by
  unfold Doc.ratchet Doc.setWaterMark
  cases doc.direction with
  | long => exact ⟨rfl, rfl, rfl, rfl, rfl⟩
  | short => exact ⟨rfl, rfl, rfl, rfl, rfl⟩

/-- What a tick does, apart from the stop. -/
structure Ticked (config : Config) (doc : Doc) (now : Datetime) (breached : Bool) (out : Outcome) : Prop where
  entryLine : out.doc.entryLine = doc.entryLine
  entryPrice : out.doc.entryPrice = doc.entryPrice
  qty : out.doc.qty = doc.qty
  slTouch : isMarginal doc → out.doc.slTouch = (lingerTimer config doc now breached).1
  slLastCheckTs : ¬ isMarginal doc → out.doc.slLastCheckTs = (pollTimer config doc now breached).1
  exit : out.exit =
    if (if isMarginal doc then (lingerTimer config doc now breached).2 else (pollTimer config doc now breached).2)
    then some "trail_stop" else none

theorem onStop_ticked (config : Config) (doc : Doc) (now : Datetime) (mid : ℚ) :
    Ticked config doc now (breachedAt config doc mid) (onStop config doc now mid) := by
  have hsame := samePosition_ratchet config doc mid (frozenLine doc)
  unfold onStop timed
  by_cases hmarginal : isMarginal doc
  · simp only [if_pos hmarginal]
    split
    · exact ⟨hsame.entryLine, hsame.entryPrice, hsame.qty, fun _ => rfl, absurd hmarginal, by simp [*]⟩
    · exact ⟨hsame.entryLine, hsame.entryPrice, hsame.qty, fun _ => rfl, absurd hmarginal, by simp [*]⟩
  · simp only [if_neg hmarginal]
    split
    · exact ⟨hsame.entryLine, hsame.entryPrice, hsame.qty, fun h => absurd h hmarginal, fun _ => rfl, by simp [*]⟩
    · exact ⟨hsame.entryLine, hsame.entryPrice, hsame.qty, fun h => absurd h hmarginal, fun _ => rfl, by simp [*]⟩

/-- A tick of a position whose exit on a counter line is disabled. -/
theorem onQuote_ticked {counterExit : Option String} (hcounter : config.counterExitEnabled = false)
    (hprice : 0 < doc.entryPrice) (hqty : 0 < doc.qty) (hmid : 0 < mid) :
    Ticked config doc now (breachedAt config doc mid)
      (onQuote config .awaitingExitTrigger doc now mid counterExit) := by
  have hposition : ¬ (doc.entryPrice ≤ 0 ∨ doc.qty ≤ 0) := not_or.mpr ⟨not_le.mpr hprice, not_le.mpr hqty⟩
  unfold onQuote counterAsked
  rw [if_neg (not_not.mpr rfl), if_neg hposition, if_neg (not_le.mpr hmid), hcounter]
  have hticked := onStop_ticked config
    { doc with lastPrice := some mid, unrealizedPnl := some (unrealized config doc mid) } now mid
  exact ⟨hticked.entryLine, hticked.entryPrice, hticked.qty, hticked.slTouch, hticked.slLastCheckTs, hticked.exit⟩

end Tick

-- ============================================================================
-- A sequence of ticks
-- ============================================================================

structure Tick where
  now : Datetime
  mid : ℚ
  counterExit : Option String := none
  deriving DecidableEq, Repr

def Tick.event (t : Tick) : Event := .tick t.now t.mid t.counterExit

/-- The document before a tick. -/
def docOn (config : Config) (start : Doc) (ticks : ℕ → Tick) (k : ℕ) : Doc :=
  docAt config start (fun i => (ticks i).event) k

/-- The stop fires at a tick. -/
def firesOn (config : Config) (start : Doc) (ticks : ℕ → Tick) (k : ℕ) : Bool :=
  (handle config (docOn config start ticks k) (ticks k).event).exit = some "trail_stop"

/-- The best of the fill price and of the prices before a tick. -/
def bestMid (d : Direction) (fillPrice : ℚ) (ticks : ℕ → Tick) : ℕ → ℚ
  | 0 => fillPrice
  | k + 1 => better d (bestMid d fillPrice ticks k) (ticks k).mid

/-- The stop at a tick: the tighter of the line and of the band behind the best price. -/
def stopOn (config : Config) (start : Doc) (fillPrice : ℚ) (ticks : ℕ → Tick) (k : ℕ) : ℚ :=
  tighter start.direction (frozenLine start)
    (trailStop start.direction config.trailWidth (bestMid start.direction fillPrice ticks (k + 1)))

/-- The tick has reached the stop. -/
def breachedOn (config : Config) (start : Doc) (fillPrice : ℚ) (ticks : ℕ → Tick) (k : ℕ) : Bool :=
  reached start.direction (ticks k).mid (stopOn config start fillPrice ticks k)

section Ticks

variable {config : Config} {start : Doc} {fill : Fill} {ticks : ℕ → Tick}

/-- The document before a tick, in terms of the ticks before it. -/
structure Position (config : Config) (start : Doc) (fill : Fill) (ticks : ℕ → Tick) (k : ℕ) : Prop where
  entryLine : (docOn config start ticks k).entryLine = start.entryLine
  entryPrice : (docOn config start ticks k).entryPrice = fill.fillPrice
  qty : (docOn config start ticks k).qty = fill.qty
  waterMark : (docOn config start ticks k).waterMark start.direction =
    some (bestMid start.direction fill.fillPrice ticks k)
  slTouch : isMarginal start → (docOn config start ticks k).slTouch =
    Linger.timerAt (lingered config) (breachedOn config start fill.fillPrice ticks) (fun i => (ticks i).now) k
  slLastCheckTs : ¬ isMarginal start → (docOn config start ticks k).slLastCheckTs =
    some (Poll.lastSample (polled config) fill.now (fun i => (ticks i).now) k)

theorem Position.direction {k : ℕ} (h : Position config start fill ticks k) :
    (docOn config start ticks k).direction = start.direction := by
  rw [Doc.direction, Doc.direction, h.entryLine]

theorem Position.isMarginal {k : ℕ} (h : Position config start fill ticks k) :
    isMarginal (docOn config start ticks k) = isMarginal start := by
  rw [ChartSignal.isMarginal, ChartSignal.isMarginal, h.entryLine]

/-- The stop that the tick is held against is that of the best price so far. -/
theorem Position.breachedAt {k : ℕ} (h : Position config start fill ticks k) :
    breachedAt config (docOn config start ticks k) (ticks k).mid = breachedOn config start fill.fillPrice ticks k := by
  have hmark : (docOn config start ticks k).nextMark (ticks k).mid =
      bestMid start.direction fill.fillPrice ticks (k + 1) := by
    rw [Doc.nextMark, h.direction, h.waterMark, Option.getD_some, bestMid]
  have hline : frozenLine (docOn config start ticks k) = frozenLine start := by
    rw [frozenLine, frozenLine, h.entryLine]
  rw [ChartSignal.breachedAt, breachedOn, stopOn, Doc.stopAt, Doc.trail, h.direction, hmark, hline]
  rfl

/-- The entry fill seeds the mark and both timers. -/
theorem position_zero {doc : Doc} (hfill : onFill config .awaitingExitTrigger doc fill = some start) :
    Position config start fill ticks 0 := by
  have hmark := (standing_zero hfill).1
  obtain rfl := onFill_eq_some hfill
  exact ⟨rfl, rfl, rfl, hmark, fun _ => rfl, fun _ => rfl⟩

/-- A tick of the position. -/
theorem Position.ticked {k : ℕ} (h : Position config start fill ticks k)
    (hcounter : config.counterExitEnabled = false) (hprice : 0 < fill.fillPrice) (hqty : 0 < fill.qty)
    (hmid : 0 < (ticks k).mid) :
    Ticked config (docOn config start ticks k) (ticks k).now (breachedOn config start fill.fillPrice ticks k)
      (handle config (docOn config start ticks k) (ticks k).event) := by
  rw [← h.breachedAt]
  exact onQuote_ticked hcounter (h.entryPrice ▸ hprice) (h.qty ▸ hqty) hmid

/-- A tick evaluates the stop. -/
theorem Position.evaluation {k : ℕ} (h : Position config start fill ticks k)
    (hcounter : config.counterExitEnabled = false) (hprice : 0 < fill.fillPrice) (hqty : 0 < fill.qty)
    (hmid : 0 < (ticks k).mid) :
    evaluationAt config start (fun i => (ticks i).event) k = some ((ticks k).mid, frozenLine (docOn config start ticks k)) := by
  have hposition : ¬ ((docOn config start ticks k).entryPrice ≤ 0 ∨ (docOn config start ticks k).qty ≤ 0 ∨
      (ticks k).mid ≤ 0) := by
    rw [h.entryPrice, h.qty]
    exact not_or.mpr ⟨not_le.mpr hprice, not_or.mpr ⟨not_le.mpr hqty, not_le.mpr hmid⟩⟩
  have hasked : counterAsked config (ticks k).counterExit = none := by rw [counterAsked, hcounter]; rfl
  show ChartSignal.evaluation config (docOn config start ticks k) (.tick _ _ _) = _
  rw [ChartSignal.evaluation, if_neg hposition, if_neg (not_not.mpr hasked)]

theorem Position.succ {k : ℕ} (h : Position config start fill ticks k)
    (hcounter : config.counterExitEnabled = false) (hprice : 0 < fill.fillPrice) (hqty : 0 < fill.qty)
    (hmid : 0 < (ticks k).mid) : Position config start fill ticks (k + 1) where
  entryLine := (h.ticked hcounter hprice hqty hmid).entryLine.trans h.entryLine
  entryPrice := (h.ticked hcounter hprice hqty hmid).entryPrice.trans h.entryPrice
  qty := (h.ticked hcounter hprice hqty hmid).qty.trans h.qty
  waterMark := (docAt_succ_of_some (h.evaluation hcounter hprice hqty hmid) h.waterMark).1
  slTouch := by
    intro hmarginal
    have htouch := (h.ticked hcounter hprice hqty hmid).slTouch (h.isMarginal.symm ▸ hmarginal)
    rw [lingerTimer_eq, h.slTouch hmarginal] at htouch
    exact htouch
  slLastCheckTs := by
    intro hclean
    have hcheck := (h.ticked hcounter hprice hqty hmid).slLastCheckTs (h.isMarginal.symm ▸ hclean)
    rw [pollTimer_eq (h.slLastCheckTs hclean)] at hcheck
    exact hcheck

/-- The mark, the timer and the sample clock at every tick. -/
theorem docOn_position {doc : Doc} (hfill : onFill config .awaitingExitTrigger doc fill = some start)
    (hcounter : config.counterExitEnabled = false) (hprice : 0 < fill.fillPrice) (hqty : 0 < fill.qty)
    (hmid : ∀ k, 0 < (ticks k).mid) (k : ℕ) : Position config start fill ticks k := by
  induction k with
  | zero => exact position_zero hfill
  | succ k ih => exact ih.succ hcounter hprice hqty (hmid k)

theorem exit_eq_trail_stop (b : Bool) : decide ((if b then some "trail_stop" else none) = some "trail_stop") = b := by
  cases b with
  | false => rfl
  | true => rfl

/-- A marginal trade fires as the timer does. -/
theorem firesOn_of_marginal (hposition : ∀ k, Position config start fill ticks k) (hmarginal : isMarginal start)
    (hticked : ∀ k, Ticked config (docOn config start ticks k) (ticks k).now
      (breachedOn config start fill.fillPrice ticks k) (handle config (docOn config start ticks k) (ticks k).event)) :
    firesOn config start ticks =
      Linger.firesAt (lingered config) (breachedOn config start fill.fillPrice ticks) (fun i => (ticks i).now) := by
  funext k
  have hmarginalAt : isMarginal (docOn config start ticks k) := (hposition k).isMarginal.symm ▸ hmarginal
  rw [firesOn, (hticked k).exit, if_pos hmarginalAt, exit_eq_trail_stop, lingerTimer_eq,
    (hposition k).slTouch hmarginal]
  rfl

/-- A clean trade fires where a sample finds the stop reached. -/
theorem firesOn_of_clean (hposition : ∀ k, Position config start fill ticks k) (hclean : ¬ isMarginal start)
    (hticked : ∀ k, Ticked config (docOn config start ticks k) (ticks k).now
      (breachedOn config start fill.fillPrice ticks k) (handle config (docOn config start ticks k) (ticks k).event))
    (k : ℕ) :
    firesOn config start ticks k = (breachedOn config start fill.fillPrice ticks k &&
      decide (polled config (Poll.lastSample (polled config) fill.now (fun i => (ticks i).now) k) (ticks k).now)) := by
  have hcleanAt : ¬ isMarginal (docOn config start ticks k) := (hposition k).isMarginal.symm ▸ hclean
  rw [firesOn, (hticked k).exit, if_neg hcleanAt, exit_eq_trail_stop, pollTimer_eq ((hposition k).slLastCheckTs hclean)]

/-- A marginal trade fires exactly at a breached tick that ends a run of breached ticks,
    with no fire in it, from an earlier tick on that is the linger away; a clean one exactly
    at a breached tick that is the poll interval away from the last sample, and its clock is
    that of the samples. -/
theorem stop_fires_iff (config : Config) (doc start : Doc) (fill : Fill) (ticks : ℕ → Tick)
    (hfill : onFill config .awaitingExitTrigger doc fill = some start)
    (hcounter : config.counterExitEnabled = false) (hprice : 0 < fill.fillPrice) (hqty : 0 < fill.qty)
    (hmid : ∀ k, 0 < (ticks k).mid) (k : ℕ) :
    (isMarginal start →
      (firesOn config start ticks k ↔
        breachedOn config start fill.fillPrice ticks k ∧
        ∃ j, Linger.RunFrom (breachedOn config start fill.fillPrice ticks) (firesOn config start ticks) j k ∧
          config.slLingerMarginalSeconds ≤ secondsSince (ticks j).now (ticks k).now)) ∧
    (¬ isMarginal start →
      (docOn config start ticks k).slLastCheckTs =
        some (Poll.lastSample (polled config) fill.now (fun i => (ticks i).now) k) ∧
      (firesOn config start ticks k ↔
        breachedOn config start fill.fillPrice ticks k ∧
        config.slCheckCleanSeconds ≤
          secondsSince (Poll.lastSample (polled config) fill.now (fun i => (ticks i).now) k) (ticks k).now)) := by
  have hposition : ∀ k, Position config start fill ticks k := docOn_position hfill hcounter hprice hqty hmid
  have hticked := fun k => (hposition k).ticked hcounter hprice hqty (hmid k)
  constructor
  · intro hmarginal
    rw [firesOn_of_marginal hposition hmarginal hticked]
    exact Linger.fires_iff
  · intro hclean
    refine ⟨(hposition k).slLastCheckTs hclean, ?_⟩
    rw [firesOn_of_clean hposition hclean hticked k, Bool.and_eq_true, decide_eq_true_iff]
    exact Iff.rfl

end Ticks

/-- A marginal long entered at 100. -/
def marginalDoc : Doc :=
  { entryLine := some { anchorTime := some 0, anchorPrice := 100, marginal := true } }

def noCounter : Config := { counterExitEnabled := false }

/-- A tick at 99 each six seconds. -/
def sixSeconds (k : ℕ) : Tick := { now := 6000000 * (k + 1), mid := 99 }

theorem stop_fires_iff_third :
    firesOn noCounter (entered noCounter marginalDoc buyAt100) sixSeconds 2 ↔
      breachedOn noCounter (entered noCounter marginalDoc buyAt100) 100 sixSeconds 2 ∧
      ∃ j, Linger.RunFrom (breachedOn noCounter (entered noCounter marginalDoc buyAt100) 100 sixSeconds)
          (firesOn noCounter (entered noCounter marginalDoc buyAt100) sixSeconds) j 2 ∧
        noCounter.slLingerMarginalSeconds ≤ secondsSince (sixSeconds j).now (sixSeconds 2).now :=
  (stop_fires_iff noCounter marginalDoc _ buyAt100 sixSeconds rfl rfl (by decide) (by decide)
    (fun _ => show (0 : ℚ) < 99 by norm_num) 2).1 rfl

/-- The third of these ticks is the first at which the run has lasted for ten seconds. -/
example : (List.range 4).map (firesOn noCounter (entered noCounter marginalDoc buyAt100) sixSeconds) =
    [false, false, true, false] := by
  decide +kernel

end IbTrader.Bots.ChartSignal
