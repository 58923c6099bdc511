/-
  IbTrader.Bots.ChartRatchet

  The water mark of a chart-signal position only moves with the position; its published
  stop does so while it is the band behind the mark, but not while it is a line.

  An event either evaluates the stop or leaves it alone (`handle_evaluation`), and the stop
  that stands is that of the last evaluation, with the mark there is (`Standing`).
-/

import Mathlib.Tactic.Linarith
import IbTrader.Bots.ChartStop

namespace IbTrader.Bots.ChartSignal

-- ============================================================================
-- Looser and tighter
-- ============================================================================

section Order

variable {d : Direction} {a b c w : ℚ}

/-- The second price is no looser than the first, or no worse for the position. -/
def NoLooser : Direction → ℚ → ℚ → Prop
  | .long, a, b => a ≤ b
  | .short, a, b => b ≤ a

theorem NoLooser.refl (d : Direction) (a : ℚ) : NoLooser d a a := by
  cases d with
  | long => exact le_refl a
  | short => exact le_refl a

theorem NoLooser.trans (h : NoLooser d a b) (h' : NoLooser d b c) : NoLooser d a c := by
  cases d with
  | long => exact le_trans h h'
  | short => exact le_trans h' h

theorem noLooser_better_left (d : Direction) (a b : ℚ) : NoLooser d a (better d a b) := by
  cases d with
  | long => exact le_max_left a b
  | short => exact min_le_left a b

theorem noLooser_better_right (d : Direction) (a b : ℚ) : NoLooser d b (better d a b) := by
  cases d with
  | long => exact le_max_right a b
  | short => exact min_le_right a b

theorem better_choice (d : Direction) (a b : ℚ) : better d a b = a ∨ better d a b = b := by
  cases d with
  | long => exact max_choice a b
  | short => exact min_choice a b

/-- A band of this width is on the same side of zero as the mark. -/
def IsBand : Direction → ℚ → Prop
  | .long, w => w ≤ 1
  | .short, w => -1 ≤ w

/-- A better mark has a tighter band. -/
theorem noLooser_trailStop (hw : IsBand d w) (h : NoLooser d a b) :
    NoLooser d (trailStop d w a) (trailStop d w b) := by
  cases d with
  | long => exact mul_le_mul_of_nonneg_right h (sub_nonneg.mpr hw)
  | short => exact mul_le_mul_of_nonneg_right h (neg_le_iff_add_nonneg'.mp hw)

end Order

-- ============================================================================
-- Evaluations
-- ============================================================================

/-- The price and the line that an event evaluates the stop with; none where it does not. -/
def evaluation (config : Config) (doc : Doc) : Event → Option (ℚ × Option ℚ)
  | .bar barTime barClose => (projectedLine config doc barTime).map fun line => (barClose, some line)
  | .tick _ mid counterExit =>
    if doc.entryPrice ≤ 0 ∨ doc.qty ≤ 0 ∨ mid ≤ 0 then none
    else if counterAsked config counterExit ≠ none then none
    else some (mid, frozenLine doc)

/-- Two documents have the same line, marks and stop. -/
structure SameStop (a b : Doc) : Prop where
  entryLine : a.entryLine = b.entryLine
  highWaterMark : a.highWaterMark = b.highWaterMark
  lowWaterMark : a.lowWaterMark = b.lowWaterMark
  activeStop : a.activeStop = b.activeStop

theorem SameStop.direction {a b : Doc} (h : SameStop a b) : a.direction = b.direction := by
  rw [Doc.direction, Doc.direction, h.entryLine]

theorem SameStop.waterMark {a b : Doc} (h : SameStop a b) (d : Direction) : a.waterMark d = b.waterMark d := by
  cases d with
  | long => exact h.highWaterMark
  | short => exact h.lowWaterMark

theorem SameStop.trans {a b c : Doc} (h : SameStop a b) (h' : SameStop b c) : SameStop a c where
  entryLine := h.entryLine.trans h'.entryLine
  highWaterMark := h.highWaterMark.trans h'.highWaterMark
  lowWaterMark := h.lowWaterMark.trans h'.lowWaterMark
  activeStop := h.activeStop.trans h'.activeStop

theorem SameStop.setWaterMark {a b : Doc} (h : SameStop a b) (d : Direction) (price : ℚ) :
    SameStop (a.setWaterMark d price) (b.setWaterMark d price) := by
  cases d with
  | long => exact ⟨h.entryLine, rfl, h.lowWaterMark, h.activeStop⟩
  | short => exact ⟨h.entryLine, h.highWaterMark, rfl, h.activeStop⟩

/-- The stop is computed from the line, the marks and the stop alone. -/
theorem SameStop.ratchet {a b : Doc} (h : SameStop a b) (config : Config) (price : ℚ) (line : Option ℚ) :
    SameStop (a.ratchet config price line) (b.ratchet config price line) := by
  have hmark : a.nextMark price = b.nextMark price := by
    rw [Doc.nextMark, Doc.nextMark, h.direction, h.waterMark]
  have htrail : a.trail config price = b.trail config price := by
    rw [Doc.trail, Doc.trail, h.direction, hmark]
  have hstop : a.stopAt config price line = b.stopAt config price line := by
    rw [Doc.stopAt, Doc.stopAt, h.direction, htrail]
  have hset := h.setWaterMark b.direction (b.nextMark price)
  unfold Doc.ratchet
  rw [h.direction, hmark, hstop]
  exact ⟨hset.entryLine, hset.highWaterMark, hset.lowWaterMark, rfl⟩

/-- What an evaluation leaves. -/
def evaluated (config : Config) (doc : Doc) (e : Event) : Doc :=
  match evaluation config doc e with
  | none => doc
  | some (price, line) => doc.ratchet config price line

theorem evaluateExit_sameStop (config : Config) (doc : Doc) (barTime : Datetime) (barClose : ℚ) :
    SameStop (evaluateExit config doc barTime barClose).doc (evaluated config doc (.bar barTime barClose)) := by
  unfold evaluateExit evaluated evaluation
  dsimp only
  cases projectedLine config doc barTime with
  | none => exact ⟨rfl, rfl, rfl, rfl⟩
  | some line =>
    dsimp only [Option.map_some]
    split
    · exact ⟨rfl, rfl, rfl, rfl⟩
    · exact ⟨rfl, rfl, rfl, rfl⟩

theorem timed_sameStop (config : Config) (doc next : Doc) (now : Datetime) (breached : Bool) :
    SameStop (timed config doc next now breached).1 next := by
  unfold timed
  split
  · exact ⟨rfl, rfl, rfl, rfl⟩
  · exact ⟨rfl, rfl, rfl, rfl⟩

theorem onStop_sameStop (config : Config) (doc : Doc) (now : Datetime) (mid : ℚ) :
    SameStop (onStop config doc now mid).doc (doc.ratchet config mid (frozenLine doc)) := by
  have htimed := timed_sameStop config doc (doc.ratchet config mid (frozenLine doc)) now (breachedAt config doc mid)
  unfold onStop
  dsimp only
  split
  · exact ⟨htimed.entryLine, htimed.highWaterMark, htimed.lowWaterMark, htimed.activeStop⟩
  · exact htimed

theorem onQuote_sameStop (config : Config) (doc : Doc) (now : Datetime) (mid : ℚ) (counterExit : Option String) :
    SameStop (onQuote config .awaitingExitTrigger doc now mid counterExit).doc
      (evaluated config doc (.tick now mid counterExit)) := by
  unfold onQuote evaluated evaluation
  dsimp only
  rw [if_neg (not_not.mpr rfl)]
  by_cases hposition : doc.entryPrice ≤ 0 ∨ doc.qty ≤ 0
  · rw [if_pos hposition, if_pos (hposition.imp_right .inl)]
    exact ⟨rfl, rfl, rfl, rfl⟩
  · obtain ⟨hprice, hqty⟩ := not_or.mp hposition
    rw [if_neg hposition]
    by_cases hmid : mid ≤ 0
    · rw [if_pos hmid, if_pos (.inr (.inr hmid))]
      exact ⟨rfl, rfl, rfl, rfl⟩
    · rw [if_neg hmid, if_neg (not_or.mpr ⟨hprice, not_or.mpr ⟨hqty, hmid⟩⟩)]
      cases counterAsked config counterExit with
      | some label =>
        rw [if_pos (Option.some_ne_none label)]
        exact ⟨rfl, rfl, rfl, rfl⟩
      | none =>
        rw [if_neg (not_not.mpr rfl)]
        have hsame : SameStop { doc with lastPrice := some mid, unrealizedPnl := some (unrealized config doc mid) } doc :=
          ⟨rfl, rfl, rfl, rfl⟩
        exact (onStop_sameStop config _ now mid).trans (hsame.ratchet config mid (frozenLine doc))

/-- An event leaves the mark and the stop as its evaluation does. -/
theorem handle_evaluation (config : Config) (doc : Doc) (e : Event) :
    SameStop (handle config doc e).doc (evaluated config doc e) := by
  cases e with
  | bar barTime barClose => exact evaluateExit_sameStop config doc barTime barClose
  | tick now mid counterExit => exact onQuote_sameStop config doc now mid counterExit

theorem evaluated_direction (config : Config) (doc : Doc) (e : Event) :
    (evaluated config doc e).direction = doc.direction := by
  unfold evaluated
  split
  · rfl
  · unfold Doc.ratchet Doc.setWaterMark Doc.direction
    split
    · rfl
    · rfl

theorem ratchet_waterMark (config : Config) (doc : Doc) (price : ℚ) (line : Option ℚ) :
    (doc.ratchet config price line).waterMark doc.direction = some (doc.nextMark price) := by
  unfold Doc.ratchet Doc.setWaterMark Doc.waterMark
  cases doc.direction with
  | long => rfl
  | short => rfl

-- ============================================================================
-- Runs
-- ============================================================================

section Run

variable {config : Config} {start : Doc} {events : ℕ → Event}

/-- The evaluation of an event of the run. -/
def evaluationAt (config : Config) (start : Doc) (events : ℕ → Event) (k : ℕ) : Option (ℚ × Option ℚ) :=
  evaluation config (docAt config start events k) (events k)

/-- The stop is the tighter of a line, if there is one, and of a band. -/
def tighter (d : Direction) (line : Option ℚ) (trail : ℚ) : ℚ :=
  line.elim trail fun value => better d value trail

theorem noLooser_tighter (d : Direction) (line : Option ℚ) (trail : ℚ) : NoLooser d trail (tighter d line trail) := by
  cases line with
  | none => exact .refl d trail
  | some value => exact noLooser_better_right d value trail

/-- A stop that is not the band is the line. -/
theorem tighter_choice (d : Direction) (line : Option ℚ) (trail : ℚ) :
    tighter d line trail = trail ∨ ∃ value, line = some value ∧ tighter d line trail = value := by
  cases line with
  | none => exact .inl rfl
  | some value => exact (better_choice d value trail).symm.imp_right fun h => ⟨value, rfl, h⟩

theorem docAt_direction (k : ℕ) : (docAt config start events k).direction = start.direction := by
  induction k with
  | zero => rfl
  | succ k ih => rw [docAt, (handle_evaluation _ _ _).direction, evaluated_direction, ih]

/-- An event that does not evaluate the stop leaves it and the mark. -/
theorem docAt_succ_of_none {k : ℕ} (h : evaluationAt config start events k = none) :
    SameStop (docAt config start events (k + 1)) (docAt config start events k) := by
  have hsame := handle_evaluation config (docAt config start events k) (events k)
  rwa [evaluated, show evaluation _ _ _ = none from h] at hsame

/-- The mark and the stop after an evaluation. -/
theorem docAt_succ_of_some {k : ℕ} {price mark : ℚ} {line : Option ℚ}
    (h : evaluationAt config start events k = some (price, line))
    (hmark : (docAt config start events k).waterMark start.direction = some mark) :
    (docAt config start events (k + 1)).waterMark start.direction = some (better start.direction mark price) ∧
      (docAt config start events (k + 1)).activeStop =
        some (tighter start.direction line
          (trailStop start.direction config.trailWidth (better start.direction mark price))) := by
  have hsame := handle_evaluation config (docAt config start events k) (events k)
  rw [evaluated, show evaluation _ _ _ = some (price, line) from h] at hsame
  have hnext : (docAt config start events k).nextMark price = better start.direction mark price := by
    rw [Doc.nextMark, docAt_direction, hmark, Option.getD_some]
  constructor
  · have hratchet := ratchet_waterMark config (docAt config start events k) price line
    rwa [docAt_direction, hnext, ← hsame.waterMark] at hratchet
  · have hstop : (docAt config start events (k + 1)).activeStop =
        some ((docAt config start events k).stopAt config price line) := hsame.activeStop
    rw [hstop, Doc.stopAt, Doc.trail, docAt_direction, hnext]
    rfl

/-- There has been no evaluation yet. -/
def NoneBefore (config : Config) (start : Doc) (events : ℕ → Event) (k : ℕ) : Prop :=
  ∀ i < k, evaluationAt config start events i = none

/-- The last evaluation before an event, and its line. -/
structure LastBefore (config : Config) (start : Doc) (events : ℕ → Event) (line : Option ℚ) (j k : ℕ) : Prop where
  lt : j < k
  evaluates : ∃ price, evaluationAt config start events j = some (price, line)
  last : ∀ i, j < i → i < k → evaluationAt config start events i = none

/-- The stop that stands: the seed's band, or the stop of the last evaluation. -/
def Standing (config : Config) (start : Doc) (events : ℕ → Event) (mark stop : ℚ) (k : ℕ) : Prop :=
  (NoneBefore config start events k ∧ stop = trailStop start.direction config.seedWidth mark) ∨
    ∃ j line, LastBefore config start events line j k ∧
      stop = tighter start.direction line (trailStop start.direction config.trailWidth mark)

/-- An event that does not evaluate the stop leaves what stands. -/
theorem Standing.keep {mark stop : ℚ} {k : ℕ} (h : Standing config start events mark stop k)
    (hnone : evaluationAt config start events k = none) : Standing config start events mark stop (k + 1) := by
  rcases h with ⟨hbefore, hstop⟩ | ⟨j, line, hlast, hstop⟩
  · refine .inl ⟨fun i hi => ?_, hstop⟩
    rcases Nat.lt_succ_iff_lt_or_eq.mp hi with hlt | rfl
    · exact hbefore i hlt
    · exact hnone
  · refine .inr ⟨j, line, ⟨Nat.lt_succ_of_lt hlast.lt, hlast.evaluates, fun i hj hi => ?_⟩, hstop⟩
    rcases Nat.lt_succ_iff_lt_or_eq.mp hi with hlt | rfl
    · exact hlast.last i hj hlt
    · exact hnone

/-- After an evaluation its stop stands. -/
theorem standing_succ {price mark : ℚ} {line : Option ℚ} {k : ℕ}
    (h : evaluationAt config start events k = some (price, line)) :
    Standing config start events mark
      (tighter start.direction line (trailStop start.direction config.trailWidth mark)) (k + 1) :=
  .inr ⟨k, line, ⟨Nat.lt_succ_self k, ⟨price, h⟩, fun i hk hi => absurd hi (by omega)⟩, rfl⟩

/-- What the seed leaves stands. -/
theorem standing_zero {doc : Doc} {fill : Fill} (hfill : onFill config .awaitingExitTrigger doc fill = some start) :
    start.waterMark start.direction = some fill.fillPrice ∧
      start.activeStop = some (trailStop start.direction config.seedWidth fill.fillPrice) := by
  obtain rfl := onFill_eq_some hfill
  have hdirection : (entered config doc fill).direction = doc.direction := by
    unfold entered Doc.setWaterMark Doc.direction
    split
    · rfl
    · rfl
  rw [hdirection]
  refine ⟨?_, rfl⟩
  unfold entered Doc.setWaterMark Doc.waterMark
  cases doc.direction with
  | long => rfl
  | short => rfl

/-- At every event a stop stands. -/
theorem docAt_standing {doc : Doc} {fill : Fill} (hfill : onFill config .awaitingExitTrigger doc fill = some start)
    (events : ℕ → Event) (k : ℕ) :
    ∃ mark stop, (docAt config start events k).waterMark start.direction = some mark ∧
      (docAt config start events k).activeStop = some stop ∧ Standing config start events mark stop k := by
  induction k with
  | zero =>
    obtain ⟨hmark, hstop⟩ := standing_zero hfill
    exact ⟨_, _, hmark, hstop, .inl ⟨fun i hi => absurd hi (Nat.not_lt_zero i), rfl⟩⟩
  | succ k ih =>
    obtain ⟨mark, stop, hmark, hstop, hstanding⟩ := ih
    cases heval : evaluationAt config start events k with
    | none =>
      have hsame := docAt_succ_of_none heval
      exact ⟨mark, stop, (hsame.waterMark _).trans hmark, hsame.activeStop.trans hstop, hstanding.keep heval⟩
    | some evaluation =>
      obtain ⟨price, line⟩ := evaluation
      obtain ⟨hmark', hstop'⟩ := docAt_succ_of_some heval hmark
      exact ⟨_, _, hmark', hstop', standing_succ heval⟩

/-- The stop before the event is the line of an earlier evaluation, and the event
    evaluates without one that is as tight. -/
def LineGivenUp (config : Config) (start : Doc) (events : ℕ → Event) (stop : ℚ) (k : ℕ) : Prop :=
  ∃ j, LastBefore config start events (some stop) j k ∧
    ∃ price line, evaluationAt config start events k = some (price, line) ∧
      ∀ value ∈ line, ¬ NoLooser start.direction stop value

/-- The next stop is no looser than the one that stands, if that is not the seed of
    another width, and not a line that is given up. -/
theorem Standing.noLooser {price mark stop : ℚ} {line : Option ℚ} {k : ℕ}
    (h : Standing config start events mark stop k) (hwidth : IsBand start.direction config.trailWidth)
    (heval : evaluationAt config start events k = some (price, line)) :
    NoLooser start.direction stop
        (tighter start.direction line
          (trailStop start.direction config.trailWidth (better start.direction mark price))) ∨
      (config.trailWidthPct = none ∧ NoneBefore config start events k) ∨
      LineGivenUp config start events stop k := by
  have htrail : NoLooser start.direction (trailStop start.direction config.trailWidth mark)
      (tighter start.direction line
        (trailStop start.direction config.trailWidth (better start.direction mark price))) :=
    (noLooser_trailStop hwidth (noLooser_better_left _ mark price)).trans (noLooser_tighter _ line _)
  rcases h with ⟨hbefore, rfl⟩ | ⟨j, before, hlast, rfl⟩
  · cases hpct : config.trailWidthPct with
    | none => exact .inr (.inl ⟨rfl, hbefore⟩)
    | some width =>
      have hseed : config.seedWidth = config.trailWidth := by rw [Config.seedWidth, Config.trailWidth, hpct]; rfl
      exact .inl (hseed ▸ htrail)
  · rcases tighter_choice start.direction before (trailStop start.direction config.trailWidth mark) with
      hband | ⟨value, rfl, hvalue⟩
    · rw [hband]
      exact .inl htrail
    · rw [hvalue]
      by_cases hline : ∃ next ∈ line, NoLooser start.direction value next
      · obtain ⟨next, rfl, hnext⟩ := hline
        exact .inl (hnext.trans (noLooser_better_left _ next _))
      · exact .inr (.inr ⟨j, hlast, price, line, heval, fun next hmem hnext => hline ⟨next, hmem, hnext⟩⟩)

/-- The mark only moves with the position.  Where the width makes a band, the stop does
    not get looser, except at the first evaluation after a seed of another width, and when
    the line that was the stop is given up for one that is not as tight. -/
theorem docAt_ratchet (config : Config) (doc start : Doc) (fill : Fill)
    (hfill : onFill config .awaitingExitTrigger doc fill = some start) (events : ℕ → Event) (k : ℕ) :
    ∃ mark mark' stop stop',
      (docAt config start events k).waterMark start.direction = some mark ∧
      (docAt config start events (k + 1)).waterMark start.direction = some mark' ∧
      (docAt config start events k).activeStop = some stop ∧
      (docAt config start events (k + 1)).activeStop = some stop' ∧
      NoLooser start.direction mark mark' ∧
      (IsBand start.direction config.trailWidth →
        NoLooser start.direction stop stop' ∨
          (config.trailWidthPct = none ∧ NoneBefore config start events k) ∨
          LineGivenUp config start events stop k) := by
  obtain ⟨mark, stop, hmark, hstop, hstanding⟩ := docAt_standing hfill events k
  cases heval : evaluationAt config start events k with
  | none =>
    have hsame := docAt_succ_of_none heval
    exact ⟨mark, mark, stop, stop, hmark, (hsame.waterMark _).trans hmark, hstop, hsame.activeStop.trans hstop,
      .refl _ mark, fun _ => .inl (.refl _ stop)⟩
  | some evaluation =>
    obtain ⟨price, line⟩ := evaluation
    obtain ⟨hmark', hstop'⟩ := docAt_succ_of_some heval hmark
    exact ⟨mark, _, stop, _, hmark, hmark', hstop, hstop', noLooser_better_left _ mark price,
      fun hwidth => hstanding.noLooser hwidth heval⟩

end Run

-- ============================================================================
-- A line that rises
-- ============================================================================

def tenPercent : Config := { trailWidthPct := some (1 / 10) }

/-- A long position on a line that rises by one a second from 100. -/
def risingDoc : Doc :=
  { entryLine := some { anchorTime := some 0, anchorPrice := 100, slopePerSec := 1, lineValueAtEntry := some 100 } }

/-- The same without the value at the entry. -/
def unfrozenDoc : Doc :=
  { entryLine := some { anchorTime := some 0, anchorPrice := 100, slopePerSec := 1 } }

def buyAt100 : Fill := { side := "BUY", qty := 1, fillPrice := 100, now := 0 }

def risen : Doc := entered tenPercent risingDoc buyAt100

/-- A bar closes after five seconds, and the price stays there. -/
def barThenTicks : ℕ → Event
  | 0 => .bar 5000000 106
  | _ + 1 => .tick 6000000 106

theorem docAt_ratchet_risen :
    ∃ mark mark' stop stop',
      (docAt tenPercent risen barThenTicks 1).waterMark .long = some mark ∧
      (docAt tenPercent risen barThenTicks 2).waterMark .long = some mark' ∧
      (docAt tenPercent risen barThenTicks 1).activeStop = some stop ∧
      (docAt tenPercent risen barThenTicks 2).activeStop = some stop' ∧
      NoLooser .long mark mark' ∧
      (NoLooser .long stop stop' ∨
        (tenPercent.trailWidthPct = none ∧ NoneBefore tenPercent risen barThenTicks 1) ∨
        LineGivenUp tenPercent risen barThenTicks stop 1) := by
  obtain ⟨mark, mark', stop, stop', hmark, hmark', hstop, hstop', hmoves, hnoLooser⟩ :=
    docAt_ratchet tenPercent risingDoc risen buyAt100 rfl barThenTicks 1
  exact ⟨mark, mark', stop, stop', hmark, hmark', hstop, hstop', hmoves,
    hnoLooser (show (1 / 10 : ℚ) ≤ 1 by norm_num)⟩

/-- A tick gives up the line of the bar, and a band that is wider than the price moves away
    from it. -/
theorem activeStop_loosens :
    (¬ ∀ (config : Config) (doc start : Doc) (fill : Fill) (events : ℕ → Event),
      onFill config .awaitingExitTrigger doc fill = some start → config.trailWidthPct ≠ none →
        IsBand start.direction config.trailWidth → ∀ k stop stop',
        (docAt config start events k).activeStop = some stop →
        (docAt config start events (k + 1)).activeStop = some stop' → NoLooser start.direction stop stop') ∧
    (¬ ∀ (config : Config) (doc start : Doc) (fill : Fill) (events : ℕ → Event),
      onFill config .awaitingExitTrigger doc fill = some start → config.trailWidthPct ≠ none →
        frozenLine start = none → ∀ k stop stop',
        (docAt config start events k).activeStop = some stop →
        (docAt config start events (k + 1)).activeStop = some stop' → NoLooser start.direction stop stop') := by
  constructor
  · intro h
    have hstop : (105 : ℚ) ≤ 100 :=
      h tenPercent risingDoc risen buyAt100 barThenTicks rfl (Option.some_ne_none _)
        (show (1 / 10 : ℚ) ≤ 1 by norm_num) 1 105 100 (by decide +kernel) (by decide +kernel)
    norm_num at hstop
  · intro h
    have hstop : (-100 : ℚ) ≤ -106 :=
      h { trailWidthPct := some 2 } unfrozenDoc _ buyAt100 (fun _ => .tick 6000000 106) rfl (Option.some_ne_none _)
        rfl 0 (-100) (-106) (by decide +kernel) (by decide +kernel)
    norm_num at hstop

end IbTrader.Bots.ChartSignal
