/-
  IbTrader.Bots.ChartEntry

  The entries of the chart-signal bot (`_on_bar` of
  `ib_trader/bots/strategies/chart_signal.py` and `regime.py` beside it), over exact
  arithmetic.

  At the close of a bar the pivot that it confirms may touch a line of its side, or run
  away from one.  What is found passes the regime gate and a chain of filters, some of which
  `allow_marginal_entries` turns into tags.

  The indicators come from a library, and are a parameter.  The texts and the other figures
  of the rows, the BAR row and what of the entry line only the chart reads are left out.
  Where the source has an older name for an option, the option is what the two come to.
-/

import IbTrader.Bots.ChartStop
import IbTrader.Bots.TrailingExit
import IbTrader.Lib.Gates
import IbTrader.Signals.Wedges

namespace IbTrader.Bots.ChartSignal

open Lib Signals.SrFan

-- ============================================================================
-- Configuration and rows
-- ============================================================================

/-- The `FILTER_` names, and the name of the override that is recorded like one. -/
inductive EntryFilter
  | shoulder
  | tightTriangle
  | minTarget
  | farFromPivot
  | staleLine
  | opposingDominance
  | interTouchSpacing
  | tooManyMarginalBypasses
  | counterTrend
  | localPeakInUptrend
  | localTroughInDowntrend
  | flatAmplitude
  | flatExtreme
  | insufficientBarsForRegime
  | regimeDiLeanOverride
  deriving DecidableEq, Repr

/-- A `LogSignal`; a SKIP row without a filter is one that only has a text. -/
inductive Row
  | skip (filter : Option EntryFilter) (marginal : Bool)
  | risk (filter : EntryFilter)
  deriving DecidableEq, Repr

/-- The options, but for the mode. -/
structure EntryRules extends Config where
  symbol : String
  secType : String := "STK"
  barSeconds : ℕ+ := 180
  detectBreakStaleBars : ℤ := 480
  accelOvershootFraction : ℚ := 5 * (2 / 10000)
  accelerationEntryEnabled : Bool := false
  minSlopeRatio : ℚ := 3 / 2
  entryInterTouchSpacingFilterEnabled : Bool := true
  entryLineMaxInterGapRatio : ℚ := 3
  entryShoulderFilterEnabled : Bool := true
  wedgeMaxApexBarsAhead : ℤ := 200
  wedgeMinOverlapBars : ℤ := 5
  entryTriangleBlockDistance : ℤ := 2
  entryMinTargetFilterEnabled : Bool := true
  maxSignalAgeSeconds : ℚ := 10
  entryCounterTrendFilterEnabled : Bool := true
  farFromPivotFilterEnabled : Bool := true
  farFromPivotMaxTrailMult : ℚ := 2
  entryStaleLineFilterEnabled : Bool := true
  entryMaxQAgeHours : ℚ := 24
  entryMinRecentStrictTouches : ℕ := 2
  entryOpposingDominanceFilterEnabled : Bool := true
  entryOpposingDominanceRatio : ℚ := 3
  qtyDefault : ℤ := 1
  regimeFilterEnabled : Bool := true
  adxPeriod : ℕ := 14
  atrPeriod : ℕ := 14
  donchianPeriod : ℕ := 20
  adxTrendingThreshold : ℚ := 25
  adxRangingThreshold : ℚ := 20
  regimeRoundTripCommission : Option ℚ := none
  regimeTypicalBarsInTrade : ℚ := 5
  regimeMinEdgeMult : ℚ := 2
  regimeDiLeanThreshold : ℚ := 7
  regimeExtremeTolMult : ℚ := 1
  deriving DecidableEq, Repr

structure EntryConfig extends EntryRules where
  allowMarginalEntries : Bool := false
  entryMarginalMaxBypassedFilters : ℤ := 2
  deriving DecidableEq, Repr

-- ============================================================================
-- Sides
-- ============================================================================

/-- The side whose lines a position of the direction is entered on. -/
def lineType : Direction → LineType
  | .long => .support
  | .short => .resistance

/-- The direction of the opposite side. -/
def opposite : Direction → Direction
  | .long => .short
  | .short => .long

/-- The first slope or distance lies further in the direction than the second. -/
def further (d : Direction) (x y : ℚ) : Bool :=
  match d with
  | .long => y < x
  | .short => x < y

section Series

variable (config : EntryRules) (closes : List ℚ)

/-- `new_pivot_idx`, the pivot that the last bar confirms. -/
def newPivotIdx : ℕ := lastBar closes - 1

/-- `touch_tol`. -/
def touchTol : ℚ :=
  max eps (closes.sum / (max 1 closes.length : ℕ) * config.touchToleranceFraction)

/-- `accel_overshoot_tol`. -/
def accelOvershootTol : ℚ :=
  max (touchTol config closes) (closes.sum / (max 1 closes.length : ℕ) * config.accelOvershootFraction)

/-- `support_pivots` and `resistance_pivots`. -/
def sidePivots (d : Direction) : List ℕ := pivotsOf closes (lineType d) 0

/-- `supports` and `resistances`. -/
def sideLines (d : Direction) : List TrendLine :=
  detectLines closes (lastBar closes) (lineType d) { breakStaleBars := config.detectBreakStaleBars }

/-- `window_bars`, the bars of `entry_max_q_age_hours`. -/
def windowBars : ℤ := TrailingExit.truncated (config.entryMaxQAgeHours * 3600 / (config.barSeconds : ℕ))

end Series

-- ============================================================================
-- The regime
-- ============================================================================

/-- A bar of the window: its time as `_ts_iso` reads it and as `_parse_ts` does. -/
structure ChartBar where
  ts : String
  time : Option Datetime := none
  high : ℚ
  low : ℚ
  close : ℚ
  deriving DecidableEq, Repr

/-- The last row of the indicators; a value that is NaN is missing. -/
structure Indicators where
  adx : Option ℚ := none
  dmp : Option ℚ := none
  dmn : Option ℚ := none
  atr : Option ℚ := none
  dcu : Option ℚ := none
  dcl : Option ℚ := none
  deriving DecidableEq, Repr

inductive Regime
  | up
  | down
  | flat
  | uncertain
  | insufficient
  deriving DecidableEq, Repr

structure RegimeReading extends Indicators where
  regime : Regime
  deriving DecidableEq, Repr

/-- The regime of the last row. -/
def classify (config : EntryRules) (v : Indicators) : Regime :=
  match v.adx, v.dmp, v.dmn, v.atr, v.dcu, v.dcl with
  | some adx, some dmp, some dmn, some _, some _, some _ =>
    if adx < config.adxRangingThreshold then .flat
    else if config.adxTrendingThreshold < adx then if dmn < dmp then .up else .down
    else .uncertain
  | _, _, _, _, _, _ => .insufficient

/-- `compute_regime`. -/
def computeRegime (indicators : List ChartBar → Option Indicators) (config : EntryRules) (bars : List ChartBar) :
    RegimeReading :=
  if bars.length < max (max config.adxPeriod config.atrPeriod) config.donchianPeriod + 2 then { regime := .insufficient }
  else (indicators bars).elim { regime := .insufficient } fun v => { toIndicators := v, regime := classify config v }

/-- `passes_amplitude`. -/
def passesAmplitude (reading : RegimeReading) (costFloor typicalBarsInTrade minEdgeMult : ℚ) : Bool :=
  reading.atr.any fun atr => decide (0 < atr) && decide (minEdgeMult * costFloor ≤ atr * typicalBarsInTrade)

/-- `at_donchian_extreme`. -/
def atDonchianExtreme (reading : RegimeReading) (price : ℚ) (side : Direction) (tol : ℚ) : Bool :=
  match side with
  | .short => reading.dcu.any fun dcu => decide (dcu - tol ≤ price)
  | .long => reading.dcl.any fun dcl => decide (price ≤ dcl + tol)

/-- The filter of a pivot against the trend. -/
def againstTrend : Regime → Direction → Option EntryFilter
  | .up, .short => some .localPeakInUptrend
  | .down, .long => some .localTroughInDowntrend
  | _, _ => none

/-- `di_lean`. -/
def diLean (reading : RegimeReading) : Direction → ℚ
  | .short => reading.dmn.getD 0 - reading.dmp.getD 0
  | .long => reading.dmp.getD 0 - reading.dmn.getD 0

/-- `round_trip_default`, where no commission is configured. -/
def roundTripCommission (config : EntryRules) : ℚ :=
  config.regimeRoundTripCommission.getD
    (if config.symbol = "MGCQ6" then 194 / 100
    else if config.symbol = "MESM6" ∨ config.symbol = "MNQM6" then 124 / 100
    else 1)

/-- `side_in_play`, by the kind of the pivot. -/
def sideInPlay (closes : List ℚ) : Option Direction :=
  if newPivotIdx closes ∈ sidePivots closes .short then some .short
  else if newPivotIdx closes ∈ sidePivots closes .long then some .long
  else none

/-- The regime gate: the row that ends the bar, or those it adds. -/
def regimeGate (config : EntryRules) (closes : List ℚ) (reading : RegimeReading) : Except Row (List Row) :=
  match sideInPlay closes with
  | none => .ok []
  | some side =>
    if config.regimeFilterEnabled = false then .ok []
    else
      match againstTrend reading.regime side with
      | some filter => .error (.skip (some filter) false)
      | none =>
        let costFloor := roundTripCommission config / max config.contractMultiplier eps + 2 * touchTol config closes
        match reading.regime with
        | .up | .down => .ok []
        | .insufficient => .ok [.risk .insufficientBarsForRegime]
        | .flat | .uncertain =>
          if passesAmplitude reading costFloor config.regimeTypicalBarsInTrade config.regimeMinEdgeMult = false then
            .error (.skip (some .flatAmplitude) false)
          else if config.regimeDiLeanThreshold ≤ diLean reading side then .ok [.risk .regimeDiLeanOverride]
          else if atDonchianExtreme reading (close closes (newPivotIdx closes)) side
              (touchTol config closes * config.regimeExtremeTolMult) then .ok []
          else .error (.skip (some .flatExtreme) false)

-- ============================================================================
-- Candidates
-- ============================================================================

inductive EntryPath
  | touch
  | accel
  deriving DecidableEq, Repr

/-- `entry_path`. -/
def EntryPath.text : EntryPath → String
  | .touch => "touch"
  | .accel => "accel"

structure Candidate where
  line : TrendLine
  path : EntryPath
  deriving DecidableEq, Repr

section Candidates

variable (config : EntryRules) (closes : List ℚ)

/-- `longs` and `shorts`: the most touches first, then the steepest. -/
def candidateLines (d : Direction) : List TrendLine :=
  ((sideLines config closes d).filter fun l => minTouches ≤ l.touches ∧ further d l.slope 0).insertionSort
    fun a b => b.touches < a.touches ∨ a.touches = b.touches ∧ ¬ further d b.slope a.slope

/-- The close of the bar lies within the tolerance of the line. -/
def onLine (l : TrendLine) (i : ℕ) : Bool := |close closes i - l.valueAt i| ≤ touchTol config closes

/-- `_has_new_touch`. -/
def hasNewTouch (d : Direction) (l : TrendLine) : Bool :=
  newPivotIdx closes ∈ sidePivots closes d ∧ onLine config closes l (newPivotIdx closes)

/-- The strict touches of the line before the new pivot. -/
def priorTouches (d : Direction) (l : TrendLine) : List ℕ :=
  ((sidePivots closes d).takeWhile (· < newPivotIdx closes)).filter fun piv =>
    l.fromIdx ≤ piv ∧ onLine config closes l piv

/-- `_inter_touch_spacing_ok`. -/
def interTouchSpacingOk (d : Direction) (l : TrendLine) : Bool :=
  match (priorTouches config closes d l).reverse with
  | tPrev :: tPrevPrev :: _ =>
    let gPrev := (tPrev : ℤ) - tPrevPrev
    let gNew := (newPivotIdx closes : ℤ) - tPrev
    if gPrev ≤ 0 ∨ gNew ≤ 0 then true
    else ((max gPrev gNew : ℤ) : ℚ) / (max (min gPrev gNew) 1 : ℤ) ≤ config.entryLineMaxInterGapRatio
  | _ => true

/-- The spacing filter rejects the line. -/
def spacingRejects (d : Direction) (l : TrendLine) : Bool :=
  config.entryInterTouchSpacingFilterEnabled && !interTouchSpacingOk config closes d l

/-- The loop over the lines of a side: the first that is touched anew and spaced well, and
    whether one before it was rejected for its spacing. -/
def touchScan (d : Direction) : List TrendLine → Option Candidate × Bool
  | [] => (none, false)
  | l :: lines =>
    if l.breakIdx.isSome then touchScan d lines
    else if hasNewTouch config closes d l = false then touchScan d lines
    else if spacingRejects config closes d l then ((touchScan d lines).1, true)
    else (some { line := l, path := .touch }, false)

/-- The base line through two pivots of the side. -/
def baseLine (d : Direction) (q p : ℕ) : TrendLine :=
  let slope := (close closes p - close closes q) / ((p : ℚ) - q)
  { type := lineType d
    fromIdx := q
    anchorBIdx := p
    toIdx := lastBar closes
    slope
    intercept := close closes p - slope * p
    touches := 2
    breakIdx := none
    thirdTouchIdx := none }

/-- The new pivot runs away from the line and is steeper than it. -/
def accelerates (d : Direction) (l : TrendLine) : Bool :=
  let new := newPivotIdx closes
  let delta := close closes new - l.valueAt new
  let impliedSlope := (close closes new - close closes l.anchorBIdx) / ((new : ℚ) - l.anchorBIdx)
  let overshoot := accelOvershootTol config closes
  further d l.slope 0 ∧ further d delta (match d with | .long => overshoot | .short => -overshoot) ∧
    ¬ further d (l.slope * config.minSlopeRatio) impliedSlope

/-- `_find_2pivot_accel`. -/
def find2PivotAccel : Option (Direction × TrendLine) :=
  let new := newPivotIdx closes
  let direction :=
    if new ∈ sidePivots closes .long then some Direction.long
    else if new ∈ sidePivots closes .short then some Direction.short
    else none
  direction.bind fun d =>
    match ((sidePivots closes d).filter (· < new)).reverse with
    | p :: q :: _ =>
      if (q : ℤ) < (lastBar closes : ℤ) - windowBars config then none
      else if p ≤ q ∨ new ≤ p then none
      else if accelerates config closes d (baseLine closes d q p) then some (d, baseLine closes d q p)
      else none
    | _ => none

/-- The candidates of the two sides, and whether one was rejected for its spacing. -/
def findCandidates : (Direction → Option Candidate) × Bool :=
  let scan d := touchScan config closes d (candidateLines config closes d)
  let touch d := (scan d).1
  let rejected := (scan .long).2 || (scan .short).2
  match if config.accelerationEntryEnabled then find2PivotAccel config closes else none with
  | none => (touch, rejected)
  | some (d, l) =>
    if spacingRejects config closes d l then (touch, true)
    else if touch d = none then (Function.update touch d (some { line := l, path := .accel }), rejected)
    else (touch, rejected)

end Candidates

-- ============================================================================
-- Filters
-- ============================================================================

section Filters

variable (config : EntryRules) (closes : List ℚ)

/-- The right shoulder of the pivot does not beat the left one. -/
def shoulderViolated (d : Direction) : Bool :=
  config.entryShoulderFilterEnabled ∧ 1 ≤ newPivotIdx closes ∧
    ¬ further d (close closes (lastBar closes)) (close closes (newPivotIdx closes - 1))

/-- `wedges`. -/
def entryWedges : List Wedge :=
  findWedges (sideLines config closes .long) (sideLines config closes .short) (lastBar closes)
    { maxApexBarsAhead := config.wedgeMaxApexBarsAhead
      minOverlapBars := config.wedgeMinOverlapBars
      flatSlopeThreshold := closes.sum / closes.length * (2 / 10000) / 20 }

def triangleViolated : Bool :=
  0 < config.entryTriangleBlockDistance ∧
    (entryWedges config closes).head?.any fun w => w.apexBarsAhead ≤ config.entryTriangleBlockDistance

/-- `trail_dist`. -/
def trailDist : ℚ := |close closes (lastBar closes)| * config.trailWidth

/-- The edge of a wedge that a position runs into. -/
def Wedge.opposing (w : Wedge) : Direction → TrendLine
  | .long => w.resistance
  | .short => w.support

/-- How far a price is from another in the direction. -/
def distance (d : Direction) (price target : ℚ) : ℚ :=
  match d with
  | .long => target - price
  | .short => price - target

/-- `_min_target_reject`. -/
def minTargetViolated (d : Direction) (l : TrendLine) : Bool :=
  config.entryMinTargetFilterEnabled ∧ (entryWedges config closes).head?.any fun w =>
    let entryPrice := close closes (lastBar closes)
    let target := distance d entryPrice ((Wedge.opposing w d).valueAt (lastBar closes))
    let stop := max (trailDist config closes) |entryPrice - l.valueAt (lastBar closes)|
    0 < target ∧ target < stop

def counterTrendViolated (d : Direction) (l : TrendLine) : Bool :=
  config.entryCounterTrendFilterEnabled ∧ further d 0 l.slope

def farFromPivotViolated (l : TrendLine) : Bool :=
  config.farFromPivotFilterEnabled ∧
    trailDist config closes * config.farFromPivotMaxTrailMult <
      |close closes (lastBar closes) - (close closes (lastBar closes - 1) + l.slope)|

/-- The strict touches of the last hours. -/
def recentTouches (d : Direction) (l : TrendLine) : List ℕ :=
  (sidePivots closes d).filter fun piv =>
    max 0 ((lastBar closes : ℤ) - windowBars config) ≤ piv ∧ piv ≤ l.breakIdx.getD (lastBar closes) ∧
      onLine config closes l piv

def staleLineViolated (d : Direction) (l : TrendLine) : Bool :=
  config.entryStaleLineFilterEnabled ∧
    (recentTouches config closes d l).length < config.entryMinRecentStrictTouches

/-- `opp_max_touches`. -/
def opposingMaxTouches (d : Direction) : ℕ :=
  (((sideLines config closes (opposite d)).filter (·.breakIdx.isNone)).map (·.touches)).foldl max 0

def opposingDominanceViolated (d : Direction) (l : TrendLine) : Bool :=
  config.entryOpposingDominanceFilterEnabled ∧ 0 < l.touches ∧
    l.touches * config.entryOpposingDominanceRatio ≤ opposingMaxTouches config closes d

end Filters

-- ============================================================================
-- The decision
-- ============================================================================

/-- `long_line` or `short_line`, with `marginal_filters_long` or `marginal_filters_short`. -/
structure Side where
  candidate : Option Candidate := none
  bypassed : List EntryFilter := []
  deriving DecidableEq, Repr

structure Sides where
  side : Direction → Side
  rows : List Row := []

/-- A filter of both sides. -/
structure SideFilter where
  name : EntryFilter
  /-- It adds one row where it rejects both. -/
  shared : Bool := false
  violated : Direction → TrendLine → Bool

namespace SideFilter

variable (f : SideFilter) (allowMarginal : Bool)

/-- The filter rejects the line of the side. -/
def hits (d : Direction) (s : Side) : Bool := s.candidate.any fun c => f.violated d c.line

/-- The line goes, or is tagged. -/
def reject (s : Side) : Side :=
  if allowMarginal then { s with bypassed := s.bypassed ++ [f.name] } else { s with candidate := none }

def apply (s : Sides) : Sides :=
  let hit := [.long, .short].filter fun d => f.hits d (s.side d)
  { side := fun d => if f.hits d (s.side d) then f.reject allowMarginal (s.side d) else s.side d
    rows := s.rows ++ (if f.shared then hit.take 1 else hit).map fun _ => .skip (some f.name) allowMarginal }

end SideFilter

/-- `chosen`. -/
def choose (side : Direction → Side) : Option (Direction × Candidate) :=
  match (side .long).candidate, (side .short).candidate with
  | some long, some short => if long.line.touches < short.line.touches then some (.short, short) else some (.long, long)
  | some long, none => some (.long, long)
  | none, some short => some (.short, short)
  | none, none => none

/-- The rows and the tags of the chosen line so far. -/
structure Progress where
  rows : List Row
  bypassed : List EntryFilter
  deriving DecidableEq, Repr

/-- A filter of the chosen line; the rows if it ends the bar. -/
def Progress.filter (allowMarginal : Bool) (p : Progress) (g : Gate EntryFilter) : Except (List Row) Progress :=
  if g.violated then
    if allowMarginal && !g.hard then
      .ok { rows := p.rows ++ [.skip (some g.name) true], bypassed := p.bypassed ++ [g.name] }
    else .error (p.rows ++ [.skip (some g.name) false])
  else .ok p

structure Entry where
  direction : Direction
  line : TrendLine
  path : EntryPath
  /-- `marginal_filters`. -/
  bypassed : List EntryFilter
  deriving DecidableEq, Repr

structure Decision where
  rows : List Row := []
  entry : Option Entry := none
  deriving DecidableEq, Repr

section Gates

variable (config : EntryRules) (closes : List ℚ)

/-- The filters before the choice. -/
def sideFilters : List SideFilter :=
  [{ name := .shoulder, shared := true, violated := fun d _ => shoulderViolated config closes d },
    { name := .tightTriangle, shared := true, violated := fun _ _ => triangleViolated config closes },
    { name := .minTarget, violated := minTargetViolated config closes }]

/-- Those after it. -/
def chosenGates (d : Direction) (l : TrendLine) : List (Gate EntryFilter) :=
  [{ name := .counterTrend, violated := counterTrendViolated config d l },
    { name := .farFromPivot, hard := true, violated := farFromPivotViolated config closes l },
    { name := .staleLine, hard := true, violated := staleLineViolated config closes d l },
    { name := .opposingDominance, violated := opposingDominanceViolated config closes d l }]

end Gates

section Decision

variable (config : EntryConfig) (closes : List ℚ)

/-- More filters are bypassed than a marginal entry may. -/
def tooManyBypasses (bypassed : List EntryFilter) : Bool :=
  bypassed ≠ [] ∧ config.entryMarginalMaxBypassedFilters < bypassed.length

/-- From the choice on. -/
def decideChosen (p : Progress) (d : Direction) (c : Candidate) : Decision :=
  match (chosenGates config.toEntryRules closes d c.line).foldlM (Progress.filter config.allowMarginalEntries) p with
  | .error rows => { rows }
  | .ok p =>
    if tooManyBypasses config p.bypassed then { rows := p.rows ++ [.skip (some .tooManyMarginalBypasses) false] }
    else { rows := p.rows, entry := some { direction := d, line := c.line, path := c.path, bypassed := p.bypassed } }

/-- What becomes of the candidates, so long after the bar was due to close. -/
def decideEntry (elapsed : ℚ) : Decision :=
  let (candidates, rejected) := findCandidates config.toEntryRules closes
  if candidates .long = none ∧ candidates .short = none ∧ rejected then
    { rows := [.skip (some .interTouchSpacing) false] }
  else
    let sides := (sideFilters config.toEntryRules closes).foldl (fun s f => f.apply config.allowMarginalEntries s)
      { side := fun d => { candidate := candidates d } }
    match choose sides.side with
    | none => { rows := sides.rows ++ [.skip none false] }
    | some (d, c) =>
      if config.maxSignalAgeSeconds < elapsed then { rows := sides.rows ++ [.skip none false] }
      else decideChosen config closes { rows := sides.rows, bypassed := (sides.side d).bypassed } d c

end Decision

-- ============================================================================
-- A bar
-- ============================================================================

/-- The bars that come after the one at the time. -/
def newerBars : String → List ChartBar → List ChartBar
  | _, [] => []
  | latest, bar :: bars =>
    if bar.ts ≠ "" ∧ latest < bar.ts then bar :: newerBars bar.ts bars else newerBars latest bars

/-- `window`: the history, with the bars of the aggregator that it does not have yet. -/
def entryWindow (fetched localWindow : List ChartBar) : List ChartBar :=
  match fetched.getLast? with
  | none => localWindow
  | some latest => fetched ++ newerBars latest.ts localWindow

/-- What of the document the entry reads. -/
structure EntryDoc where
  armed : Bool := false
  cooldownUntil : Option Datetime := none
  /-- None where it is not set or does not parse. -/
  qtyOverride : Option ℚ := none
  deriving DecidableEq, Repr

/-- The `PlaceOrder` of an entry, and what is recorded with it. -/
structure EntryOrder where
  side : String
  qty : ℤ
  entryLine : EntryLine
  entryBarTime : Datetime
  deriving DecidableEq, Repr

structure BarOutcome where
  rows : List Row := []
  order : Option EntryOrder := none
  deriving DecidableEq, Repr

/-- `entry_line_doc`: the line in time and price, so that it outlives the window. -/
def freeze (config : EntryRules) (window : List ChartBar) (barTime : Datetime) (e : Entry) : EntryLine where
  direction := e.direction
  anchorTime := some ((window[e.line.anchorBIdx]?.bind ChartBar.time).getD barTime)
  anchorPrice := close (window.map ChartBar.close) e.line.anchorBIdx
  slopePerSec := e.line.slope / (config.barSeconds : ℕ)
  lineValueAtEntry := some (e.line.valueAt (lastBar (window.map ChartBar.close)))
  entryPath := e.path.text
  marginal := e.bypassed ≠ []

/-- `qty`. -/
def entryQty (config : EntryRules) (doc : EntryDoc) : ℤ :=
  doc.qtyOverride.elim config.qtyDefault fun qty => max 1 (TrailingExit.truncated qty)

/-- The order of an entry. -/
def placeEntry (config : EntryRules) (doc : EntryDoc) (window : List ChartBar) (barTime : Datetime) (e : Entry) :
    EntryOrder where
  side := match e.direction with
    | .long => "BUY"
    | .short => "SELL"
  qty := entryQty config doc
  entryLine := freeze config window barTime e
  entryBarTime := (window[newPivotIdx (window.map ChartBar.close)]?.bind ChartBar.time).getD
    (barTime - (config.barSeconds : ℕ) * 1000000)

/-- `_on_bar` of a bot that holds no position; the times of the dead zone and the indicators
    are given. -/
def onBar (deadzone : Datetime → Bool) (indicators : List ChartBar → Option Indicators) (config : EntryConfig)
    (state : BotState) (doc : EntryDoc) (barTime : Option Datetime) (fetched localWindow : List ChartBar)
    (now : Datetime) : BarOutcome :=
  match barTime with
  | none => {}
  | some barTime =>
    if state ≠ .awaitingEntryTrigger then {}
    else if doc.armed = false then {}
    else if doc.cooldownUntil.any fun cooldown => barTime < cooldown then { rows := [.skip none false] }
    else if (config.secType.toUpper = "FUT" ∨ config.secType.toUpper = "FOP") ∧ deadzone barTime then {}
    else
      let window := entryWindow fetched localWindow
      let closes := window.map ChartBar.close
      if closes.length < 4 then {}
      else
        match regimeGate config.toEntryRules closes (computeRegime indicators config.toEntryRules window) with
        | .error row => { rows := [row] }
        | .ok rows =>
          let decision := decideEntry config closes
            (secondsSince (barTime + (config.barSeconds : ℕ) * 1000000) now)
          { rows := rows ++ decision.rows, order := decision.entry.map (placeEntry config.toEntryRules doc window barTime) }

end IbTrader.Bots.ChartSignal
