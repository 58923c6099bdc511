/-
  IbTrader.Frontend.SupportResistance

  The chart's support and resistance lines
  (`frontend/src/features/chart/supportResistance.ts`), over exact arithmetic.

  The sort of the JavaScript engine is a parameter: the comparator treats slopes
  within EPS of one another as equal and then prefers the older pivot, so it need not
  order a fan, and what the sort does then is the engine's.
-/

import Mathlib.Data.Rat.Floor
import IbTrader.Signals.SrFan

namespace IbTrader.Frontend

open Signals.SrFan (LineType)

-- ============================================================================
-- Lines
-- ============================================================================

structure SRLine where
  type : LineType
  fromIdx : ℕ
  anchorBIdx : ℕ
  toIdx : ℕ
  slope : ℚ
  intercept : ℚ
  touches : ℕ
  breakIdx : Option ℕ
  thirdTouchIdx : Option ℕ
  deriving DecidableEq, Repr

/-- `SROptions`, with the values of `SR_DEFAULTS`. -/
structure SROptions where
  breakStaleBars : ℤ := 20
  toleranceFraction : ℚ := 1 / 20000
  touchToleranceFraction : ℚ := 1 / 5000
  nearTouchToleranceFraction : Option ℚ := some (1 / 1000)
  deriving DecidableEq, Repr

def EPS : ℚ := 1 / 1000000

def MIN_TOUCHES : ℕ := 3

/-- The kind of a pivot. -/
inductive PivotType
  | high
  | low
  deriving DecidableEq, Repr

/-- `findPivots`. -/
def findPivots (values : List ℚ) (type : PivotType) : List ℕ :=
  (List.range' 1 (values.length - 2)).filter fun i =>
    let v := values.getD i 0
    let l := values.getD (i - 1) 0
    let r := values.getD (i + 1) 0
    match type with
    | .high => v > l ∧ v > r
    | .low => v < l ∧ v < r

-- ============================================================================
-- Crossings
-- ============================================================================

/-- `crossesAny`. -/
def crossesAny (slope intercept : ℚ) (fromIdx toIdx : ℕ) : List SRLine → Bool
  | [] => false
  | e :: others =>
    let lo := max fromIdx e.fromIdx
    let hi := min toIdx e.toIdx
    let dm := slope - e.slope
    let x := (e.intercept - intercept) / dm
    if lo ≥ hi then crossesAny slope intercept fromIdx toIdx others
    else if |dm| < EPS then crossesAny slope intercept fromIdx toIdx others
    else if x > lo + EPS ∧ x < hi - EPS then true
    else crossesAny slope intercept fromIdx toIdx others

/-- Where a line first meets another, if it does in the range. -/
def crossingAt (slope intercept : ℚ) (fromIdx toIdx : ℕ) (e : SRLine) : Option ℤ :=
  let lo := max fromIdx e.fromIdx
  let hi := min toIdx e.toIdx
  let dm := slope - e.slope
  let x := (e.intercept - intercept) / dm
  if lo > hi ∨ |dm| < EPS ∨ x < lo - EPS ∨ x > hi + EPS then none
  else if ⌈x⌉ ≥ fromIdx ∧ ⌈x⌉ ≤ toIdx then some ⌈x⌉
  else none

/-- One line of the scan for the earliest crossing. -/
def scanLine (slope intercept : ℚ) (fromIdx toIdx : ℕ) (earliest : Option ℤ) (e : SRLine) : Option ℤ :=
  match crossingAt slope intercept fromIdx toIdx e with
  | none => earliest
  | some idx => if earliest.all (idx < ·) then some idx else earliest

/-- `earliestCrossing`. -/
def earliestCrossing (slope intercept : ℚ) (fromIdx toIdx : ℕ) (others : List SRLine) : Option ℕ :=
  (others.foldl (scanLine slope intercept fromIdx toIdx) none).map (·.toNat)

-- ============================================================================
-- One side
-- ============================================================================

/-- The comparator of the candidates. -/
def compareCandidates (type : LineType) (a b : ℕ × ℚ) : ℚ :=
  let dSlope := if type = .support then b.2 - a.2 else a.2 - b.2
  if |dSlope| > EPS then dSlope else (a.1 : ℚ) - b.1

/-- A close on the wrong side of a line. -/
def wrongSide (type : LineType) (tol close lineAt : ℚ) : Bool :=
  match type with
  | .support => close < lineAt - tol
  | .resistance => close > lineAt + tol

/-- The tolerances of a detection. -/
structure Tolerances where
  tol : ℚ
  touchTol : ℚ
  nearTol : Option ℚ

def tolerances (closes : List ℚ) (opts : SROptions) : Tolerances :=
  let avgClose := closes.foldl (fun (s : ℚ) v => s + v) 0 / (max 1 closes.length : ℕ)
  let tol := max EPS (avgClose * opts.toleranceFraction)
  let touchTol := max tol (avgClose * opts.touchToleranceFraction)
  { tol
    touchTol
    nearTol := (opts.nearTouchToleranceFraction.filter (· > opts.touchToleranceFraction)).map
      fun nearFrac => max touchTol (avgClose * nearFrac) }

/-- The touch count. -/
structure TouchCount where
  strictTouches : ℕ := 0
  looseTouches : ℕ := 0
  thirdTouchIdx : Option ℕ := none

/-- The pass of the touch count over the pivots. -/
def countTouches (closes : List ℚ) (t : Tolerances) (q : ℕ) (slope intercept : ℚ) :
    List ℕ → TouchCount → TouchCount
  | [], n => n
  | pivIdx :: pivots, n =>
    let lastBarIdx := closes.length - 1
    let lineAt := slope * pivIdx + intercept
    let delta := |closes.getD pivIdx 0 - lineAt|
    let n' :=
      if pivIdx < q ∨ pivIdx > lastBarIdx then n
      else if delta ≤ t.touchTol then
        { strictTouches := n.strictTouches + 1
          looseTouches := n.looseTouches + 1
          thirdTouchIdx :=
            if n.thirdTouchIdx = none ∧ n.strictTouches + 1 = MIN_TOUCHES then some pivIdx
            else n.thirdTouchIdx }
      else if t.nearTol.any (delta ≤ ·) then { n with looseTouches := n.looseTouches + 1 }
      else n
    countTouches closes t q slope intercept pivots n'

/-- The bar at which a line is broken, by a close or before it by another line. -/
def breakIndex (closes : List ℚ) (type : LineType) (tol : ℚ) (P : ℕ) (slope intercept : ℚ)
    (out : List SRLine) : Option ℕ :=
  let lastBarIdx := closes.length - 1
  let violated := (List.range' (P + 1) (lastBarIdx - P)).find? fun i =>
    wrongSide type tol (closes.getD i 0) (slope * i + intercept)
  match earliestCrossing slope intercept (P + 1) lastBarIdx out with
  | some xCross => if violated.all (xCross < ·) then some xCross else violated
  | none => violated

/-- One candidate line through `P`. -/
def tryLine (closes : List ℚ) (pivots : List ℕ) (type : LineType) (opts : SROptions) (t : Tolerances)
    (P : ℕ) (out : List SRLine) (candidate : ℕ × ℚ) : List SRLine :=
  let q := candidate.1
  let slope := candidate.2
  let lastBarIdx := closes.length - 1
  let intercept := closes.getD P 0 - slope * P
  let valid := (List.range' (q + 1) (P - (q + 1))).all fun i =>
    !wrongSide type t.tol (closes.getD i 0) (slope * i + intercept)
  let breakIdx := breakIndex closes type t.tol P slope intercept out
  if !valid then out
  else if crossesAny slope intercept q P out then out
  else if breakIdx.any fun (i : ℕ) => (lastBarIdx : ℤ) - i > opts.breakStaleBars then out
  else if out.any fun e => |e.slope - slope| < EPS ∧ |e.intercept - intercept| < EPS then out
  else
    let n := countTouches closes t q slope intercept pivots {}
    let touches :=
      if t.nearTol ≠ none ∧ n.strictTouches ≥ MIN_TOUCHES then n.looseTouches else n.strictTouches
    out ++ [{
      type
      fromIdx := q
      anchorBIdx := P
      toIdx := breakIdx.getD lastBarIdx
      slope
      intercept
      touches := if touches < 2 then 2 else touches
      breakIdx
      thirdTouchIdx := n.thirdTouchIdx }]

section Engine

variable (sort : (ℕ × ℚ → ℕ × ℚ → ℚ) → List (ℕ × ℚ) → List (ℕ × ℚ))

/-- The fans through the pivots, given from the most recent to the oldest. -/
def walkPivots (closes : List ℚ) (pivots : List ℕ) (type : LineType) (opts : SROptions)
    (t : Tolerances) : List ℕ → List SRLine → List SRLine
  | [], out => out
  | P :: older, out =>
    let candidates := older.map fun (q : ℕ) =>
      (q, (closes.getD P 0 - closes.getD q 0) / ((P : ℚ) - q))
    walkPivots closes pivots type opts t older
      ((sort (compareCandidates type) candidates).foldl (tryLine closes pivots type opts t P) out)

/-- `detectOneSide`. -/
def detectOneSide (closes : List ℚ) (pivots : List ℕ) (type : LineType) (opts : SROptions) :
    List SRLine :=
  walkPivots sort closes pivots type opts (tolerances closes opts) pivots.reverse []

/-- `detectSupportResistance`, of the closes of the bars. -/
def detectSupportResistance (closes : List ℚ) (opts : SROptions) : List SRLine :=
  if closes.length < 3 then []
  else
    detectOneSide sort closes (findPivots closes .low) .support opts ++
      detectOneSide sort closes (findPivots closes .high) .resistance opts

end Engine

end IbTrader.Frontend
