/-
  IbTrader.Signals.SrFan

  Support and resistance fans (`ib_trader/signals/sr_fan.py`), over exact arithmetic.

  For each pivot P, the newest first, the lines through P and an older pivot Q are
  tried from the steepest on: a line is dropped where a close or a line already
  emitted is on its wrong side between Q and P, where it has long been broken, and
  where it coincides with a line already emitted.

  The wedges, the sessions and the single-side shim of the file are left out.
-/

import Mathlib.Data.List.Sort
import Mathlib.Data.Prod.Lex
import Mathlib.Data.Rat.Floor

namespace IbTrader.Signals.SrFan

-- ============================================================================
-- Lines
-- ============================================================================

/-- The side a line is on. -/
inductive LineType
  | support
  | resistance
  deriving DecidableEq, Repr

structure TrendLine where
  type : LineType
  fromIdx : ℕ
  anchorBIdx : ℕ
  toIdx : ℕ
  slope : ℚ
  intercept : ℚ
  touches : ℕ
  breakIdx : Option ℕ
  thirdTouchIdx : Option ℕ
  deriving DecidableEq, Repr

/-- The options of a detection. -/
structure Options where
  toleranceFraction : ℚ := 1 / 20000
  touchToleranceFraction : ℚ := 1 / 5000
  breakStaleBars : ℤ := 20
  nearTouchToleranceFraction : Option ℚ := none
  deriving DecidableEq, Repr

def eps : ℚ := 1 / 1000000

def minTouches : ℕ := 3

/-- The close of a bar. -/
abbrev close (closes : List ℚ) (i : ℕ) : ℚ := closes.getD i 0

-- ============================================================================
-- Pivots
-- ============================================================================

/-- `find_pivot_lows`. -/
def findPivotLows (closes : List ℚ) (minPivotStrength : ℚ := 0) : List ℕ :=
  (List.range' 1 (closes.length - 2)).filter fun i =>
    let v := close closes i
    let l := close closes (i - 1)
    let r := close closes (i + 1)
    (v < l ∧ v < r) ∧ ¬(0 < minPivotStrength ∧ (l - v < minPivotStrength ∨ r - v < minPivotStrength))

/-- `find_pivot_highs`. -/
def findPivotHighs (closes : List ℚ) (minPivotStrength : ℚ := 0) : List ℕ :=
  (List.range' 1 (closes.length - 2)).filter fun i =>
    let v := close closes i
    let l := close closes (i - 1)
    let r := close closes (i + 1)
    (v > l ∧ v > r) ∧ ¬(0 < minPivotStrength ∧ (v - l < minPivotStrength ∨ v - r < minPivotStrength))

-- ============================================================================
-- Crossings
-- ============================================================================

/-- `crosses_any`. -/
def crossesAny (slope intercept : ℚ) (fromIdx toIdx : ℕ) (others : List TrendLine) : Bool :=
  others.any fun e =>
    let lo := max fromIdx e.fromIdx
    let hi := min toIdx e.toIdx
    let dm := slope - e.slope
    let x := (e.intercept - intercept) / dm
    lo < hi ∧ ¬|dm| < eps ∧ lo + eps < x ∧ x < hi - eps

/-- One line of the scan for the earliest crossing. -/
def crossingStep (slope intercept : ℚ) (fromIdx toIdx : ℕ) (earliest : Option ℕ) (e : TrendLine) :
    Option ℕ :=
  let lo := max fromIdx e.fromIdx
  let hi := min toIdx e.toIdx
  let dm := slope - e.slope
  let x := (e.intercept - intercept) / dm
  let idx := ⌈x⌉
  if lo > hi then earliest
  else if |dm| < eps then earliest
  else if x < lo - eps ∨ x > hi + eps then earliest
  else if fromIdx ≤ idx ∧ idx ≤ toIdx then
    match earliest with
    | none => some idx.toNat
    | some first => if idx < first then some idx.toNat else some first
  else earliest

/-- `earliest_crossing`. -/
def earliestCrossing (slope intercept : ℚ) (fromIdx toIdx : ℕ) (others : List TrendLine) : Option ℕ :=
  others.foldl (crossingStep slope intercept fromIdx toIdx) none

-- ============================================================================
-- One side
-- ============================================================================

/-- The bands of a detection, in price units. -/
structure Bands where
  tol : ℚ
  touchTol : ℚ
  nearTouchTol : Option ℚ

/-- The bands that the options give over a series. -/
def bands (closes : List ℚ) (opts : Options) : Bands :=
  let avgClose := closes.sum / (max 1 closes.length : ℕ)
  let tol := max eps (avgClose * opts.toleranceFraction)
  let touchTol := max tol (avgClose * opts.touchToleranceFraction)
  { tol
    touchTol
    nearTouchTol := match opts.nearTouchToleranceFraction with
      | none => none
      | some near =>
        if opts.touchToleranceFraction < near then some (max touchTol (avgClose * near)) else none }

/-- `violates`. -/
def violates (type : LineType) (tol closeV lineV : ℚ) : Bool :=
  if type = .support then closeV < lineV - tol else closeV > lineV + tol

/-- The touches of a line. -/
structure Touches where
  strict : ℕ := 0
  loose : ℕ := 0
  thirdTouchIdx : Option ℕ := none

/-- One pivot of the touch count. -/
def touchStep (closes : List ℚ) (b : Bands) (q : ℕ) (slope intercept : ℚ) (t : Touches) (piv : ℕ) :
    Touches :=
  let delta := |close closes piv - (slope * piv + intercept)|
  if piv < q ∨ closes.length - 1 < piv then t
  else if delta ≤ b.touchTol then
    { strict := t.strict + 1
      loose := t.loose + 1
      thirdTouchIdx :=
        if t.strict + 1 = minTouches ∧ t.thirdTouchIdx = none then some piv else t.thirdTouchIdx }
  else match b.nearTouchTol with
    | some near => if delta ≤ near then { t with loose := t.loose + 1 } else t
    | none => t

/-- The number of touches that counts. -/
def countedTouches (b : Bands) (t : Touches) : ℕ :=
  max 2 (if b.nearTouchTol ≠ none ∧ minTouches ≤ t.strict then t.loose else t.strict)

/-- The bar at which a line is broken. -/
def breakOf (closes : List ℚ) (type : LineType) (tol : ℚ) (p : ℕ) (slope intercept : ℚ)
    (out : List TrendLine) : Option ℕ :=
  let last := closes.length - 1
  let broken := (List.range' (p + 1) (last - p)).find? fun i =>
    violates type tol (close closes i) (slope * i + intercept)
  match earliestCrossing slope intercept (p + 1) last out with
  | none => broken
  | some x => match broken with
    | none => some x
    | some i => if x < i then some x else some i

/-- A candidate of the fan through P, against the lines already emitted. -/
def emit (closes : List ℚ) (pivots : List ℕ) (type : LineType) (opts : Options) (b : Bands) (p : ℕ)
    (out : List TrendLine) (candidate : ℕ × ℚ) : List TrendLine :=
  let (q, slope) := candidate
  let last := closes.length - 1
  let intercept := close closes p - slope * p
  let breakIdx := breakOf closes type b.tol p slope intercept out
  if (List.range' (q + 1) (p - (q + 1))).any fun i =>
      violates type b.tol (close closes i) (slope * i + intercept) then out
  else if crossesAny slope intercept q p out then out
  else if breakIdx.any fun (i : ℕ) => opts.breakStaleBars < (last : ℤ) - i then out
  else if out.any fun e => |e.slope - slope| < eps ∧ |e.intercept - intercept| < eps then out
  else
    let t := pivots.foldl (touchStep closes b q slope intercept) {}
    out ++ [{
      type
      fromIdx := q
      anchorBIdx := p
      toIdx := breakIdx.getD last
      slope
      intercept
      touches := countedTouches b t
      breakIdx
      thirdTouchIdx := t.thirdTouchIdx }]

/-- The fan of candidates through P, over the older pivots from the newest on. -/
def candidates (closes : List ℚ) (p : ℕ) (older : List ℕ) : List (ℕ × ℚ) :=
  older.map fun (q : ℕ) => (q, (close closes p - close closes q) / ((p : ℚ) - q))

/-- The key that candidates are sorted by. -/
def sortKey (type : LineType) (c : ℕ × ℚ) : ℚ ×ₗ ℕ :=
  if type = .support then toLex (-c.2, c.1) else toLex (c.2, c.1)

/-- The candidates, sorted. -/
def sortCandidates (type : LineType) (cs : List (ℕ × ℚ)) : List (ℕ × ℚ) :=
  cs.insertionSort fun a b => sortKey type a ≤ sortKey type b

/-- The fans through the pivots, given from the newest to the oldest. -/
def fans (closes : List ℚ) (pivots : List ℕ) (type : LineType) (opts : Options) (b : Bands) :
    List ℕ → List TrendLine → List TrendLine
  | [], out => out
  | p :: older, out =>
    fans closes pivots type opts b older
      ((sortCandidates type (candidates closes p older)).foldl (emit closes pivots type opts b p) out)

/-- `_detect_one_side`. -/
def detectOneSide (closes : List ℚ) (pivots : List ℕ) (type : LineType) (opts : Options) :
    List TrendLine :=
  if closes.length - 1 < 2 ∨ pivots.length < 2 then []
  else fans closes pivots type opts (bands closes opts) pivots.reverse []

/-- `detect_support_resistance`. -/
def detectSupportResistance (closes : List ℚ) (opts : Options) : List TrendLine :=
  if closes.length < 3 then []
  else
    detectOneSide closes (findPivotLows closes) .support opts ++
      detectOneSide closes (findPivotHighs closes) .resistance opts

end IbTrader.Signals.SrFan
