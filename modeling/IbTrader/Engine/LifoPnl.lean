/-
  IbTrader.Engine.LifoPnl

  LIFO lot matching and IB's average-cost walk
  (`ib_trader/engine/lifo_pnl.py`), over exact rationals.

  Lots are listed newest first: the head of the list is the source's `lots[-1]`.
-/

import Mathlib.Algebra.Order.Ring.Rat
import Mathlib.Algebra.Order.Field.Rat
import Mathlib.Tactic.Linarith
import IbTrader.Lib.Inventory

namespace IbTrader.Engine.LifoPnl

/-- An open lot: signed quantity and per-unit cost. -/
structure Lot where
  qty : ℚ
  cost : ℚ
  deriving DecidableEq, Repr

/-- A fill as `_compute_one` collects it: execution id, signed quantity, price,
    commission. -/
structure Fill where
  execId : String
  signedQty : ℚ
  price : ℚ
  commission : ℚ
  deriving DecidableEq, Repr

/-- `_sign`. -/
def sign (x : ℚ) : ℚ := (if 0 < x then 1 else 0) - (if x < 0 then 1 else 0)

/-- `_open_cost`: per-unit lot cost with the opening commission folded in. -/
def openCost (price comm qty mult direction : ℚ) : ℚ :=
  price + direction * comm / (|qty| * mult)

-- ============================================================================
-- LIFO matching
-- ============================================================================

/-- The `while` loop of `realize_lifo`: match what remains of the fill against
    the newest lot as long as that lot is on the other side. -/
def matchLots (price commission multiplier total : ℚ) :
    ℚ → Option ℚ → List Lot → ℚ × Option ℚ × List Lot
  | remaining, realized, [] => (remaining, realized, [])
  | remaining, realized, top :: rest =>
    if remaining ≠ 0 ∧ sign top.qty = -sign remaining then
      let matched := min |remaining| |top.qty|
      let direction := sign top.qty
      let commShare := commission * matched / total
      let pnl := (price - top.cost) * matched * multiplier * direction - commShare
      let realized := some (realized.getD 0 + pnl)
      let qty := top.qty - direction * matched
      let remaining := remaining + direction * matched
      if qty = 0 then matchLots price commission multiplier total remaining realized rest
      -- the lot outlasts the fill: nothing remains and the loop test fails
      else (remaining, realized, { top with qty := qty } :: rest)
    else (remaining, realized, top :: rest)

/-- `realize_lifo`: the realised profit of one fill (`none` when it only opened
    or added) and the lots it leaves. -/
def realizeLifo (lots : List Lot) (signedQty price commission multiplier : ℚ) :
    Option ℚ × List Lot :=
  let total := |signedQty|
  match matchLots price commission multiplier total signedQty none lots with
  | (remaining, realized, lots) =>
    if remaining ≠ 0 then
      let commShare := commission * |remaining| / total
      (realized, { qty := remaining
                   cost := openCost price commShare remaining multiplier (sign remaining) } :: lots)
    else (realized, lots)

/-- The loop over the fills of a contract: what `realize_lifo` realised in all,
    and the lots left. -/
def runLifo (multiplier : ℚ) : List Lot → List Fill → ℚ × List Lot
  | lots, [] => (0, lots)
  | lots, f :: fills =>
    let r := realizeLifo lots f.signedQty f.price f.commission multiplier
    let rest := runLifo multiplier r.2 fills
    (r.1.getD 0 + rest.1, rest.2)

-- ============================================================================
-- Average cost
-- ============================================================================

/-- The locals of `_simulate_avg`. -/
structure AvgWalk where
  qty : ℚ
  avg : ℚ
  realized : ℚ := 0
  seedGone : Bool := false
  deriving DecidableEq, Repr

/-- One iteration of the loop of `_simulate_avg`. -/
def avgStep (multiplier : ℚ) (w : AvgWalk) (f : Fill) : AvgWalk :=
  if w.qty = 0 ∨ sign f.signedQty = sign w.qty then
    let newQty := w.qty + f.signedQty
    let cost := openCost f.price f.commission f.signedQty multiplier (sign f.signedQty)
    { w with
      qty := newQty
      avg := if w.qty = 0 then cost
             else (|w.qty| * w.avg + |f.signedQty| * cost) / |newQty| }
  else
    let closed := min |f.signedQty| |w.qty|
    let direction := sign w.qty
    let realized :=
      if w.seedGone then w.realized
      else w.realized + ((f.price - w.avg) * closed * multiplier * direction
        - f.commission * closed / |f.signedQty|)
    let newQty := w.qty + f.signedQty
    if sign newQty ≠ direction then
      { qty := newQty
        avg := if newQty ≠ 0 then
                 openCost f.price (f.commission * |newQty| / |f.signedQty|) newQty multiplier
                   (sign newQty)
               else w.avg
        realized := realized
        seedGone := true }
    else { w with qty := newQty, realized := realized }

/-- The walk of `_simulate_avg` over the fills. -/
def avgWalk (multiplier : ℚ) (w : AvgWalk) (fills : List Fill) : AvgWalk :=
  fills.foldl (avgStep multiplier) w

/-- `_simulate_avg`: final average cost (`none` when flat), profit realised until
    the seed was gone, and whether it went. -/
def simulateAvg (seedQty seedCost : ℚ) (fills : List Fill) (multiplier : ℚ) :
    Option ℚ × ℚ × Bool :=
  let w := avgWalk multiplier { qty := seedQty, avg := seedCost } fills
  (if w.qty ≠ 0 then some w.avg else none, w.realized, w.seedGone)

end IbTrader.Engine.LifoPnl
