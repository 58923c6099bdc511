/-
  IbTrader.Lib.Inventory

  Mark-to-market value of inventory lots over any field.

  A lot is a signed quantity and a per-unit cost.  A fill brings in its signed
  quantity at its price and pays a commission: marked at `m` it is worth
  `mult * (qty * (m - price)) - commission` the moment it happens
  (`fillValue`).  A lot-matching rule is conservative when the profit it
  realises plus the value of the lots it leaves is the value of the lots it
  found plus the value of the fill.  The three moves lot matching is made of are
  conservative: closing part of a lot (`close_value`), opening a lot with the
  commission folded into its cost (`open_value`), and merging two lots at their
  average cost (`merge_value`).
-/

import Mathlib.Algebra.BigOperators.Group.List.Basic
import Mathlib.Tactic.FieldSimp
import Mathlib.Tactic.Ring

namespace IbTrader.Lib.Inventory

variable {K : Type*} [Field K]

/-- Value of `qty` units of cost `cost` at the mark `m`. -/
def lotValue (mult m qty cost : K) : K := mult * (qty * (m - cost))

/-- Value a fill brings in at the mark `m`, net of its commission. -/
def fillValue (mult m qty price commission : K) : K :=
  lotValue mult m qty price - commission

@[simp] theorem lotValue_zero (mult m cost : K) : lotValue mult m 0 cost = 0 := by
  simp [lotValue]

@[simp] theorem fillValue_zero (mult m price : K) : fillValue mult m 0 price 0 = 0 := by
  simp [fillValue]

/-- A fill splits into parts of its quantity with shares of its commission. -/
theorem fillValue_add (mult m x y price c d : K) :
    fillValue mult m (x + y) price (c + d) =
      fillValue mult m x price c + fillValue mult m y price d := by
  simp only [fillValue, lotValue]
  ring

/-- Closing `x` units of a lot: realised profit plus what is left of the lot. -/
theorem close_value (mult m qty cost x price c : K) :
    (mult * (-x * (price - cost)) - c) + lotValue mult m (qty + x) cost =
      lotValue mult m qty cost + fillValue mult m x price c := by
  simp only [fillValue, lotValue]
  ring

/-- Opening `x` units with the commission folded into the cost. -/
theorem open_value {mult x : K} (hmult : mult ≠ 0) (hx : x ≠ 0) (m price c : K) :
    lotValue mult m x (price + c / (x * mult)) = fillValue mult m x price c := by
  simp only [fillValue, lotValue]
  field_simp
  ring

/-- Two lots merged at their quantity-weighted average cost. -/
theorem merge_value {x y : K} (h : x + y ≠ 0) (mult m c d : K) :
    lotValue mult m (x + y) ((x * c + y * d) / (x + y)) =
      lotValue mult m x c + lotValue mult m y d := by
  simp only [lotValue]
  field_simp
  ring

end IbTrader.Lib.Inventory
