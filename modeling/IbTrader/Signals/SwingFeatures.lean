/-
  IbTrader.Signals.SwingFeatures

  The features of the swing points of a frame (`signals_lib/sawtooth.py` and
  `signals_lib/trend.py`).

  Swings are marked over the whole frame, so a mark depends on rows to its right.  The
  loop over the rows reads a mark only once its window is complete; what it reads at a row
  is therefore fixed by the rows up to that one (`causal_readings`), and so are the
  features (`features_noLookAhead`).  A quotient by zero is an infinity or a NaN, which no
  bound holds of.
-/

import Mathlib.Algebra.Order.Field.Rat
import IbTrader.Lib.Causal

namespace IbTrader.Signals.SwingFeatures

open Lib

-- ============================================================================
-- Swings
-- ============================================================================

structure Row where
  open_ : ℚ
  high : ℚ
  low : ℚ
  close : ℚ
  volume : ℚ
  deriving DecidableEq, Repr

/-- `values[i - w : i + w + 1]`, of a position with so many before it. -/
def window (w : ℕ) (values : List ℚ) (i : ℕ) : List ℚ := (values.drop (i - w)).take (2 * w + 1)

/-- The value is the extreme of its window and stands alone there; positions that have
    not a whole window are passed over. -/
def swingAt (extreme : List ℚ → Option ℚ) (w : ℕ) (values : List ℚ) (i : ℕ) : Bool :=
  w ≤ i ∧ i + w < values.length ∧ values[i]? = extreme (window w values i) ∧
    (window w values i).count (values.getD i 0) = 1

/-- The marks of a frame. -/
def swings (extreme : List ℚ → Option ℚ) (w : ℕ) (values : List ℚ) : List Bool :=
  (List.range values.length).map (swingAt extreme w values)

/-- The swing that is confirmed at a row, and its value. -/
def confirmedAt (marks : List Bool) (values : List ℚ) (w i : ℕ) : Option (ℕ × ℚ) :=
  if w ≤ i ∧ marks[i - w]? = some true then some (i - w, values.getD (i - w) 0) else none

/-- What the loop reads at a row. -/
structure Reading where
  bar : ℕ
  close : ℚ
  high : Option (ℕ × ℚ)
  low : Option (ℕ × ℚ)
  deriving DecidableEq, Repr

/-- The readings of a frame, from the columns of the highs, the lows and the closes. -/
def readings (w : ℕ) (high low close : Row → ℚ) (rows : List Row) : List Reading :=
  let highs := rows.map high
  let lows := rows.map low
  let highMarks := swings List.max? w highs
  let lowMarks := swings List.min? w lows
  (List.range rows.length).map fun i =>
    { bar := i
      close := (rows.map close).getD i 0
      high := confirmedAt highMarks highs w i
      low := confirmedAt lowMarks lows w i }

-- ============================================================================
-- The confirmed swings
-- ============================================================================

/-- A swing is added, and the oldest dropped. -/
def keep (maxKeep : ℕ) (confirmed : List (ℕ × ℚ)) : Option (ℕ × ℚ) → List (ℕ × ℚ)
  | none => confirmed
  | some swing =>
    let confirmed := confirmed ++ [swing]
    if maxKeep < confirmed.length then confirmed.drop (confirmed.length - maxKeep) else confirmed

/-- `xs[-k:]`, which is the whole list where `k` is zero. -/
def lastOf {α : Type} (k : ℕ) (xs : List α) : List α := if k = 0 then xs else xs.drop (xs.length - k)

def ascending (values : List ℚ) : Bool := (values.zip values.tail).all fun (a, b) => a < b

/-- The last so many swings ascend. -/
def ascendingLast (k : ℕ) (confirmed : List (ℕ × ℚ)) : Bool := ascending ((lastOf k confirmed).map Prod.snd)

/-- There are so many swings of either kind, and the last of them ascend. -/
def trendUp (k : ℕ) (highs lows : List (ℕ × ℚ)) : Bool :=
  k ≤ highs.length ∧ k ≤ lows.length ∧ ascendingLast k highs ∧ ascendingLast k lows

-- ============================================================================
-- Sawtooth
-- ============================================================================

structure SawtoothFeatures where
  sawtoothUptrend : Bool
  atLocalLow : Bool
  bounceAfterDip : Bool
  /-- None is NaN. -/
  barsSinceSwingLow : Option ℤ
  deriving DecidableEq, Repr

/-- A row of the loop of `add_sawtooth_features`. -/
def sawtoothStep (swingWindow trendSwings : ℕ) (confirmed : List (ℕ × ℚ) × List (ℕ × ℚ)) (r : Reading) :
    (List (ℕ × ℚ) × List (ℕ × ℚ)) × SawtoothFeatures :=
  let highs := keep (trendSwings + 2) confirmed.1 r.high
  let lows := keep (trendSwings + 2) confirmed.2 r.low
  let uptrend := trendUp trendSwings highs lows
  let last := lows.getLast?
  ((highs, lows),
    { sawtoothUptrend := uptrend
      barsSinceSwingLow := last.map fun (bar, _) => (r.bar : ℤ) - bar
      atLocalLow := last.any fun (_, value) => value ≠ 0 ∧ |r.close - value| / value < 15 / 10000
      bounceAfterDip := uptrend ∧ 1 ≤ r.bar ∧ last.any fun (bar, value) =>
        let barsSinceConfirm : ℤ := r.bar - (bar + swingWindow)
        let pctAboveLow := (r.close - value) / value
        0 ≤ barsSinceConfirm ∧ barsSinceConfirm ≤ 3 ∧
          value ≠ 0 ∧ 0 ≤ pctAboveLow ∧ pctAboveLow < 3 / 1000 })

/-- `add_sawtooth_features`. -/
def addSawtoothFeatures (swingWindow trendSwings : ℕ) (rows : List Row) : List SawtoothFeatures :=
  transduce (sawtoothStep swingWindow trendSwings) ([], [])
    (readings swingWindow Row.high Row.low Row.close rows)

-- ============================================================================
-- Close trend
-- ============================================================================

structure CloseTrendFeatures where
  closeTrendUp : Bool
  closeValleyBarsAgo : Option ℤ
  closeNearValley : Bool
  closeTrendStrength : ℕ
  deriving DecidableEq, Repr

/-- How many values, from the last back, are above the one before: of the values in
    reverse. -/
def strength : List ℚ → ℕ
  | a :: b :: values => if b < a then strength (b :: values) + 1 else 0
  | _ => 0

/-- A row of the loop of `add_close_trend_features`. -/
def closeTrendStep (trendPoints : ℕ) (confirmed : List (ℕ × ℚ) × List (ℕ × ℚ)) (r : Reading) :
    (List (ℕ × ℚ) × List (ℕ × ℚ)) × CloseTrendFeatures :=
  let peaks := keep (trendPoints + 3) confirmed.1 r.high
  let valleys := keep (trendPoints + 3) confirmed.2 r.low
  let up := trendUp trendPoints peaks valleys
  let last := valleys.getLast?
  ((peaks, valleys),
    { closeTrendUp := up
      closeTrendStrength := if up then strength (valleys.map Prod.snd).reverse else 0
      closeValleyBarsAgo := last.map fun (bar, _) => (r.bar : ℤ) - bar
      closeNearValley := last.any fun (_, value) =>
        let pctAbove := (r.close - value) / value
        0 < value ∧ 0 ≤ pctAbove ∧ pctAbove < 15 / 10000 })

/-- `add_close_trend_features`. -/
def addCloseTrendFeatures (peakWindow trendPoints : ℕ) (priceColumn : Row → ℚ) (rows : List Row) :
    List CloseTrendFeatures :=
  transduce (closeTrendStep trendPoints) ([], []) (readings peakWindow priceColumn priceColumn priceColumn rows)

-- ============================================================================
-- What is read at a row
-- ============================================================================

section Readings

variable {w i : ℕ} {extreme : List ℚ → Option ℚ} {values later : List ℚ}

/-- A window that is complete stays as it is. -/
theorem window_append (hw : w ≤ i) (h : i + w < values.length) :
    window w (values ++ later) i = window w values i := by
  unfold window
  rw [List.drop_append_of_le_length (by omega), List.take_append_of_le_length]
  rw [List.length_drop]
  omega

/-- A mark is settled once its window is complete. -/
theorem swingAt_append (h : i + w < values.length) :
    swingAt extreme w (values ++ later) i = swingAt extreme w values i := by
  have hi : i < values.length := by omega
  have hlater : i + w < (values ++ later).length := by
    rw [List.length_append]
    omega
  by_cases hw : w ≤ i
  · simp only [swingAt, window_append hw h, hlater, h, List.getElem?_append_left hi, List.getD_eq_getElem?_getD]
  · simp [swingAt, hw]

/-- The marks that the loop reads at a row are settled there. -/
theorem confirmedAt_append (h : i < values.length) :
    confirmedAt (swings extreme w (values ++ later)) (values ++ later) w i =
      confirmedAt (swings extreme w values) values w i := by
  unfold confirmedAt
  by_cases hw : w ≤ i
  · have hi : i - w < values.length := by omega
    have hlater : i - w < (values ++ later).length := by
      rw [List.length_append]
      omega
    have hmark : swingAt extreme w (values ++ later) (i - w) = swingAt extreme w values (i - w) :=
      swingAt_append (by omega)
    simp only [swings, List.getElem?_map, List.getElem?_range hi, List.getElem?_range hlater, Option.map_some,
      hmark, List.getD_eq_getElem?_getD, List.getElem?_append_left hi]
  · rw [if_neg fun hmark => hw hmark.1, if_neg fun hmark => hw hmark.1]

theorem causal_readings (w : ℕ) (high low close : Row → ℚ) : Causal (readings w high low close) := by
  refine causal_positions fun rows later i hi => ?_
  have hcolumn : ∀ column : Row → ℚ, i < (rows.map column).length := fun column => by rwa [List.length_map]
  simp only [List.map_append, confirmedAt_append (hcolumn high), confirmedAt_append (hcolumn low),
    List.getD_eq_getElem?_getD, List.getElem?_append_left (hcolumn close)]

end Readings

-- ============================================================================
-- No look-ahead
-- ============================================================================

theorem causal_addSawtoothFeatures (swingWindow trendSwings : ℕ) :
    Causal (addSawtoothFeatures swingWindow trendSwings) :=
  (causal_transduce _ _).comp (causal_readings _ _ _ _)

theorem causal_addCloseTrendFeatures (peakWindow trendPoints : ℕ) (priceColumn : Row → ℚ) :
    Causal (addCloseTrendFeatures peakWindow trendPoints priceColumn) :=
  (causal_transduce _ _).comp (causal_readings _ _ _ _)

/-- Every row has its features, and rows that come later leave them as they are. -/
theorem features_noLookAhead (swingWindow trendSwings peakWindow trendPoints : ℕ) (priceColumn : Row → ℚ)
    (rows later : List Row) :
    (addSawtoothFeatures swingWindow trendSwings rows).length = rows.length ∧
      (addSawtoothFeatures swingWindow trendSwings (rows ++ later)).take rows.length =
        addSawtoothFeatures swingWindow trendSwings rows ∧
      (addCloseTrendFeatures peakWindow trendPoints priceColumn rows).length = rows.length ∧
      (addCloseTrendFeatures peakWindow trendPoints priceColumn (rows ++ later)).take rows.length =
        addCloseTrendFeatures peakWindow trendPoints priceColumn rows := by
  have hsawtooth := causal_addSawtoothFeatures swingWindow trendSwings
  have htrend := causal_addCloseTrendFeatures peakWindow trendPoints priceColumn
  exact ⟨hsawtooth.length rows, hsawtooth.take rows later, htrend.length rows, htrend.take rows later⟩

-- a low is told of at the row that confirms it
example :
    (addSawtoothFeatures 1 0 (
      [(3, 2), (2, 1), (4, 3)].map fun (high, low) => { open_ := 0, high, low, close := low, volume := 0 })).map
        (·.barsSinceSwingLow) = [none, none, some 1] := by decide +kernel

end IbTrader.Signals.SwingFeatures
