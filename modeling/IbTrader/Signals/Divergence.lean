/-
  IbTrader.Signals.Divergence

  Divergences of a price and an index (`signals_lib/divergence.py`), and those of the price
  and its own strength index, as the pipeline computes them.

  A row is marked where the price has a lower low than one before and the index a higher
  one, or the other way round.  Which points are pivots is seen some rows later, and which
  pivot of the index is nearest later still, so the mark of a row may change: no more once
  so many rows are known, and a bearish divergence is a bullish one of the prices reflected
  (`rsi_divergence`).

  Values are rationals; none is NaN.
-/

import IbTrader.Signals.Rsi
import Mathlib.Data.List.ReduceOption
import Mathlib.Order.Monotone.Basic

namespace IbTrader.Signals

open Lib

-- ============================================================================
-- Pivots
-- ============================================================================

/-- Which extremes are compared. -/
inductive Side
  /-- Lows, of which the later price is the lower. -/
  | bullish
  /-- Highs, of which the later price is the higher. -/
  | bearish
  deriving DecidableEq, Repr

/-- `window.min` or `window.max`, of the values that are not NaN. -/
def Side.extreme : Side → List ℚ → Option ℚ
  | .bullish => List.min?
  | .bearish => List.max?

/-- The first value goes further than the second. -/
def Side.beyond : Side → ℚ → ℚ → Bool
  | .bullish, x, y => x < y
  | .bearish, x, y => y < x

structure Pivot where
  index : ℕ
  value : ℚ
  deriving DecidableEq, Repr

structure Spans where
  leftSpan : ℕ := 3
  rightSpan : ℕ := 3
  maxAlignmentBars : ℕ := 12
  maxPivotLookback : ℕ := 5
  deriving DecidableEq, Repr

section Detection

variable (side : Side) (spans : Spans)

/-- `_is_pivot_low` and `_is_pivot_high`, of a row that has a value: it is the extreme of
    its window and stands alone there. -/
def pivotAt (series : List (Option ℚ)) (i : ℕ) : Option Pivot :=
  match series[i]? with
  | some (some value) =>
    let window := (series.drop (i - spans.leftSpan)).take (spans.leftSpan + spans.rightSpan + 1)
    if side.extreme window.reduceOption = some value ∧ window.count (some value) = 1 then some { index := i, value }
    else none
  | some none | none => none

/-- `_collect_pivots`. -/
def collectPivots (series : List (Option ℚ)) : List Pivot :=
  (List.range' spans.leftSpan (series.length - spans.rightSpan - spans.leftSpan)).filterMap (pivotAt side spans series)

/-- `min(candidates, key=...)`: the first of the least. -/
def firstMin {α : Type*} (key : α → ℕ) : List α → Option α
  | [] => none
  | x :: xs => some (xs.foldl (fun best y => if key y < key best then y else best) x)

/-- `abs(p.index - target_index)`. -/
def Pivot.distance (targetIndex : ℕ) (p : Pivot) : ℕ := ((p.index : ℤ) - targetIndex).natAbs

/-- `_find_matching_pivot`. -/
def findMatchingPivot (pivots : List Pivot) (targetIndex maxDistance : ℕ) (beforeIndex : Option ℕ) : Option Pivot :=
  firstMin (Pivot.distance targetIndex) (pivots.filter fun p =>
    p.distance targetIndex ≤ maxDistance ∧ beforeIndex.all fun before => decide (p.index < before))

/-- `_nearest_pivot`. -/
def nearestPivot (pivots : List Pivot) (targetIndex maxDistance : ℕ) : Option Pivot :=
  findMatchingPivot pivots targetIndex maxDistance none

/-- The turn of one pivot of the price: against one of those before it the price has gone
    further and the index has not. -/
def diverges (prices rsis : List Pivot) (currentIdx : ℕ) (current : Pivot) : Bool :=
  match nearestPivot rsis current.index spans.maxAlignmentBars with
  | none => false
  | some currentRsi =>
    ((prices.take currentIdx).drop (currentIdx - spans.maxPivotLookback)).reverse.any fun previous =>
      match findMatchingPivot rsis previous.index spans.maxAlignmentBars (some currentRsi.index) with
      | none => false
      | some previousRsi =>
        side.beyond current.value previous.value && side.beyond previousRsi.value currentRsi.value

/-- The rows that are marked, from the pivots. -/
def marked (prices rsis : List Pivot) : List ℕ :=
  (prices.zipIdx.filter fun (current, currentIdx) => diverges side spans prices rsis currentIdx current).map (·.1.index)

/-- A column of `add_rsi_divergence`. -/
def divergences (price rsi : List (Option ℚ)) : List Bool :=
  (List.range price.length).map fun i =>
    decide (i ∈ marked side spans (collectPivots side spans price) (collectPivots side spans rsi))

/-- The column as the pipeline computes it. -/
def rsiDivergences (window : ℕ) (close : List ℚ) : List Bool :=
  divergences side spans (close.map some) (computeRsi window close)

end Detection

-- ============================================================================
-- With more rows
-- ============================================================================

section More

variable {side : Side} {spans : Spans}

/-- A pivot is fixed once its window is known. -/
theorem pivotAt_append (xs ys : List (Option ℚ)) {i : ℕ} (hleft : spans.leftSpan ≤ i) (hi : i + spans.rightSpan < xs.length) :
    pivotAt side spans (xs ++ ys) i = pivotAt side spans xs i := by
  have hwindow : ((xs ++ ys).drop (i - spans.leftSpan)).take (spans.leftSpan + spans.rightSpan + 1) =
      (xs.drop (i - spans.leftSpan)).take (spans.leftSpan + spans.rightSpan + 1) := by
    rw [List.drop_append_of_le_length (by omega), List.take_append_of_le_length (by rw [List.length_drop]; omega)]
  unfold pivotAt
  rw [hwindow, List.getElem?_append_left (by omega)]

theorem index_of_pivotAt {series : List (Option ℚ)} {i : ℕ} {p : Pivot} (h : pivotAt side spans series i = some p) :
    p.index = i := by
  unfold pivotAt at h
  split at h
  case h_1 =>
    dsimp only at h
    split at h
    case isTrue => exact (Option.some.inj h) ▸ rfl
    case isFalse => cases h
  all_goals cases h

/-- More rows bring more pivots, late ones. -/
theorem collectPivots_append (side : Side) (spans : Spans) (xs ys : List (Option ℚ)) :
    ∃ late, collectPivots side spans (xs ++ ys) = collectPivots side spans xs ++ late ∧
      ∀ p ∈ late, xs.length ≤ p.index + spans.rightSpan := by
  have hcount : (xs ++ ys).length - spans.rightSpan - spans.leftSpan =
      (xs.length - spans.rightSpan - spans.leftSpan) +
        ((xs ++ ys).length - spans.rightSpan - spans.leftSpan - (xs.length - spans.rightSpan - spans.leftSpan)) := by
    rw [List.length_append]
    omega
  unfold collectPivots
  rw [hcount, ← List.range'_append_1, List.filterMap_append]
  refine ⟨_, congrArg (· ++ _) (List.filterMap_congr fun i hi => ?_), fun p hp => ?_⟩
  · rw [List.mem_range'_1] at hi
    exact pivotAt_append xs ys hi.1 (by omega)
  · obtain ⟨i, hi, hpivot⟩ := List.mem_filterMap.mp hp
    rw [List.mem_range'_1] at hi
    rw [index_of_pivotAt hpivot]
    omega

/-- A late pivot is too far to match. -/
theorem findMatchingPivot_append {pivots late : List Pivot} {target maxDistance : ℕ} (before : Option ℕ)
    (h : ∀ p ∈ late, target + maxDistance < p.index) :
    findMatchingPivot (pivots ++ late) target maxDistance before = findMatchingPivot pivots target maxDistance before := by
  have hnone : (late.filter fun p =>
      p.distance target ≤ maxDistance ∧ before.all fun before => decide (p.index < before)) = [] := by
    refine List.filter_eq_nil_iff.mpr fun p hp hnear => ?_
    have hdistance : p.distance target ≤ maxDistance := (of_decide_eq_true hnear).1
    have hfar := h p hp
    unfold Pivot.distance at hdistance
    omega
  unfold findMatchingPivot
  rw [List.filter_append, hnone, List.append_nil]

theorem pairwise_collectPivots (side : Side) (spans : Spans) (series : List (Option ℚ)) :
    (collectPivots side spans series).Pairwise fun p q => p.index < q.index := by
  refine List.Pairwise.filterMap _ (fun i j hij p hp q hq => ?_) List.pairwise_lt_range'
  rw [index_of_pivotAt hp, index_of_pivotAt hq]
  exact hij

theorem any_congr_mem {α : Type*} {f g : α → Bool} {l : List α} (h : ∀ x ∈ l, f x = g x) : l.any f = l.any g := by
  rw [Bool.eq_iff_iff, List.any_eq_true, List.any_eq_true]
  exact exists_congr fun x => and_congr_right fun hx => by rw [h x hx]

/-- The rows are marked by the pivots of the price in turn. -/
theorem mem_marked {prices rsis : List Pivot} {i : ℕ} :
    i ∈ marked side spans prices rsis ↔
      ∃ k current, prices[k]? = some current ∧ current.index = i ∧ diverges side spans prices rsis k current = true := by
  unfold marked
  rw [List.mem_map]
  constructor
  · rintro ⟨⟨current, k⟩, hmem, rfl⟩
    obtain ⟨hzip, hdiverges⟩ := List.mem_filter.mp hmem
    exact ⟨k, current, List.mk_mem_zipIdx_iff_getElem?.mp hzip, rfl, hdiverges⟩
  · rintro ⟨k, current, hk, rfl, hdiverges⟩
    exact ⟨(current, k), List.mem_filter.mpr ⟨List.mk_mem_zipIdx_iff_getElem?.mpr hk, hdiverges⟩, rfl⟩

/-- What is marked early enough is marked by the pivots that were there. -/
theorem mem_marked_append {prices latePrices rsis lateRsis : List Pivot} {i : ℕ}
    (hprices : ∀ p ∈ latePrices, i < p.index) (hrsis : ∀ p ∈ lateRsis, i + spans.maxAlignmentBars < p.index)
    (hsorted : prices.Pairwise fun p q => p.index < q.index) :
    i ∈ marked side spans (prices ++ latePrices) (rsis ++ lateRsis) ↔ i ∈ marked side spans prices rsis := by
  have hsame {k : ℕ} {current : Pivot} (hk : prices[k]? = some current) (hindex : current.index = i) :
      diverges side spans (prices ++ latePrices) (rsis ++ lateRsis) k current = diverges side spans prices rsis k current := by
    obtain ⟨hlt, hcurrent⟩ := List.getElem?_eq_some_iff.mp hk
    unfold diverges nearestPivot
    rw [findMatchingPivot_append none (hindex ▸ hrsis), List.take_append_of_le_length hlt.le]
    cases findMatchingPivot rsis current.index spans.maxAlignmentBars none with
    | none => rfl
    | some currentRsi =>
      dsimp only
      refine any_congr_mem fun previous hprevious => ?_
      obtain ⟨j, hj, hget⟩ := List.mem_take_iff_getElem.mp (List.mem_of_mem_drop (List.mem_reverse.mp hprevious))
      -- the pivots before this one are earlier rows
      have hbefore : previous.index < i := by
        rw [← hindex, ← hget, ← hcurrent]
        exact List.pairwise_iff_getElem.mp hsorted j k _ hlt (by omega)
      rw [findMatchingPivot_append (some currentRsi.index) fun p hp => by have := hrsis p hp; omega]
  rw [mem_marked, mem_marked]
  constructor
  · rintro ⟨k, current, hk, hindex, hdiverges⟩
    rcases lt_or_ge k prices.length with hlt | hge
    · rw [List.getElem?_append_left hlt] at hk
      exact ⟨k, current, hk, hindex, (hsame hk hindex) ▸ hdiverges⟩
    · rw [List.getElem?_append_right hge] at hk
      exact absurd hindex (hprices current (List.mem_of_getElem? hk)).ne'
  · rintro ⟨k, current, hk, hindex, hdiverges⟩
    have hlt : k < prices.length := (List.getElem?_eq_some_iff.mp hk).1
    exact ⟨k, current, (List.getElem?_append_left hlt).trans hk, hindex, (hsame hk hindex).trans hdiverges⟩

/-- A mark is final once the pivots that may be nearest are known. -/
theorem divergences_append (side : Side) (spans : Spans) {price price' rsi rsi' : List (Option ℚ)}
    (hlength : rsi.length = price.length) {i : ℕ} (hi : i + spans.maxAlignmentBars + spans.rightSpan < price.length) :
    (divergences side spans (price ++ price') (rsi ++ rsi'))[i]? = (divergences side spans price rsi)[i]? := by
  obtain ⟨latePrices, hprices, hlatePrices⟩ := collectPivots_append side spans price price'
  obtain ⟨lateRsis, hrsis, hlateRsis⟩ := collectPivots_append side spans rsi rsi'
  have hmarked : i ∈ marked side spans (collectPivots side spans price ++ latePrices) (collectPivots side spans rsi ++ lateRsis) ↔
      i ∈ marked side spans (collectPivots side spans price) (collectPivots side spans rsi) := by
    refine mem_marked_append (fun p hp => ?_) (fun p hp => ?_) (pairwise_collectPivots side spans price)
    · have := hlatePrices p hp
      omega
    · have := hlateRsis p hp
      omega
  unfold divergences
  rw [List.getElem?_map, List.getElem?_map, List.getElem?_range (by rw [List.length_append]; omega),
    List.getElem?_range (by omega), hprices, hrsis, Option.map_some, Option.map_some, decide_eq_decide.mpr hmarked]

end More

-- ============================================================================
-- Reflected
-- ============================================================================

section Reflected

variable {spans : Spans} {g h : ℚ → ℚ}

/-- The greatest value is the least of the reflected ones. -/
theorem min?_map_anti (hg : StrictAnti g) (values : List ℚ) : (values.map g).min? = values.max?.map g := by
  refine Option.ext fun v => ?_
  rw [List.min?_eq_some_iff, Option.map_eq_some_iff]
  constructor
  · rintro ⟨hmem, hle⟩
    obtain ⟨w, hw, rfl⟩ := List.mem_map.mp hmem
    exact ⟨w, List.max?_eq_some_iff.mpr ⟨hw, fun x hx => hg.le_iff_ge.mp (hle _ (List.mem_map_of_mem hx))⟩, rfl⟩
  · rintro ⟨w, hw, rfl⟩
    obtain ⟨hmem, hle⟩ := List.max?_eq_some_iff.mp hw
    refine ⟨List.mem_map_of_mem hmem, fun x hx => ?_⟩
    obtain ⟨y, hy, rfl⟩ := List.mem_map.mp hx
    exact hg.antitone (hle y hy)

def Pivot.reflect (g : ℚ → ℚ) (p : Pivot) : Pivot := { p with value := g p.value }

/-- The highs are the lows of the reflected series. -/
theorem collectPivots_reflect (hg : StrictAnti g) (spans : Spans) (series : List (Option ℚ)) :
    collectPivots .bullish spans (series.map (Option.map g)) =
      (collectPivots .bearish spans series).map (Pivot.reflect g) := by
  have hpivot (i : ℕ) : pivotAt .bullish spans (series.map (Option.map g)) i =
      (pivotAt .bearish spans series i).map (Pivot.reflect g) := by
    unfold pivotAt
    rw [List.getElem?_map]
    cases series[i]? with
    | none => rfl
    | some value =>
      cases value with
      | none => rfl
      | some value =>
        have hextreme (values : List ℚ) : Side.bullish.extreme (values.map g) = some (g value) ↔
            Side.bearish.extreme values = some value := by
          show (values.map g).min? = _ ↔ values.max? = _
          rw [min?_map_anti hg]
          constructor
          · intro hmap
            obtain ⟨w, hw, heq⟩ := Option.map_eq_some_iff.mp hmap
            rw [hw, hg.injective heq]
          · intro hmax
            rw [hmax, Option.map_some]
        have hcount (l : List (Option ℚ)) : (l.map (Option.map g)).count (some (g value)) = l.count (some value) :=
          List.count_map_of_injective l (Option.map g) (Option.map_injective hg.injective) (some value)
        simp only [Option.map_some, ← List.map_drop, ← List.map_take, List.reduceOption_map, hextreme, hcount]
        split
        case isTrue => rfl
        case isFalse => rfl
  unfold collectPivots
  rw [List.length_map, List.map_filterMap]
  exact List.filterMap_congr fun i _ => hpivot i

theorem firstMin_map {α β : Type*} {key : β → ℕ} {key' : α → ℕ} {f : α → β} (hkey : ∀ x, key (f x) = key' x) (xs : List α) :
    firstMin key (xs.map f) = (firstMin key' xs).map f := by
  cases xs with
  | nil => rfl
  | cons x xs =>
    show some _ = some _
    congr 1
    induction xs generalizing x with
    | nil => rfl
    | cons y xs ih =>
      rw [List.map_cons, List.foldl_cons, List.foldl_cons, hkey, hkey, ← ih, apply_ite f]

theorem findMatchingPivot_reflect (g : ℚ → ℚ) (pivots : List Pivot) (target maxDistance : ℕ) (before : Option ℕ) :
    findMatchingPivot (pivots.map (Pivot.reflect g)) target maxDistance before =
      (findMatchingPivot pivots target maxDistance before).map (Pivot.reflect g) := by
  unfold findMatchingPivot
  rw [List.filter_map]
  exact firstMin_map (fun _ => rfl) _

theorem diverges_reflect (hg : StrictAnti g) (hh : StrictAnti h) (prices rsis : List Pivot) (k : ℕ) (current : Pivot) :
    diverges .bullish spans (prices.map (Pivot.reflect g)) (rsis.map (Pivot.reflect h)) k (current.reflect g) =
      diverges .bearish spans prices rsis k current := by
  unfold diverges nearestPivot
  rw [findMatchingPivot_reflect]
  show (match (findMatchingPivot rsis current.index spans.maxAlignmentBars none).map (Pivot.reflect h) with
    | none => false
    | some currentRsi => _) = _
  cases findMatchingPivot rsis current.index spans.maxAlignmentBars none with
  | none => rfl
  | some currentRsi =>
    simp only [Option.map_some, ← List.map_take, ← List.map_drop, ← List.map_reverse, List.any_map]
    refine any_congr_mem fun previous _ => ?_
    simp only [Function.comp_apply, findMatchingPivot_reflect]
    show (match (findMatchingPivot rsis previous.index spans.maxAlignmentBars (some currentRsi.index)).map (Pivot.reflect h) with
      | none => false
      | some previousRsi => _) = _
    cases findMatchingPivot rsis previous.index spans.maxAlignmentBars (some currentRsi.index) with
    | none => rfl
    | some previousRsi =>
      show (decide (g current.value < g previous.value) && decide (h previousRsi.value < h currentRsi.value)) =
        (decide (previous.value < current.value) && decide (currentRsi.value < previousRsi.value))
      rw [decide_eq_decide.mpr hg.lt_iff_gt, decide_eq_decide.mpr hh.lt_iff_gt]

/-- Bearish divergences are the bullish ones of a price and an index that are reflected. -/
theorem divergences_reflect (hg : StrictAnti g) (hh : StrictAnti h) (spans : Spans) (price rsi : List (Option ℚ)) :
    divergences .bearish spans price rsi =
      divergences .bullish spans (price.map (Option.map g)) (rsi.map (Option.map h)) := by
  unfold divergences
  rw [collectPivots_reflect hg, collectPivots_reflect hh, List.length_map]
  refine List.map_congr_left fun i _ => decide_eq_decide.mpr ?_
  rw [mem_marked, mem_marked]
  constructor
  · rintro ⟨k, current, hk, hindex, hdiverges⟩
    refine ⟨k, current.reflect g, ?_, hindex, (diverges_reflect hg hh _ _ _ _).trans hdiverges⟩
    rw [List.getElem?_map, hk, Option.map_some]
  · rintro ⟨k, current, hk, hindex, hdiverges⟩
    rw [List.getElem?_map] at hk
    obtain ⟨original, horiginal, rfl⟩ := Option.map_eq_some_iff.mp hk
    exact ⟨k, original, horiginal, hindex, (diverges_reflect hg hh _ _ _ _).symm.trans hdiverges⟩

end Reflected

-- ============================================================================
-- Of a price and its own index
-- ============================================================================

/-- The mark of a row is final once so many more rows are known as an index pivot may be
    off and it takes to see it, and the bearish marks are the bullish ones of the prices
    reflected. -/
theorem rsi_divergence (spans : Spans) (window : ℕ) (hwindow : 0 < window) :
    (∀ side close more i, i + spans.maxAlignmentBars + spans.rightSpan < close.length →
      (rsiDivergences side spans window (close ++ more))[i]? = (rsiDivergences side spans window close)[i]?) ∧
    ∀ close c, rsiDivergences .bearish spans window close = rsiDivergences .bullish spans window (close.map fun x => c - x) := by
  constructor
  · intro side close more i hi
    have hcausal := causal_computeRsi window
    obtain ⟨rest, hrest⟩ := hcausal.append_eq close more
    unfold rsiDivergences
    rw [List.map_append, hrest]
    exact divergences_append side spans (by rw [hcausal.length, List.length_map]) (by rwa [List.length_map])
  · intro close c
    have hprice : StrictAnti fun x : ℚ => c - x := fun x y hxy => sub_lt_sub_left hxy c
    have hrsi : StrictAnti fun x : ℚ => 100 - x := fun x y hxy => sub_lt_sub_left hxy 100
    unfold rsiDivergences
    rw [divergences_reflect hprice hrsi, ← computeRsi_mirror hwindow, List.map_map, List.map_map]
    rfl

/-- A lower low of the price, and a higher one of its index. -/
def lowerLow : List ℚ := [20, 12, 10, 11, 9, 12, 11, 13]

theorem rsi_divergence_lower_low :
    (rsiDivergences .bullish ⟨1, 1, 1, 5⟩ 2 (lowerLow ++ [8]))[4]? = (rsiDivergences .bullish ⟨1, 1, 1, 5⟩ 2 lowerLow)[4]? :=
  (rsi_divergence ⟨1, 1, 1, 5⟩ 2 (by decide)).1 .bullish lowerLow [8] 4 (by decide)

example : rsiDivergences .bullish ⟨1, 1, 1, 5⟩ 2 lowerLow =
    [false, false, false, false, true, false, false, false] := by decide +kernel

end IbTrader.Signals
