/-
  IbTrader.Signals.Rsi

  The relative strength index (`compute_rsi` in `signals_lib/indicators.py`) and the
  features of `signals_lib/ibs.py`, which computes one of its own.

  The averages start as means and are then smoothed, one row at a time.  A reading lies
  between 0 and 100, does not look ahead, does not depend on the scale of the prices or on
  a shift, and is reflected at 50 where they are (`rsi_reading`).  The short index of the
  other module is the same function, and the trick with which that counts the rows that
  fell counts the streak of them (`ibs_features`).

  Prices are rationals and never missing.
-/

import IbTrader.Lib.Causal
import IbTrader.Lib.Streak
import Mathlib.Algebra.BigOperators.Ring.List
import Mathlib.Algebra.Order.BigOperators.Group.List
import Mathlib.Algebra.Order.Field.Rat
import Mathlib.Algebra.Order.Group.MinMax
import Mathlib.Tactic.FieldSimp
import Mathlib.Tactic.Linarith
import Mathlib.Tactic.Positivity
import Mathlib.Tactic.Ring

namespace IbTrader.Signals

open Lib

-- ============================================================================
-- The index
-- ============================================================================

/-- `close.diff()`, without the first row. -/
def diff (close : List ℚ) : List ℚ := close.zipWith (fun before now => now - before) close.tail

/-- A row's gain and loss: `delta.clip(lower=0.0)` and `-delta.clip(upper=0.0)`. -/
def gainLoss (delta : ℚ) : ℚ × ℚ := (max delta 0, -min delta 0)

def mean (xs : List ℚ) : ℚ := xs.sum / xs.length

/-- `_rsi_value`. -/
def rsiValue (avg : ℚ × ℚ) : ℚ :=
  if avg.2 = 0 then if 0 < avg.1 then 100 else 50 else 100 - 100 / (1 + avg.1 / avg.2)

/-- The averages of the first rows. -/
def initialAverages (window : ℕ) (rows : List (ℚ × ℚ)) : ℚ × ℚ :=
  (mean ((rows.take window).map Prod.fst), mean ((rows.take window).map Prod.snd))

/-- The averages with one more row. -/
def smooth (window : ℕ) (avg row : ℚ × ℚ) : ℚ × ℚ :=
  ((avg.1 * (window - 1) + row.1) / window, (avg.2 * (window - 1) + row.2) / window)

/-- `compute_rsi` past its check of the window; none is NaN. -/
def computeRsi (window : ℕ) (close : List ℚ) : List (Option ℚ) :=
  if close.length ≤ window then List.replicate close.length none
  else
    let rows := (diff close).map gainLoss
    List.replicate window none ++
      ((rows.drop window).scanl (smooth window) (initialAverages window rows)).map fun avg => some (rsiValue avg)

/-- `compute_rsi`. -/
def computeRsiChecked (window : ℕ) (close : List ℚ) : Except String (List (Option ℚ)) :=
  if window < 1 then .error "RSI window must be at least 1." else .ok (computeRsi window close)

-- ============================================================================
-- By position
-- ============================================================================

/-- The averages of a row. -/
def averagesAt (window : ℕ) (rows : List (ℚ × ℚ)) (i : ℕ) : ℚ × ℚ :=
  ((rows.drop window).take (i - window)).foldl (smooth window) (initialAverages window rows)

def rsiAt (window : ℕ) (close : List ℚ) (i : ℕ) : Option ℚ :=
  if i < window then none else some (rsiValue (averagesAt window ((diff close).map gainLoss) i))

section Position

variable {window : ℕ} {close : List ℚ}

theorem length_diff (close : List ℚ) : (diff close).length = close.length - 1 := by
  unfold diff
  rw [List.length_zipWith, List.length_tail]
  omega

theorem computeRsi_eq (window : ℕ) (close : List ℚ) :
    computeRsi window close = (List.range close.length).map (rsiAt window close) := by
  have hlength := length_diff close
  unfold computeRsi
  refine List.ext_getElem? fun i => ?_
  rw [List.getElem?_map]
  split
  case isTrue hshort =>
    rcases lt_or_ge i close.length with hi | hi
    · rw [List.getElem?_replicate_of_lt hi, List.getElem?_range hi, Option.map_some, rsiAt,
        if_pos (hi.trans_le hshort)]
    · rw [List.getElem?_eq_none (by simpa using hi), List.getElem?_eq_none (by simpa using hi), Option.map_none]
  case isFalse hlong =>
    dsimp only
    rcases lt_or_ge i window with hi | hi
    · rw [List.getElem?_append_left (by simpa using hi), List.getElem?_replicate_of_lt hi,
        List.getElem?_range (by omega), Option.map_some, rsiAt, if_pos hi]
    · rw [List.getElem?_append_right (by simpa using hi), List.length_replicate, List.getElem?_map,
        List.getElem?_scanl, List.length_drop, List.length_map, hlength]
      rcases lt_or_ge i close.length with hin | hout
      · rw [if_pos (by omega), List.getElem?_range hin, Option.map_some, Option.map_some, rsiAt, if_neg (by omega)]
        rfl
      · rw [if_neg (by omega), List.getElem?_eq_none (by simpa using hout), Option.map_none, Option.map_none]

/-- The first rows do not depend on what is appended. -/
theorem take_diff_append (xs ys : List ℚ) {i : ℕ} (hi : i < xs.length) :
    (diff (xs ++ ys)).take i = (diff xs).take i := by
  have htail (l : List ℚ) : l.tail.take i = (l.take (i + 1)).drop 1 := by
    rw [List.drop_take, Nat.add_sub_cancel, List.drop_one]
  unfold diff
  rw [List.take_zipWith, List.take_zipWith, htail, htail, List.take_append_of_le_length hi.le,
    List.take_append_of_le_length hi]

theorem causal_computeRsi (window : ℕ) : Causal (computeRsi window) := by
  have hpositions : computeRsi window = fun xs => (List.range xs.length).map (rsiAt window xs) :=
    funext (computeRsi_eq window)
  rw [hpositions]
  refine causal_positions fun xs ys i hi => ?_
  unfold rsiAt
  split
  case isTrue => rfl
  case isFalse hwindow =>
    have hrows : (((diff (xs ++ ys)).map gainLoss).take i) = ((diff xs).map gainLoss).take i := by
      rw [← List.map_take, ← List.map_take, take_diff_append xs ys hi]
    have haverages (rows : List (ℚ × ℚ)) : averagesAt window rows i = averagesAt window (rows.take i) i := by
      unfold averagesAt initialAverages
      rw [List.drop_take, List.take_take, List.take_take, Nat.min_eq_left (Nat.le_of_not_lt hwindow), Nat.min_self]
    rw [haverages, haverages ((diff xs).map gainLoss), hrows]

end Position

-- ============================================================================
-- Its range
-- ============================================================================

section Range

variable {window : ℕ} {avg : ℚ × ℚ}

theorem rsiValue_mem (hgain : 0 ≤ avg.1) (hloss : 0 ≤ avg.2) : 0 ≤ rsiValue avg ∧ rsiValue avg ≤ 100 := by
  unfold rsiValue
  split
  case isTrue => split <;> norm_num
  case isFalse hne =>
    have hratio : 0 ≤ avg.1 / avg.2 := div_nonneg hgain hloss
    have hpos : (0 : ℚ) < 1 + avg.1 / avg.2 := by linarith
    constructor
    · rw [sub_nonneg, div_le_iff₀ hpos]
      linarith
    · rw [sub_le_self_iff]
      positivity

theorem gainLoss_nonneg (delta : ℚ) : 0 ≤ (gainLoss delta).1 ∧ 0 ≤ (gainLoss delta).2 :=
  ⟨le_max_right _ _, neg_nonneg.mpr (min_le_right _ _)⟩

theorem mean_nonneg {xs : List ℚ} (h : ∀ x ∈ xs, 0 ≤ x) : 0 ≤ mean xs :=
  div_nonneg (List.sum_nonneg h) (Nat.cast_nonneg _)

/-- No average is negative. -/
theorem averagesAt_nonneg (hwindow : 0 < window) {rows : List (ℚ × ℚ)} (hrows : ∀ row ∈ rows, 0 ≤ row.1 ∧ 0 ≤ row.2)
    (i : ℕ) : 0 ≤ (averagesAt window rows i).1 ∧ 0 ≤ (averagesAt window rows i).2 := by
  have hone : (1 : ℚ) ≤ window := Nat.one_le_cast.mpr hwindow
  have hinit : 0 ≤ (initialAverages window rows).1 ∧ 0 ≤ (initialAverages window rows).2 := by
    constructor
    · refine mean_nonneg fun x hx => ?_
      obtain ⟨row, hrow, rfl⟩ := List.mem_map.mp hx
      exact (hrows row (List.mem_of_mem_take hrow)).1
    · refine mean_nonneg fun x hx => ?_
      obtain ⟨row, hrow, rfl⟩ := List.mem_map.mp hx
      exact (hrows row (List.mem_of_mem_take hrow)).2
  have hsmooth (later : List (ℚ × ℚ)) (hlater : ∀ row ∈ later, 0 ≤ row.1 ∧ 0 ≤ row.2) :
      ∀ avg : ℚ × ℚ, 0 ≤ avg.1 ∧ 0 ≤ avg.2 →
        0 ≤ (later.foldl (smooth window) avg).1 ∧ 0 ≤ (later.foldl (smooth window) avg).2 := by
    induction later with
    | nil => exact fun avg havg => havg
    | cons row later ih =>
      intro avg ⟨hgain, hloss⟩
      obtain ⟨⟨hrow, hrow'⟩, hlater⟩ := List.forall_mem_cons.mp hlater
      have hweight : (0 : ℚ) ≤ window - 1 := by linarith
      exact ih hlater _ ⟨by unfold smooth; positivity, by unfold smooth; positivity⟩
  refine hsmooth _ (fun row hrow => hrows row ?_) _ hinit
  exact List.mem_of_mem_drop (List.mem_of_mem_take hrow)

theorem averages_nonneg (hwindow : 0 < window) (close : List ℚ) (i : ℕ) :
    0 ≤ (averagesAt window ((diff close).map gainLoss) i).1 ∧ 0 ≤ (averagesAt window ((diff close).map gainLoss) i).2 := by
  refine averagesAt_nonneg hwindow (fun row hrow => ?_) i
  obtain ⟨delta, -, rfl⟩ := List.mem_map.mp hrow
  exact gainLoss_nonneg delta

end Range

-- ============================================================================
-- Scale and mirror
-- ============================================================================

section Symmetry

variable {window : ℕ}

/-- What commutes with means and smoothing commutes with the averages. -/
theorem averagesAt_map {f : ℚ × ℚ → ℚ × ℚ} (hsmooth : ∀ avg row, smooth window (f avg) (f row) = f (smooth window avg row))
    (hinit : ∀ rows, initialAverages window (rows.map f) = f (initialAverages window rows)) (rows : List (ℚ × ℚ)) (i : ℕ) :
    averagesAt window (rows.map f) i = f (averagesAt window rows i) := by
  have hfold (later : List (ℚ × ℚ)) (avg : ℚ × ℚ) :
      (later.map f).foldl (smooth window) (f avg) = f (later.foldl (smooth window) avg) := by
    induction later generalizing avg with
    | nil => rfl
    | cons row later ih => rw [List.map_cons, List.foldl_cons, List.foldl_cons, hsmooth, ih]
  unfold averagesAt
  rw [hinit, ← List.map_drop, ← List.map_take, hfold]

theorem diff_map {f : ℚ → ℚ} {g : ℚ → ℚ} (h : ∀ before now, f now - f before = g (now - before)) (close : List ℚ) :
    diff (close.map f) = (diff close).map g := by
  unfold diff
  rw [← List.map_tail, List.zipWith_map, List.map_zipWith]
  simp only [h]

def scale (k : ℚ) (row : ℚ × ℚ) : ℚ × ℚ := (k * row.1, k * row.2)

theorem mean_map_mul (k : ℚ) (xs : List ℚ) : mean (xs.map (k * ·)) = k * mean xs := by
  unfold mean
  rw [List.sum_map_mul_left, List.map_id', List.length_map, mul_div_assoc]

theorem averagesAt_scale (k : ℚ) (rows : List (ℚ × ℚ)) (i : ℕ) :
    averagesAt window (rows.map (scale k)) i = scale k (averagesAt window rows i) := by
  refine averagesAt_map (fun avg row => ?_) (fun rows => ?_) rows i
  · unfold smooth scale
    exact Prod.ext (by dsimp only; ring) (by dsimp only; ring)
  · unfold initialAverages
    rw [← List.map_take, List.map_map, List.map_map]
    have hfst := mean_map_mul k ((rows.take window).map Prod.fst)
    have hsnd := mean_map_mul k ((rows.take window).map Prod.snd)
    rw [List.map_map] at hfst hsnd
    exact Prod.ext hfst hsnd

theorem averagesAt_swap (rows : List (ℚ × ℚ)) (i : ℕ) :
    averagesAt window (rows.map Prod.swap) i = (averagesAt window rows i).swap := by
  refine averagesAt_map (fun avg row => rfl) (fun rows => ?_) rows i
  unfold initialAverages
  rw [← List.map_take, List.map_map, List.map_map]
  rfl

theorem rsiValue_scale {k : ℚ} (hk : 0 < k) (avg : ℚ × ℚ) : rsiValue (scale k avg) = rsiValue avg := by
  unfold rsiValue scale
  simp only [mul_eq_zero, hk.ne', false_or, mul_pos_iff_of_pos_left hk, mul_div_mul_left _ _ hk.ne']

/-- The gains are the losses of the reflected prices. -/
theorem rsiValue_swap {avg : ℚ × ℚ} (hgain : 0 ≤ avg.1) (hloss : 0 ≤ avg.2) :
    rsiValue avg.swap = 100 - rsiValue avg := by
  obtain ⟨gain, loss⟩ := avg
  unfold rsiValue
  dsimp only [Prod.swap] at hgain hloss ⊢
  rcases hgain.eq_or_lt with rfl | hgain
  · rcases hloss.eq_or_lt with rfl | hloss
    · norm_num
    · simp [hloss, hloss.ne']
  · rcases hloss.eq_or_lt with rfl | hloss
    · simp [hgain, hgain.ne']
    · rw [if_neg hgain.ne', if_neg hloss.ne']
      field_simp
      ring

theorem computeRsi_scale {k : ℚ} (hk : 0 < k) (c : ℚ) (window : ℕ) (close : List ℚ) :
    computeRsi window (close.map fun x => k * x + c) = computeRsi window close := by
  have hrows : (diff (close.map fun x => k * x + c)).map gainLoss = ((diff close).map gainLoss).map (scale k) := by
    rw [diff_map (g := fun d => k * d) (fun before now => by ring), List.map_map, List.map_map]
    refine List.map_congr_left fun delta _ => Prod.ext ?_ ?_
    · show max (k * delta) 0 = k * max delta 0
      rw [mul_max_of_nonneg _ _ hk.le, mul_zero]
    · show -min (k * delta) 0 = k * -min delta 0
      rw [mul_neg, mul_min_of_nonneg _ _ hk.le, mul_zero]
  rw [computeRsi_eq, computeRsi_eq, List.length_map]
  refine List.map_congr_left fun i _ => ?_
  unfold rsiAt
  rw [hrows, averagesAt_scale, rsiValue_scale hk]

theorem computeRsi_mirror (hwindow : 0 < window) (c : ℚ) (close : List ℚ) :
    computeRsi window (close.map fun x => c - x) = (computeRsi window close).map (Option.map (100 - ·)) := by
  have hrows : (diff (close.map fun x => c - x)).map gainLoss = ((diff close).map gainLoss).map Prod.swap := by
    rw [diff_map (g := fun d => -d) (fun before now => by ring), List.map_map, List.map_map]
    refine List.map_congr_left fun delta _ => Prod.ext ?_ ?_
    · show max (-delta) 0 = -min delta 0
      rw [← neg_zero, max_neg_neg, neg_zero]
    · show -min (-delta) 0 = max delta 0
      rw [← neg_zero, min_neg_neg, neg_neg, neg_zero]
  rw [computeRsi_eq, computeRsi_eq, List.length_map, List.map_map]
  refine List.map_congr_left fun i _ => ?_
  have havg := averages_nonneg hwindow close i
  simp only [Function.comp_apply, rsiAt]
  split
  · rfl
  · rw [hrows, averagesAt_swap, rsiValue_swap havg.1 havg.2]
    rfl

/-- A reading lies between 0 and 100, does not look ahead, is the same for prices in
    another unit or shifted, and is reflected where the prices are. -/
theorem rsi_reading (window : ℕ) (hwindow : 0 < window) :
    Causal (computeRsi window) ∧
      (∀ close, ∀ reading ∈ computeRsi window close, ∀ v ∈ reading, 0 ≤ v ∧ v ≤ 100) ∧
      (∀ close k c, 0 < k → computeRsi window (close.map fun x => k * x + c) = computeRsi window close) ∧
      ∀ close c, computeRsi window (close.map fun x => c - x) = (computeRsi window close).map (Option.map (100 - ·)) := by
  refine ⟨causal_computeRsi window, fun close reading hreading v hv => ?_,
    fun close k c hk => computeRsi_scale hk c window close, fun close c => computeRsi_mirror hwindow c close⟩
  rw [computeRsi_eq] at hreading
  obtain ⟨i, -, rfl⟩ := List.mem_map.mp hreading
  unfold rsiAt at hv
  split at hv
  · cases hv
  · cases hv
    exact rsiValue_mem (averages_nonneg hwindow close i).1 (averages_nonneg hwindow close i).2

theorem rsi_reading_two :
    computeRsi 2 ([10, 8, 9, 12].map fun x => 20 - x) = (computeRsi 2 [10, 8, 9, 12]).map (Option.map (100 - ·)) :=
  (rsi_reading 2 (by decide)).2.2.2 [10, 8, 9, 12] 20

end Symmetry

-- ============================================================================
-- The features of the short index
-- ============================================================================

/-- One turn of the loop of `add_ibs_features` over the row numbers: its averages and the
    readings so far. -/
def rsi2Row (window : ℕ) (rows : List (ℚ × ℚ)) (state : (ℚ × ℚ) × List (Option ℚ)) (i : ℕ) :
    (ℚ × ℚ) × List (Option ℚ) :=
  let avg := if window < i then smooth window state.1 (rows.getD (i - 1) (0, 0)) else state.1
  (avg, state.2 ++ [some (rsiValue avg)])

/-- The column `rsi2` of `add_ibs_features`. -/
def rsi2 (window : ℕ) (close : List ℚ) : List (Option ℚ) :=
  if window < close.length then
    let rows := (diff close).map gainLoss
    ((List.range' window (close.length - window)).foldl (rsi2Row window rows)
      (initialAverages window rows, List.replicate window none)).2
  else List.replicate close.length none

/-- `.shift(1)`, with the value that leaves the frame. -/
def shift {α : Type*} (rows : List α) : List (Option α) := none :: rows.map some

/-- `(close < close.shift(1)).astype(int)`. -/
def down (close : List ℚ) : List Bool :=
  close.zipWith (fun now before => before.any fun before => decide (now < before)) (shift close)

/-- `down != down.shift()`. -/
def changed (down : List Bool) : List ℕ :=
  down.zipWith (fun now before => if before = some now then 0 else 1) (shift down)

/-- `.cumsum()`. -/
def cumsum (rows : List ℕ) : List ℕ := (List.range rows.length).map fun i => (rows.take (i + 1)).sum

/-- `.groupby(keys).cumsum()`. -/
def groupCumsum (keys rows : List ℕ) : List ℕ :=
  (List.range rows.length).map fun i =>
    ((((keys.zip rows).take (i + 1)).filter fun row => keys[i]? = some row.1).map Prod.snd).sum

/-- The column `consec_down_bars` of `add_ibs_features`. -/
def consecDownBars (close : List ℚ) : List ℕ :=
  groupCumsum (cumsum (changed (down close))) ((down close).map Bool.toNat)

section Rsi2

variable {window : ℕ} {close : List ℚ}

/-- After some turns the averages are those of the last row. -/
theorem foldl_rsi2Row (window : ℕ) {rows : List (ℚ × ℚ)} (out : List (Option ℚ)) {n : ℕ} (hn : window + n ≤ rows.length) :
    (List.range' window (n + 1)).foldl (rsi2Row window rows) (initialAverages window rows, out) =
      (averagesAt window rows (window + n),
        out ++ (List.range' window (n + 1)).map fun i => some (rsiValue (averagesAt window rows i))) := by
  have hfirst : averagesAt window rows window = initialAverages window rows := by
    unfold averagesAt
    rw [Nat.sub_self, List.take_zero, List.foldl_nil]
  induction n with
  | zero =>
    show rsi2Row window rows (initialAverages window rows, out) window = _
    unfold rsi2Row
    rw [if_neg (lt_irrefl window), Nat.add_zero, hfirst]
    show _ = (_, out ++ [some (rsiValue (averagesAt window rows window))])
    rw [hfirst]
  | succ n ih =>
    have hrow : (rows.drop window)[n]? = some rows[window + n] := by
      rw [List.getElem?_drop, List.getElem?_eq_getElem]
    have hnext : averagesAt window rows (window + (n + 1)) =
        smooth window (averagesAt window rows (window + n)) (rows.getD (window + (n + 1) - 1) (0, 0)) := by
      unfold averagesAt
      rw [Nat.add_sub_cancel_left, Nat.add_sub_cancel_left, List.take_add_one, hrow, Option.toList_some,
        List.foldl_concat, ← Nat.add_assoc, Nat.add_sub_cancel, List.getD_eq_getElem?_getD,
        List.getElem?_eq_getElem (show window + n < rows.length from hn), Option.getD_some]
    rw [List.range'_1_concat, List.foldl_concat, ih (by omega), List.map_append, ← List.append_assoc]
    unfold rsi2Row
    rw [if_pos (by omega), ← hnext]
    rfl

theorem rsi2_eq (window : ℕ) (close : List ℚ) : rsi2 window close = computeRsi window close := by
  unfold rsi2
  split
  case isFalse hshort => rw [computeRsi, if_pos (by omega)]
  case isTrue hlong =>
    have hlength : ((diff close).map gainLoss).length = close.length - 1 := by rw [List.length_map, length_diff]
    obtain ⟨n, hn⟩ : ∃ n, close.length = window + (n + 1) := ⟨close.length - window - 1, by omega⟩
    have hsub : close.length - window = n + 1 := by omega
    dsimp only
    rw [hsub, foldl_rsi2Row window _ (by omega), computeRsi_eq, hn, List.range_add, List.map_append,
      List.range'_eq_map_range, List.map_map, List.map_map]
    show List.replicate window none ++ _ = _
    congr 1
    · refine List.ext_getElem (by simp) fun i hi _ => ?_
      rw [List.length_replicate] at hi
      simp [rsiAt, hi]
    · refine List.map_congr_left fun i _ => ?_
      simp [rsiAt]

end Rsi2

section ConsecDown

variable {l : List Bool}

theorem zipWith_shift_concat {α β : Type*} (f : α → Option α → β) (l : List α) (a : α) :
    (l ++ [a]).zipWith f (shift (l ++ [a])) = l.zipWith f (shift l) ++ [f a l.getLast?] := by
  have hfrom (before : Option α) :
      (l ++ [a]).zipWith f (before :: (l ++ [a]).map some) =
        l.zipWith f (before :: l.map some) ++ [f a (l.getLast?.or before)] := by
    induction l generalizing before with
    | nil => rfl
    | cons b l ih =>
      have hlast : (b :: l).getLast?.or before = l.getLast?.or (some b) := by
        rw [List.getLast?_cons]
        cases l.getLast? <;> rfl
      rw [List.cons_append, List.zipWith_cons_cons, List.map_cons, ih, hlast]
      rfl
  unfold shift
  rw [hfrom, Option.or_none]

theorem changed_concat (l : List Bool) (a : Bool) :
    changed (l ++ [a]) = changed l ++ [if l.getLast? = some a then 0 else 1] :=
  zipWith_shift_concat _ l a

theorem length_changed (l : List Bool) : (changed l).length = l.length := by
  unfold changed shift
  simp

theorem changed_take (l : List Bool) (n : ℕ) : (changed l).take n = changed (l.take n) := by
  induction l using List.reverseRecOn with
  | nil => simp [changed]
  | append_singleton l a ih =>
    rcases le_or_gt n l.length with hn | hn
    · rw [List.take_append_of_le_length hn, ← ih, changed_concat,
        List.take_append_of_le_length (hn.trans_eq (length_changed l).symm)]
    · have hlength : (l ++ [a]).length ≤ n := by simpa using Nat.succ_le_of_lt hn
      rw [List.take_of_length_le hlength, List.take_of_length_le ((length_changed _).trans_le hlength)]

theorem cumsum_concat (rows : List ℕ) (a : ℕ) : cumsum (rows ++ [a]) = cumsum rows ++ [(rows ++ [a]).sum] := by
  unfold cumsum
  rw [List.length_append, List.length_singleton, List.range_succ, List.map_append, List.map_singleton,
    List.take_of_length_le (by simp)]
  congr 1
  refine List.map_congr_left fun i hi => ?_
  rw [List.take_append_of_le_length (List.mem_range.mp hi)]

theorem length_cumsum (rows : List ℕ) : (cumsum rows).length = rows.length := by
  rw [cumsum, List.length_map, List.length_range]

theorem cumsum_le (rows : List ℕ) : ∀ key ∈ cumsum rows, key ≤ rows.sum := by
  intro key hkey
  obtain ⟨i, -, rfl⟩ := List.mem_map.mp hkey
  exact (List.take_sublist _ _).sum_le_sum fun _ _ => Nat.zero_le _

/-- What the last group adds up to. -/
def lastGroup (l : List Bool) : ℕ :=
  ((((cumsum (changed l)).zip (l.map Bool.toNat)).filter fun row => row.1 = (changed l).sum).map Prod.snd).sum

/-- A change starts a group of its own, a row like the one before joins it. -/
theorem lastGroup_concat (l : List Bool) (a : Bool) :
    lastGroup (l ++ [a]) = (if l.getLast? = some a then lastGroup l else 0) + a.toNat := by
  have hlength : (cumsum (changed l)).length = (l.map Bool.toNat).length := by
    rw [length_cumsum, length_changed, List.length_map]
  unfold lastGroup
  rw [changed_concat, cumsum_concat, List.map_append, List.map_singleton, List.zip_append hlength,
    List.filter_append, List.map_append, List.sum_append, List.sum_append, List.sum_singleton]
  congr 1
  · split
    case isTrue => rfl
    case isFalse =>
      rw [List.filter_eq_nil_iff.mpr]
      · rfl
      · intro row hrow hkey
        have hle := cumsum_le _ _ (List.of_mem_zip hrow).1
        exact absurd (of_decide_eq_true hkey) (by omega)
  · simp

theorem streak_eq_zero (h : l.getLast? = some false) : streak id l = 0 := by
  obtain ⟨init, rfl⟩ := List.getLast?_eq_some_iff.mp h
  rw [streak_concat]
  rfl

theorem lastGroup_eq (l : List Bool) : lastGroup l = streak id l := by
  induction l using List.reverseRecOn with
  | nil => rfl
  | append_singleton l a ih =>
    rw [lastGroup_concat, streak_concat, ih]
    cases hlast : l.getLast? with
    | none =>
      rw [List.getLast?_eq_none_iff.mp hlast]
      cases a <;> rfl
    | some b =>
      cases a <;> cases b
      · rw [streak_eq_zero hlast]; rfl
      · rfl
      · rw [streak_eq_zero hlast]; rfl
      · rfl

theorem groupCumsum_changed (l : List Bool) :
    groupCumsum (cumsum (changed l)) (l.map Bool.toNat) = (List.range l.length).map fun i => streak id (l.take (i + 1)) := by
  unfold groupCumsum
  rw [List.length_map]
  refine List.map_congr_left fun i hi => ?_
  have hkey : (cumsum (changed l))[i]? = some (changed (l.take (i + 1))).sum := by
    unfold cumsum
    rw [List.getElem?_map, List.getElem?_range (by rw [length_changed]; exact List.mem_range.mp hi), Option.map_some,
      changed_take]
  have hkeys : (cumsum (changed l)).take (i + 1) = cumsum (changed (l.take (i + 1))) := by
    unfold cumsum
    rw [← List.map_take, List.take_range, ← changed_take, List.length_take]
    refine List.map_congr_left fun j hj => ?_
    rw [List.take_take, Nat.min_eq_left]
    have := List.mem_range.mp hj
    omega
  rw [hkey, List.zip, List.take_zipWith, hkeys, ← List.map_take, ← lastGroup_eq, lastGroup]
  simp only [Option.some.injEq, eq_comm, List.zip]

/-- The short index is the index of the other module, and the count of rows that fell in a
    row is the length of the streak that the row ends. -/
theorem ibs_features (window : ℕ) (hwindow : 0 < window) (close : List ℚ) :
    computeRsiChecked window close = .ok (rsi2 window close) ∧
      consecDownBars close = (List.range (down close).length).map fun i => streak id ((down close).take (i + 1)) := by
  refine ⟨?_, groupCumsum_changed (down close)⟩
  rw [computeRsiChecked, if_neg (by omega), rsi2_eq]

theorem ibs_features_two : computeRsiChecked 2 [10, 8, 9, 12] = .ok (rsi2 2 [10, 8, 9, 12]) ∧
    consecDownBars [10, 8, 9, 12] =
      (List.range (down [10, 8, 9, 12]).length).map fun i => streak id ((down [10, 8, 9, 12]).take (i + 1)) :=
  ibs_features 2 (by decide) [10, 8, 9, 12]

end ConsecDown

end IbTrader.Signals
