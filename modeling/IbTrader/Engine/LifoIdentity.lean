/-
  IbTrader.Engine.LifoIdentity

  LIFO matching and IB's average-cost walk agree in total.

  `avgStep_value` is the average-cost counterpart of `realizeLifo_value`: as long
  as the seed is there, a step conserves realised profit plus open value.  The
  walk stops counting realised profit once the seed is gone, so the two runs are
  compared over fills of which at most the last takes the seed away (`SeedHeld`).
-/

import IbTrader.Engine.LifoConservation

namespace IbTrader.Engine.LifoPnl

open Lib.Inventory

-- ============================================================================
-- The average-cost walk
-- ============================================================================

theorem avgStep_qty (mult : ℚ) (w : AvgWalk) (f : Fill) :
    (avgStep mult w f).qty = w.qty + f.signedQty := by
  unfold avgStep
  split
  · rfl
  · dsimp only
    split <;> rfl

@[simp] theorem avgWalk_nil (mult : ℚ) (w : AvgWalk) : avgWalk mult w [] = w := rfl

@[simp] theorem avgWalk_cons (mult : ℚ) (w : AvgWalk) (f : Fill) (fills : List Fill) :
    avgWalk mult w (f :: fills) = avgWalk mult (avgStep mult w f) fills := rfl

theorem avgWalk_qty (mult : ℚ) (fills : List Fill) :
    ∀ w : AvgWalk, (avgWalk mult w fills).qty = w.qty + netQty fills := by
  induction fills with
  | nil => intro w; simp
  | cons f fills ih =>
    intro w
    rw [avgWalk_cons, ih, avgStep_qty, netQty_cons, add_assoc]

/-- A step that leaves the position on its side leaves the seed. -/
theorem avgStep_seedGone {mult : ℚ} {w : AvgWalk} {f : Fill} (hgone : w.seedGone = false)
    (hside : sign (w.qty + f.signedQty) = sign w.qty) :
    (avgStep mult w f).seedGone = false := by
  unfold avgStep
  split
  · exact hgone
  · simp only [hside, ne_eq, not_true, if_false]
    exact hgone

/-- Adding on the position's side merges the fill into the average. -/
theorem add_value {mult : ℚ} (hmult : mult ≠ 0) (m price comm avg : ℚ) {qty sq : ℚ}
    (hqty : qty ≠ 0) (hside : sign sq = sign qty) :
    lotValue mult m (qty + sq)
        ((|qty| * avg + |sq| * openCost price comm sq mult (sign sq)) / |(qty + sq)|) =
      lotValue mult m qty avg + fillValue mult m sq price comm := by
  have hd := sign_mul_self hqty
  have hsq : sq ≠ 0 := by
    rintro rfl
    rw [sign_zero] at hside
    exact hqty (sign_eq_zero.mp hside.symm)
  have hq : qty = sign qty * |qty| := (sign_mul_abs qty).symm
  have hs : sq = sign qty * |sq| := by rw [← hside, sign_mul_abs]
  have hsum : qty + sq = sign qty * (|qty| + |sq|) := by
    rw [mul_add, ← hq, ← hs]
  have hpos : 0 < |qty| + |sq| := by
    have := abs_pos.mpr hqty
    have := abs_nonneg sq
    linarith
  have hne : qty + sq ≠ 0 := by
    rw [hsum]
    exact mul_ne_zero (by simpa using hqty) (ne_of_gt hpos)
  have hnew : sign (qty + sq) = sign qty := by
    rw [hsum]
    exact sign_mul_of_nonneg hd hpos
  -- with every size written as direction times quantity, the average is that of `merge_value`
  have havg : (|qty| * avg + |sq| * openCost price comm sq mult (sign sq)) / |(qty + sq)| =
      (qty * avg + sq * openCost price comm sq mult (sign sq)) / (qty + sq) := by
    have hdne : sign qty ≠ 0 := by simpa using hqty
    rw [abs_eq_sign_mul qty, abs_eq_sign_mul sq, abs_eq_sign_mul (qty + sq), hside, hnew,
      mul_assoc, mul_assoc, ← mul_add, mul_div_mul_left _ _ hdne]
  rw [havg, merge_value hne, openCost_eq _ _ _ hsq, open_value hmult hsq]

/-- Two quantities that are on different sides are on opposite ones. -/
theorem sign_opposite {x y : ℚ} (hx : x ≠ 0) (hy : y ≠ 0) (h : sign y ≠ sign x) :
    sign x = -sign y := by
  have hsides : sign x * sign x = sign y * sign y := by rw [sign_mul_self hx, sign_mul_self hy]
  rcases mul_self_eq_mul_self_iff.mp hsides with heq | heq
  · exact absurd heq.symm h
  · exact heq

/-- A position that a fill against it takes to flat or through zero is no larger
    than the fill. -/
theorem abs_le_of_side_lost {x y : ℚ} (hx : x ≠ 0) (hopp : y = -(sign x * |y|))
    (h : sign (x + y) ≠ sign x) : |x| ≤ |y| := by
  by_contra hlt
  have hsum : x + y = sign x * (|x| - |y|) := by
    rw [mul_sub, sign_mul_abs]
    linarith
  apply h
  rw [hsum]
  exact sign_mul_of_nonneg (sign_mul_self hx) (sub_pos.mpr (not_le.mp hlt))

/-- A position that stays on its side is no smaller than the fill against it. -/
theorem abs_le_of_side_kept {x y : ℚ} (hx : x ≠ 0) (hopp : y = -(sign x * |y|))
    (h : sign (x + y) = sign x) : |y| ≤ |x| := by
  by_contra hgt
  have hsum : x + y = -sign x * (|y| - |x|) := by
    have hpos := sign_mul_abs x
    rw [mul_sub]
    linarith
  have hunit : -sign x * -sign x = 1 := by rw [neg_mul_neg, sign_mul_self hx]
  rw [hsum, sign_mul_of_nonneg hunit (sub_pos.mpr (not_le.mp hgt))] at h
  have hzero : sign x = 0 := by linarith
  exact hx (sign_eq_zero.mp hzero)

/-- As long as the seed is there, a step conserves realised profit plus open
    value. -/
theorem avgStep_value {mult : ℚ} (hmult : mult ≠ 0) (m : ℚ) {w : AvgWalk} {f : Fill}
    (hgone : w.seedGone = false) (hqty : w.qty ≠ 0) (hsq : f.signedQty ≠ 0) :
    (avgStep mult w f).realized + lotValue mult m (avgStep mult w f).qty (avgStep mult w f).avg =
      w.realized + lotValue mult m w.qty w.avg +
        fillValue mult m f.signedQty f.price f.commission := by
  have htotal : |f.signedQty| ≠ 0 := by simpa using hsq
  unfold avgStep
  split
  case isTrue hadd =>
    have hside : sign f.signedQty = sign w.qty := hadd.resolve_left hqty
    simp only [add_value hmult m f.price f.commission w.avg hqty hside]
    ring
  case isFalse hclose =>
    have hopp : sign w.qty = -sign f.signedQty :=
      sign_opposite hqty hsq fun heq => hclose (.inr heq)
    have hfill : f.signedQty = -(sign w.qty * |f.signedQty|) := by
      rw [hopp, neg_mul, neg_neg, sign_mul_abs]
    have hpos : w.qty = sign w.qty * |w.qty| := (sign_mul_abs w.qty).symm
    have hsplit := abs_remaining hopp (min_le_left |f.signedQty| |w.qty|) hsq
    have hpass := match_pass mult m f.price w.avg f.commission |f.signedQty| hsplit
    rw [mul_div_assoc f.commission |f.signedQty|, div_self htotal, mul_one] at hpass
    dsimp only
    simp only [hgone, Bool.false_eq_true, if_false]
    split
    case isTrue hgo =>
      -- the position is closed in full; what is left of the fill opens the other side
      rw [min_eq_right (abs_le_of_side_lost hqty hfill hgo)] at hpass ⊢
      rw [← hpos, sub_self, lotValue_zero, add_comm f.signedQty] at hpass
      by_cases hzero : w.qty + f.signedQty = 0
      · simp only [hzero, ne_eq, not_true, if_false, lotValue_zero] at hpass ⊢
        simp only [abs_zero, mul_zero, zero_div, fillValue_zero] at hpass
        linarith
      · have hopen := open_value hmult hzero m f.price
          (f.commission * |(w.qty + f.signedQty)| / |f.signedQty|)
        simp only [ne_eq, hzero, not_false_eq_true, if_true, openCost_eq _ _ _ hzero, hopen]
        linarith
    case isFalse hstay =>
      -- the fill closes part of the position, and nothing of it is left
      rw [min_eq_left (abs_le_of_side_kept hqty hfill (not_not.mp hstay))] at hpass ⊢
      have hmove : w.qty - sign w.qty * |f.signedQty| = w.qty + f.signedQty := by linarith
      have hdone : f.signedQty + sign w.qty * |f.signedQty| = 0 := by linarith
      rw [hmove, hdone, abs_zero, mul_zero, zero_div, fillValue_zero] at hpass
      dsimp only
      linarith

/-- Only the last fill may take the position to flat or through zero: before it
    the position is on the seed's side. -/
def SeedHeld (seedQty : ℚ) (fills : List Fill) : Prop :=
  ∀ n < fills.length, sign (seedQty + netQty (fills.take n)) = sign seedQty

/-- The walk conserves as long as the seed is held. -/
theorem avgWalk_value {mult : ℚ} (hmult : mult ≠ 0) (m : ℚ) (fills : List Fill) :
    ∀ w : AvgWalk, w.seedGone = false → w.qty ≠ 0 → (∀ f ∈ fills, f.signedQty ≠ 0) →
      SeedHeld w.qty fills →
      (avgWalk mult w fills).realized +
          lotValue mult m (avgWalk mult w fills).qty (avgWalk mult w fills).avg =
        w.realized + lotValue mult m w.qty w.avg + fillsValue mult m fills := by
  induction fills with
  | nil => intro w _ _ _ _; simp
  | cons f fills ih =>
    intro w hgone hqty hne hheld
    have hstep := avgStep_value hmult m hgone hqty (hne f List.mem_cons_self)
    rw [avgWalk_cons]
    cases fills with
    | nil =>
      rw [fillsValue_cons, fillsValue_nil, add_zero, avgWalk_nil]
      exact hstep
    | cons g fills =>
      have hside : sign (w.qty + f.signedQty) = sign w.qty := by
        have := hheld 1 (by simp)
        simpa using this
      have hqty' : (avgStep mult w f).qty ≠ 0 := by
        rw [avgStep_qty]
        intro hzero
        rw [hzero, sign_zero] at hside
        exact hqty (sign_eq_zero.mp hside.symm)
      have hheld' : SeedHeld (avgStep mult w f).qty (g :: fills) := by
        intro n hn
        have := hheld (n + 1) (by simpa using hn)
        rw [List.take_succ_cons, netQty_cons, ← add_assoc] at this
        rw [avgStep_qty, this, hside]
      have hrest := ih (avgStep mult w f) (avgStep_seedGone hgone hside) hqty'
        (fun k hk => hne k (List.mem_cons_of_mem _ hk)) hheld'
      rw [fillsValue_cons]
      linarith

-- ============================================================================
-- The identity
-- ============================================================================

/-- What `_simulate_avg` returns, at a mark. -/
theorem simulateAvg_value {mult : ℚ} (hmult : mult ≠ 0) (m : ℚ) {seedQty : ℚ} (seedCost : ℚ)
    {fills : List Fill} (hseed : seedQty ≠ 0) (hne : ∀ f ∈ fills, f.signedQty ≠ 0)
    (hheld : SeedHeld seedQty fills) :
    let r := simulateAvg seedQty seedCost fills mult
    r.2.1 + mult * ((seedQty + netQty fills) * (m - r.1.getD 0)) =
      lotValue mult m seedQty seedCost + fillsValue mult m fills := by
  have hwalk := avgWalk_value hmult m fills { qty := seedQty, avg := seedCost } rfl hseed hne hheld
  have hqty := avgWalk_qty mult fills { qty := seedQty, avg := seedCost }
  rw [zero_add] at hwalk
  rw [← hwalk]
  simp only [simulateAvg]
  generalize avgWalk mult { qty := seedQty, avg := seedCost } fills = w at hqty ⊢
  by_cases hflat : w.qty = 0
  · rw [← hqty]
    simp [hflat]
  · rw [← hqty]
    simp [hflat, lotValue]

/-- The LIFO and average-cost identity.  Over every prefix of the fills the LIFO
    profit and open value change by the cash value of its fills, so a run from
    flat to flat realises its net cash; and as long as at most the last fill
    takes the seed away, they are what the average-cost walk returns. -/
theorem lifo_avg_identity {mult : ℚ} (hmult : 0 < mult) {fills : List Fill}
    (hne : ∀ f ∈ fills, f.signedQty ≠ 0) (n : ℕ) :
    (∀ (m : ℚ) (lots : List Lot),
      (runLifo mult lots (fills.take n)).1 +
            openValue mult m (runLifo mult lots (fills.take n)).2 - openValue mult m lots =
        ((fills.take n).map fun f => mult * f.signedQty * (m - f.price) - f.commission).sum) ∧
    (netQty (fills.take n) = 0 →
      (runLifo mult [] (fills.take n)).1 =
        mult * netCash (fills.take n) - commissions (fills.take n)) ∧
    (∀ (m seedQty seedCost : ℚ), seedQty ≠ 0 → SeedHeld seedQty (fills.take n) →
      let lifo := runLifo mult [{ qty := seedQty, cost := seedCost }] (fills.take n)
      let avg := simulateAvg seedQty seedCost (fills.take n) mult
      lifo.1 + openValue mult m lifo.2 =
        avg.2.1 + mult * ((seedQty + netQty (fills.take n)) * (m - avg.1.getD 0))) := by
  have hmult' : mult ≠ 0 := ne_of_gt hmult
  have hne' : ∀ f ∈ fills.take n, f.signedQty ≠ 0 :=
    fun f hf => hne f (List.mem_of_mem_take hf)
  generalize fills.take n = fills at hne'
  refine ⟨?_, ?_, ?_⟩
  · intro m lots
    have hrun := runLifo_value hmult' m fills lots hne'
    have hsum : fillsValue mult m fills =
        (fills.map fun f => mult * f.signedQty * (m - f.price) - f.commission).sum := by
      simp only [fillsValue, fillValue, lotValue, mul_assoc]
    rw [← hsum]
    linarith
  · intro hflat
    have hrun := runLifo_value hmult' 0 fills [] hne'
    dsimp only at hrun
    rw [runLifo_flat mult hflat, openValue_nil, fillsValue_eq, zero_mul] at hrun
    linarith
  · intro m seedQty seedCost hseed hheld
    have hrun := runLifo_value hmult' m fills [{ qty := seedQty, cost := seedCost }] hne'
    have havg := simulateAvg_value hmult' m seedCost hseed hne' hheld
    dsimp only at hrun havg ⊢
    rw [hrun, havg, openValue_cons, openValue_nil, add_zero]

/-- The identity at work: a long seed of 2 at 100 is reduced, added to and then
    flipped short. -/
theorem lifo_avg_identity_flip :
    let fills : List Fill :=
      [⟨"a", -1, 110, 1⟩, ⟨"b", 3, 105, 3⟩, ⟨"c", -6, 120, 6⟩]
    let lifo := runLifo 2 [{ qty := 2, cost := 100 }] (fills.take 3)
    let avg := simulateAvg 2 100 (fills.take 3) 2
    lifo.1 + openValue 2 130 lifo.2 =
      avg.2.1 + 2 * ((2 + netQty (fills.take 3)) * (130 - avg.1.getD 0)) := by
  have hheld : SeedHeld 2 ([⟨"a", -1, 110, 1⟩, ⟨"b", 3, 105, 3⟩, ⟨"c", -6, 120, 6⟩].take 3) := by
    unfold SeedHeld
    decide +kernel
  exact (lifo_avg_identity (by norm_num) (by decide +kernel) 3).2.2 130 2 100 (by norm_num) hheld

end IbTrader.Engine.LifoPnl
