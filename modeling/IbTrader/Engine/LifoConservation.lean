/-
  IbTrader.Engine.LifoConservation

  LIFO matching conserves value: realised profit plus the value at a mark of the
  open lots changes by what the fills bring in.

  `match_pass` is one turn of the loop, `matchLots_value` the loop and
  `runLifo_value` the run over the fills.  The lots of a run lie on one side, so
  a run from flat to flat leaves none (`runLifo_flat`).
-/

import Mathlib.Algebra.Order.Ring.Abs
import Mathlib.Tactic.LinearCombination
import IbTrader.Engine.LifoPnl

namespace IbTrader.Engine.LifoPnl

open Lib.Inventory

-- ============================================================================
-- Signs
-- ============================================================================

theorem sign_of_pos {x : ℚ} (h : 0 < x) : sign x = 1 := by
  simp [sign, h, not_lt.mpr h.le]

theorem sign_of_neg {x : ℚ} (h : x < 0) : sign x = -1 := by
  simp [sign, h, not_lt.mpr h.le]

@[simp] theorem sign_zero : sign 0 = 0 := by simp [sign]

theorem sign_mul_abs (x : ℚ) : sign x * |x| = x := by
  rcases lt_trichotomy x 0 with h | rfl | h
  · rw [sign_of_neg h, abs_of_neg h]; ring
  · simp
  · rw [sign_of_pos h, abs_of_pos h]; ring

theorem abs_eq_sign_mul (x : ℚ) : |x| = sign x * x := by
  rcases lt_trichotomy x 0 with h | rfl | h
  · rw [sign_of_neg h, abs_of_neg h]; ring
  · simp
  · rw [sign_of_pos h, abs_of_pos h]; ring

@[simp] theorem sign_eq_zero {x : ℚ} : sign x = 0 ↔ x = 0 := by
  constructor
  · intro h
    have := sign_mul_abs x
    rw [h, zero_mul] at this
    exact this.symm
  · rintro rfl
    exact sign_zero

/-- A number that is not zero has a unit sign. -/
theorem sign_mul_self {x : ℚ} (h : x ≠ 0) : sign x * sign x = 1 := by
  rcases lt_or_gt_of_ne h with h | h
  · rw [sign_of_neg h]; norm_num
  · rw [sign_of_pos h]; norm_num

theorem sign_mul_of_nonneg {d y : ℚ} (hd : d * d = 1) (hy : 0 < y) : sign (d * y) = d := by
  have hfac : (d - 1) * (d + 1) = 0 := by ring_nf; rw [pow_two, hd]; ring
  rcases mul_eq_zero.mp hfac with h | h
  · have : d = 1 := by linarith
    subst this
    rw [one_mul, sign_of_pos hy]
  · have : d = -1 := by linarith
    subst this
    rw [neg_one_mul, sign_of_neg (by linarith)]

/-- The opening commission in a lot's cost, without absolute values: direction
    over size is one over the signed quantity. -/
theorem openCost_eq (price comm mult : ℚ) {qty : ℚ} (h : qty ≠ 0) :
    openCost price comm qty mult (sign qty) = price + comm / (qty * mult) := by
  have hs := sign_mul_self h
  have hsne : sign qty ≠ 0 := by simpa using h
  have habs : |qty| ≠ 0 := by simpa using h
  have hqty : sign qty * qty = |qty| := (abs_eq_sign_mul qty).symm
  unfold openCost
  by_cases hm : mult = 0
  · simp [hm]
  · congr 1
    rw [div_eq_div_iff (mul_ne_zero habs hm) (mul_ne_zero h hm), ← hqty]
    ring

-- ============================================================================
-- Open positions
-- ============================================================================

/-- Value at the mark `m` of the open lots. -/
def openValue (mult m : ℚ) (lots : List Lot) : ℚ :=
  (lots.map fun l => lotValue mult m l.qty l.cost).sum

@[simp] theorem openValue_nil (mult m : ℚ) : openValue mult m [] = 0 := rfl

@[simp] theorem openValue_cons (mult m : ℚ) (l : Lot) (lots : List Lot) :
    openValue mult m (l :: lots) = lotValue mult m l.qty l.cost + openValue mult m lots := rfl

/-- `LifoResult.open_qty`. -/
def openQty (lots : List Lot) : ℚ := (lots.map Lot.qty).sum

@[simp] theorem openQty_nil : openQty [] = 0 := rfl

@[simp] theorem openQty_cons (l : Lot) (lots : List Lot) :
    openQty (l :: lots) = l.qty + openQty lots := rfl

/-- Net quantity of the fills. -/
def netQty (fills : List Fill) : ℚ := (fills.map Fill.signedQty).sum

@[simp] theorem netQty_nil : netQty [] = 0 := rfl

@[simp] theorem netQty_cons (f : Fill) (fills : List Fill) :
    netQty (f :: fills) = f.signedQty + netQty fills := rfl

/-- What the fills bring in at the mark `m`, net of their commissions. -/
def fillsValue (mult m : ℚ) (fills : List Fill) : ℚ :=
  (fills.map fun f => fillValue mult m f.signedQty f.price f.commission).sum

@[simp] theorem fillsValue_nil (mult m : ℚ) : fillsValue mult m [] = 0 := rfl

@[simp] theorem fillsValue_cons (mult m : ℚ) (f : Fill) (fills : List Fill) :
    fillsValue mult m (f :: fills) =
      fillValue mult m f.signedQty f.price f.commission + fillsValue mult m fills := rfl

-- ============================================================================
-- LIFO
-- ============================================================================

/-- What a match leaves of the fill is smaller by the matched quantity. -/
theorem abs_remaining {rem qty matched : ℚ} (hopp : sign qty = -sign rem)
    (hle : matched ≤ |rem|) (hrem : rem ≠ 0) :
    |(rem + sign qty * matched)| = |rem| - matched := by
  have hunit : |sign rem| = 1 := by
    rcases lt_or_gt_of_ne hrem with h | h
    · rw [sign_of_neg h]; norm_num
    · rw [sign_of_pos h]; norm_num
  have hfac : rem + sign qty * matched = sign rem * (|rem| - matched) := by
    rw [hopp, mul_sub, sign_mul_abs]
    ring
  rw [hfac, abs_mul, hunit, one_mul, abs_of_nonneg (sub_nonneg.mpr hle)]

/-- One pass of the loop moves the matched quantity from the fill and the newest
    lot into the profit. -/
theorem match_pass (mult m price cost comm total : ℚ) {rem qty matched : ℚ}
    (hsplit : |(rem + sign qty * matched)| = |rem| - matched) :
    ((price - cost) * matched * mult * sign qty - comm * matched / total) +
        lotValue mult m (qty - sign qty * matched) cost +
        fillValue mult m (rem + sign qty * matched) price
          (comm * |(rem + sign qty * matched)| / total) =
      lotValue mult m qty cost + fillValue mult m rem price (comm * |rem| / total) := by
  have hclose := close_value mult m qty cost (-(sign qty * matched)) price
    (comm * matched / total)
  have hadd := fillValue_add mult m (-(sign qty * matched)) (rem + sign qty * matched) price
    (comm * matched / total) (comm * |(rem + sign qty * matched)| / total)
  have hqty : -(sign qty * matched) + (rem + sign qty * matched) = rem := by ring
  have hcomm : comm * matched / total + comm * |(rem + sign qty * matched)| / total =
      comm * |rem| / total := by
    rw [hsplit]
    ring
  rw [hqty, hcomm] at hadd
  rw [← sub_eq_add_neg] at hclose
  linear_combination hclose - hadd

/-- The loop conserves realised profit, open value and the value of what is left
    of the fill with its share of the commission. -/
theorem matchLots_value (mult m price comm total : ℚ) (lots : List Lot) :
    ∀ (rem : ℚ) (realized : Option ℚ),
      let r := matchLots price comm mult total rem realized lots
      r.2.1.getD 0 + openValue mult m r.2.2 +
          fillValue mult m r.1 price (comm * |r.1| / total) =
        realized.getD 0 + openValue mult m lots +
          fillValue mult m rem price (comm * |rem| / total) := by
  induction lots with
  | nil => intro rem realized; rfl
  | cons top rest ih =>
    intro rem realized
    rw [matchLots]
    split
    case isFalse => rfl
    case isTrue hmatch =>
      obtain ⟨hrem, hopp⟩ := hmatch
      have hsplit := abs_remaining hopp (min_le_left |rem| |top.qty|) hrem
      have hpass := match_pass mult m price top.cost comm total hsplit
      dsimp only
      split
      case isTrue hzero =>
        rw [hzero, lotValue_zero] at hpass
        rw [ih, openValue_cons, Option.getD_some]
        linarith
      case isFalse =>
        rw [openValue_cons, openValue_cons, Option.getD_some]
        linarith

/-- One fill conserves. -/
theorem realizeLifo_value {mult : ℚ} (hmult : mult ≠ 0) (m price comm : ℚ) (lots : List Lot)
    {sq : ℚ} (hsq : sq ≠ 0) :
    let r := realizeLifo lots sq price comm mult
    r.1.getD 0 + openValue mult m r.2 =
      openValue mult m lots + fillValue mult m sq price comm := by
  have htotal : |sq| ≠ 0 := by simpa using hsq
  have hloop := matchLots_value mult m price comm |sq| lots sq none
  rw [mul_div_assoc comm |sq|, div_self htotal, mul_one] at hloop
  simp only [Option.getD_none, zero_add] at hloop
  simp only [realizeLifo]
  rw [← hloop]
  generalize matchLots price comm mult |sq| sq none lots = r
  by_cases hrem : r.1 = 0
  · simp [hrem]
  · have hopen := open_value hmult hrem m price (comm * |r.1| / |sq|)
    simp only [ne_eq, hrem, not_false_eq_true, if_true, openValue_cons,
      openCost_eq _ _ _ hrem, hopen]
    ring

/-- A run conserves: realised profit plus open value changes by what the fills
    bring in. -/
theorem runLifo_value {mult : ℚ} (hmult : mult ≠ 0) (m : ℚ) (fills : List Fill) :
    ∀ lots : List Lot, (∀ f ∈ fills, f.signedQty ≠ 0) →
      let r := runLifo mult lots fills
      r.1 + openValue mult m r.2 = openValue mult m lots + fillsValue mult m fills := by
  induction fills with
  | nil => intro lots _; simp [runLifo]
  | cons f fills ih =>
    intro lots hne
    have hstep := realizeLifo_value hmult m f.price f.commission lots
      (hne f List.mem_cons_self)
    have hrest := ih (realizeLifo lots f.signedQty f.price f.commission mult).2
      (fun g hg => hne g (List.mem_cons_of_mem _ hg))
    simp only [runLifo, fillsValue_cons] at hstep hrest ⊢
    linarith

-- ============================================================================
-- Flat positions
-- ============================================================================

theorem matchLots_qty (price comm mult total : ℚ) (lots : List Lot) :
    ∀ (rem : ℚ) (realized : Option ℚ),
      let r := matchLots price comm mult total rem realized lots
      r.1 + openQty r.2.2 = rem + openQty lots := by
  induction lots with
  | nil => intro rem realized; rfl
  | cons top rest ih =>
    intro rem realized
    rw [matchLots]
    split
    case isFalse => rfl
    case isTrue hmatch =>
      dsimp only
      split
      case isTrue hzero =>
        rw [ih, openQty_cons]
        linarith
      case isFalse =>
        rw [openQty_cons, openQty_cons]
        ring

theorem realizeLifo_qty (lots : List Lot) (sq price comm mult : ℚ) :
    openQty (realizeLifo lots sq price comm mult).2 = openQty lots + sq := by
  have hloop := matchLots_qty price comm mult |sq| lots sq none
  simp only [realizeLifo]
  revert hloop
  generalize matchLots price comm mult |sq| sq none lots = r
  intro (hloop : r.1 + openQty r.2.2 = sq + openQty lots)
  by_cases hrem : r.1 = 0
  · rw [hrem, zero_add] at hloop
    simp [hrem, hloop, add_comm]
  · simp [hrem, hloop, add_comm]

theorem runLifo_qty (mult : ℚ) (fills : List Fill) :
    ∀ lots : List Lot, openQty (runLifo mult lots fills).2 = openQty lots + netQty fills := by
  induction fills with
  | nil => intro lots; simp [runLifo]
  | cons f fills ih =>
    intro lots
    simp only [runLifo, ih, realizeLifo_qty, netQty_cons]
    ring

/-- Every lot is on the side `d`. -/
def OneSided (d : ℚ) (lots : List Lot) : Prop := ∀ l ∈ lots, sign l.qty = d

theorem OneSided.of_nil (d : ℚ) : OneSided d [] := by simp [OneSided]

theorem OneSided.cons {d : ℚ} {l : Lot} {lots : List Lot} (hl : sign l.qty = d)
    (h : OneSided d lots) : OneSided d (l :: lots) := by
  intro k hk
  rcases List.mem_cons.mp hk with rfl | hk
  · exact hl
  · exact h k hk

theorem OneSided.tail {d : ℚ} {l : Lot} {lots : List Lot} (h : OneSided d (l :: lots)) :
    OneSided d lots := fun k hk => h k (List.mem_cons_of_mem _ hk)

/-- The loop leaves lots on the side they were on, and leaves a remainder only
    when it used the lots up or was on their side to begin with. -/
theorem matchLots_oneSided (price comm mult total : ℚ) {d : ℚ} (hd : d * d = 1)
    (lots : List Lot) :
    ∀ (rem : ℚ) (realized : Option ℚ), OneSided d lots →
      let r := matchLots price comm mult total rem realized lots
      OneSided d r.2.2 ∧ (r.1 = 0 ∨ r.2.2 = [] ∨ sign r.1 = d) := by
  induction lots with
  | nil => intro rem realized h; exact ⟨h, .inr (.inl rfl)⟩
  | cons top rest ih =>
    intro rem realized hside
    have htop : sign top.qty = d := hside top List.mem_cons_self
    rw [matchLots]
    split
    case isFalse hstop =>
      refine ⟨hside, ?_⟩
      by_cases hrem : rem = 0
      · exact .inl hrem
      · right; right
        have hne : d ≠ -sign rem := fun h => hstop ⟨hrem, htop.trans h⟩
        have hsq : sign rem * sign rem = d * d := by rw [hd, sign_mul_self hrem]
        rcases mul_self_eq_mul_self_iff.mp hsq with h | h
        · exact h
        · exact absurd (by rw [h, neg_neg]) hne
    case isTrue hmatch =>
      obtain ⟨hrem, hopp⟩ := hmatch
      dsimp only
      split
      case isTrue => exact ih _ _ hside.tail
      case isFalse hleft =>
        rw [htop] at hleft hopp ⊢
        have hqty : top.qty = d * |top.qty| := by rw [← htop, sign_mul_abs]
        have hrem' : rem = -(d * |rem|) := by rw [hopp, neg_mul, neg_neg, sign_mul_abs]
        -- the lot outlasts the fill, so the fill is the smaller of the two
        have hlt : |rem| < |top.qty| := by
          by_contra hge
          rw [min_eq_right (not_lt.mp hge), sub_eq_zero] at hleft
          exact hleft hqty
        rw [min_eq_left hlt.le]
        refine ⟨OneSided.cons ?_ hside.tail, .inl ?_⟩
        · have : top.qty - d * |rem| = d * (|top.qty| - |rem|) := by
            rw [mul_sub, ← hqty]
          show sign (top.qty - d * |rem|) = d
          rw [this]
          exact sign_mul_of_nonneg hd (sub_pos.mpr hlt)
        · linarith

/-- One fill leaves the lots on one side. -/
theorem realizeLifo_oneSided (price comm mult : ℚ) {d sq : ℚ} (hd : d * d = 1)
    {lots : List Lot} (h : OneSided d lots) :
    ∃ d', d' * d' = 1 ∧ OneSided d' (realizeLifo lots sq price comm mult).2 := by
  have hloop := matchLots_oneSided price comm mult |sq| hd lots sq none h
  simp only [realizeLifo]
  revert hloop
  generalize matchLots price comm mult |sq| sq none lots = r
  intro hloop
  obtain ⟨hside, hexit⟩ := hloop
  by_cases hrem : r.1 = 0
  · exact ⟨d, hd, by simpa [hrem] using hside⟩
  · simp only [ne_eq, hrem, not_false_eq_true, if_true]
    rcases hexit with h0 | hnil | hsame
    · exact absurd h0 hrem
    · refine ⟨sign r.1, sign_mul_self hrem, OneSided.cons rfl ?_⟩
      rw [hnil]
      exact OneSided.of_nil _
    · exact ⟨d, hd, OneSided.cons hsame hside⟩

theorem runLifo_oneSided (mult : ℚ) (fills : List Fill) :
    ∀ {d : ℚ} {lots : List Lot}, d * d = 1 → OneSided d lots →
      ∃ d', d' * d' = 1 ∧ OneSided d' (runLifo mult lots fills).2 := by
  induction fills with
  | nil => intro d lots hd h; exact ⟨d, hd, h⟩
  | cons f fills ih =>
    intro d lots hd h
    obtain ⟨d', hd', h'⟩ := realizeLifo_oneSided f.price f.commission mult hd h
    exact ih hd' h'

theorem OneSided.openQty_nonneg {d : ℚ} {lots : List Lot} :
    OneSided d lots → 0 ≤ d * openQty lots := by
  induction lots with
  | nil => intro _; simp
  | cons l lots ih =>
    intro h
    have hl : d * l.qty = |l.qty| := by rw [abs_eq_sign_mul, h l List.mem_cons_self]
    have hrest := ih h.tail
    rw [openQty_cons, mul_add, hl]
    exact add_nonneg (abs_nonneg _) hrest

/-- Lots on one side that sum to zero are no lots. -/
theorem OneSided.eq_nil {d : ℚ} (hd : d * d = 1) {lots : List Lot} (h : OneSided d lots)
    (hflat : openQty lots = 0) : lots = [] := by
  cases lots with
  | nil => rfl
  | cons l lots =>
    have hl : sign l.qty = d := h l List.mem_cons_self
    have habs : d * l.qty = |l.qty| := by rw [abs_eq_sign_mul, hl]
    have hrest := h.tail.openQty_nonneg
    have hsum : d * l.qty + d * openQty lots = 0 := by
      rw [← mul_add, ← openQty_cons, hflat, mul_zero]
    have hzero : l.qty = 0 := by
      rw [habs] at hsum
      exact abs_eq_zero.mp (le_antisymm (by linarith) (abs_nonneg _))
    rw [hzero, sign_zero] at hl
    rw [← hl] at hd
    norm_num at hd

/-- A run from flat to flat leaves no lots. -/
theorem runLifo_flat (mult : ℚ) {fills : List Fill} (hflat : netQty fills = 0) :
    (runLifo mult [] fills).2 = [] := by
  obtain ⟨d, hd, hside⟩ := runLifo_oneSided mult fills (one_mul 1) (OneSided.of_nil 1)
  refine hside.eq_nil hd ?_
  rw [runLifo_qty, hflat]
  simp

/-- Net cash of the fills: what the sells bring in less what the buys cost. -/
def netCash (fills : List Fill) : ℚ := -(fills.map fun f => f.signedQty * f.price).sum

/-- Commission of the fills. -/
def commissions (fills : List Fill) : ℚ := (fills.map Fill.commission).sum

/-- The fills' value at a mark: the mark on their net quantity, their cash, less
    their commissions. -/
theorem fillsValue_eq (mult m : ℚ) (fills : List Fill) :
    fillsValue mult m fills =
      mult * (m * netQty fills + netCash fills) - commissions fills := by
  induction fills with
  | nil => simp [netCash, commissions]
  | cons f fills ih =>
    simp only [fillsValue_cons, netQty_cons, ih, netCash, commissions, List.map_cons,
      List.sum_cons, fillValue, lotValue]
    ring

end IbTrader.Engine.LifoPnl
