/-
  IbTrader.Engine.Pricing

  Price arithmetic of the engine (`ib_trader/engine/pricing.py`,
  `ib_trader/engine/ticks.py` and the helpers of `ib_trader/engine/order.py`).  `Decimal` prices are rationals; `quantize` is
  rounding to the grid with ties to even, the default of `Decimal`.
-/

import Mathlib.Algebra.Order.Field.Basic
import Mathlib.Data.Rat.Floor
import Mathlib.Tactic.Linarith

namespace IbTrader.Engine.Pricing

-- ============================================================================
-- Rounding
-- ============================================================================

/-- `quantize(Decimal("1"))`: the nearest integer, ties to even. -/
def roundHalfEven (x : ℚ) : ℤ :=
  if x - ⌊x⌋ < 1 / 2 then ⌊x⌋
  else if 1 / 2 < x - ⌊x⌋ then ⌊x⌋ + 1
  else if ⌊x⌋ % 2 = 0 then ⌊x⌋ else ⌊x⌋ + 1

/-- `quantize(Decimal("0.01"))`. -/
def quantizeCents (x : ℚ) : ℚ := roundHalfEven (x * 100) / 100

theorem roundHalfEven_sub_le (x : ℚ) : |(roundHalfEven x : ℚ) - x| ≤ 1 / 2 := by
  have hlow := Int.floor_le x
  have hhigh := Int.lt_floor_add_one x
  unfold roundHalfEven
  split
  case isTrue h => rw [abs_le]; constructor <;> linarith
  case isFalse h =>
    split
    · rw [abs_le]; push_cast; constructor <;> linarith
    · split
      · rw [abs_le]; constructor <;> linarith
      · rw [abs_le]; push_cast; constructor <;> linarith

@[simp] theorem roundHalfEven_intCast (n : ℤ) : roundHalfEven n = n := by
  unfold roundHalfEven
  rw [Int.floor_intCast, sub_self, if_pos (by norm_num)]

theorem roundHalfEven_mono {x y : ℚ} (h : x ≤ y) : roundHalfEven x ≤ roundHalfEven y := by
  by_contra hlt
  -- both are half way between the two integers, and so equal
  have hstep : (roundHalfEven y : ℚ) + 1 ≤ roundHalfEven x := by exact_mod_cast not_le.mp hlt
  have hx := (abs_le.mp (roundHalfEven_sub_le x)).2
  have hy := (abs_le.mp (roundHalfEven_sub_le y)).1
  have hsame : x = y := by linarith
  exact hlt (le_of_eq (congrArg roundHalfEven hsame))

/-- A price in whole cents. -/
def cents (k : ℤ) : ℚ := k / 100

@[simp] theorem quantizeCents_cents (k : ℤ) : quantizeCents (cents k) = cents k := by
  unfold quantizeCents cents
  rw [div_mul_cancel₀ _ (by norm_num), roundHalfEven_intCast]

/-- A rounded price is one in whole cents. -/
theorem quantizeCents_eq_cents (x : ℚ) : quantizeCents x = cents (roundHalfEven (x * 100)) := rfl

@[simp] theorem quantizeCents_quantizeCents (x : ℚ) : quantizeCents (quantizeCents x) = quantizeCents x :=
  quantizeCents_cents _

theorem quantizeCents_mono {x y : ℚ} (h : x ≤ y) : quantizeCents x ≤ quantizeCents y := by
  have hround : (roundHalfEven (x * 100) : ℚ) ≤ roundHalfEven (y * 100) := by
    exact_mod_cast roundHalfEven_mono (by linarith)
  exact div_le_div_of_nonneg_right hround (by norm_num)

theorem quantizeCents_sub_le (x : ℚ) : |quantizeCents x - x| ≤ 1 / 200 := by
  have hround := abs_le.mp (roundHalfEven_sub_le (x * 100))
  unfold quantizeCents
  rw [abs_le]
  constructor <;> linarith

theorem cents_le_cents {j k : ℤ} : cents j ≤ cents k ↔ j ≤ k := by
  unfold cents
  rw [div_le_div_iff_of_pos_right (by norm_num : (0 : ℚ) < 100)]
  exact_mod_cast Iff.rfl

theorem cents_add (j k : ℤ) : cents (j + k) = cents j + cents k := by
  unfold cents
  push_cast
  ring

-- ============================================================================
-- Prices on the tick grid
-- ============================================================================

/-- `is_on_tick`; `none` is the `ValueError` of a tick size that is not positive. -/
def isOnTick (price tickSize : ℚ) : Option Bool :=
  if tickSize ≤ 0 then none else some (Int.fract (price / tickSize) = 0)

theorem isOnTick_iff {price tickSize : ℚ} :
    isOnTick price tickSize = some true ↔ 0 < tickSize ∧ ∃ n : ℤ, price = n * tickSize := by
  unfold isOnTick
  by_cases htick : tickSize ≤ 0
  · rw [if_pos htick]
    exact iff_of_false nofun fun h => absurd h.1 (not_lt.mpr htick)
  · have hpos : 0 < tickSize := not_le.mp htick
    rw [if_neg htick, Option.some.injEq, decide_eq_true_eq, Int.fract_eq_zero_iff, and_iff_right hpos]
    refine exists_congr fun n => ?_
    rw [eq_div_iff hpos.ne']
    exact eq_comm

/-- `_snap`: the nearest multiple of the tick size; `none` is the `ValueError` of
    a tick size that is not positive. -/
def snap (value tickSize : ℚ) : Option ℚ :=
  if tickSize ≤ 0 then none else some (roundHalfEven (value / tickSize) * tickSize)

/-- `calc_mid`. -/
def calcMid (bid ask tickSize : ℚ) : Option ℚ := snap ((bid + ask) / 2) tickSize

/-- `STK_TICK`. -/
def stkTick : ℚ := 1 / 100

/-- `calc_step_price`, from the price it walks to: the ask for a BUY, the bid for a SELL. -/
def calcStepPrice (bid ask target : ℚ) (step totalSteps : ℕ) (tickSize : ℚ) : Option ℚ :=
  if totalSteps = 0 then none
  else do
    let mid ← calcMid bid ask tickSize
    snap (mid + step / totalSteps * (target - mid)) tickSize

/-- A snapped price is on the grid. -/
theorem snap_onTick {value tickSize price : ℚ} (h : snap value tickSize = some price) :
    isOnTick price tickSize = some true := by
  unfold snap at h
  split at h
  · cases h
  case isFalse htick => exact isOnTick_iff.mpr ⟨not_le.mp htick, _, (Option.some.inj h).symm⟩

/-- Between two prices of the grid a value is snapped to one between them. -/
theorem snap_between {low high value tickSize price : ℚ} (hlow : isOnTick low tickSize = some true)
    (hhigh : isOnTick high tickSize = some true) (hle : low ≤ value) (hge : value ≤ high)
    (h : snap value tickSize = some price) : low ≤ price ∧ price ≤ high := by
  obtain ⟨htick, m, rfl⟩ := isOnTick_iff.mp hlow
  obtain ⟨-, n, rfl⟩ := isOnTick_iff.mp hhigh
  rw [snap, if_neg (not_le.mpr htick)] at h
  have hm : (m : ℤ) ≤ roundHalfEven (value / tickSize) := by
    rw [← roundHalfEven_intCast m]
    exact roundHalfEven_mono ((le_div_iff₀ htick).mpr hle)
  have hn : roundHalfEven (value / tickSize) ≤ (n : ℤ) := by
    rw [← roundHalfEven_intCast n]
    exact roundHalfEven_mono ((div_le_iff₀ htick).mpr hge)
  rw [← Option.some.inj h]
  constructor
  · exact mul_le_mul_of_nonneg_right (by exact_mod_cast hm) htick.le
  · exact mul_le_mul_of_nonneg_right (by exact_mod_cast hn) htick.le

/-- A step price is on the grid, and between the bid and the ask where they are on it. -/
theorem calcStepPrice_spec {bid ask target : ℚ} {step totalSteps : ℕ} {tickSize price : ℚ}
    (hbid : isOnTick bid tickSize = some true) (hask : isOnTick ask tickSize = some true) (hquote : bid ≤ ask)
    (htarget : target = bid ∨ target = ask) (hstep : step ≤ totalSteps)
    (h : calcStepPrice bid ask target step totalSteps tickSize = some price) :
    isOnTick price tickSize = some true ∧ bid ≤ price ∧ price ≤ ask := by
  unfold calcStepPrice at h
  split at h
  · cases h
  case isFalse htotal =>
    obtain ⟨mid, hmid, hprice⟩ := Option.bind_eq_some_iff.mp h
    have hinside : bid ≤ mid ∧ mid ≤ ask := snap_between hbid hask (by linarith) (by linarith) hmid
    have hpos : (0 : ℚ) < totalSteps := by exact_mod_cast Nat.pos_of_ne_zero htotal
    have hzero : (0 : ℚ) ≤ step / totalSteps := div_nonneg (Nat.cast_nonneg _) hpos.le
    have hone : (step / totalSteps : ℚ) ≤ 1 := (div_le_one hpos).mpr (by exact_mod_cast hstep)
    refine ⟨snap_onTick hprice, ?_⟩
    rcases htarget with rfl | rfl
    · exact snap_between hbid hask (by nlinarith) (by nlinarith) hprice
    · exact snap_between hbid hask (by nlinarith) (by nlinarith) hprice

/-- A snapped price is within half a tick of the price. -/
theorem snap_sub_le {value tickSize price : ℚ} (h : snap value tickSize = some price) :
    |price - value| ≤ tickSize / 2 := by
  unfold snap at h
  split at h
  · cases h
  case isFalse htick =>
    have htick : 0 < tickSize := not_le.mp htick
    have hround := roundHalfEven_sub_le (value / tickSize)
    cases h
    have hscale : (roundHalfEven (value / tickSize) : ℚ) * tickSize - value =
        (roundHalfEven (value / tickSize) - value / tickSize) * tickSize := by
      rw [sub_mul, div_mul_cancel₀ value htick.ne']
    rw [hscale, abs_mul, abs_of_pos htick]
    calc |(roundHalfEven (value / tickSize) : ℚ) - value / tickSize| * tickSize
        ≤ 1 / 2 * tickSize := mul_le_mul_of_nonneg_right hround htick.le
      _ = tickSize / 2 := by ring

-- ============================================================================
-- The walk from the mid to the touch
-- ============================================================================

/-- The price that a side walks to. -/
def touch (side : String) (bid ask : ℚ) : ℚ := if side = "BUY" then ask else bid

section Walk

variable {bid ask tickSize value value' price price' mid : ℚ}

theorem snap_pos (htick : 0 < tickSize) (value : ℚ) :
    snap value tickSize = some (roundHalfEven (value / tickSize) * tickSize) := if_neg (not_le.mpr htick)

theorem snap_mono (hle : value ≤ value') (h : snap value tickSize = some price)
    (h' : snap value' tickSize = some price') : price ≤ price' := by
  have htick := (isOnTick_iff.mp (snap_onTick h)).1
  rw [snap_pos htick] at h h'
  rw [← Option.some.inj h, ← Option.some.inj h']
  have hround : (roundHalfEven (value / tickSize) : ℚ) ≤ roundHalfEven (value' / tickSize) := by
    exact_mod_cast roundHalfEven_mono (div_le_div_of_nonneg_right hle htick.le)
  exact mul_le_mul_of_nonneg_right hround htick.le

/-- A price of the grid is left where it is. -/
theorem snap_of_onTick (h : isOnTick value tickSize = some true) : snap value tickSize = some value := by
  obtain ⟨htick, n, rfl⟩ := isOnTick_iff.mp h
  rw [snap_pos htick, mul_div_cancel_right₀ _ htick.ne', roundHalfEven_intCast]

/-- The point of a step between the mid and the touch, before it is snapped. -/
def walkPoint (mid target : ℚ) (totalSteps step : ℕ) : ℚ := mid + step / totalSteps * (target - mid)

@[simp] theorem walkPoint_zero (mid target : ℚ) (totalSteps : ℕ) : walkPoint mid target totalSteps 0 = mid := by
  simp [walkPoint]

theorem walkPoint_last {totalSteps : ℕ} (htotal : 1 ≤ totalSteps) (mid target : ℚ) :
    walkPoint mid target totalSteps totalSteps = target := by
  have hpos : (0 : ℚ) < totalSteps := by exact_mod_cast htotal
  rw [walkPoint, div_self hpos.ne', one_mul, add_sub_cancel]

theorem walkRatio_mono {step later : ℕ} (hle : step ≤ later) (totalSteps : ℕ) :
    (step / totalSteps : ℚ) ≤ later / totalSteps :=
  div_le_div_of_nonneg_right (by exact_mod_cast hle) (Nat.cast_nonneg totalSteps)

theorem walkPoint_mono {target : ℚ} {step later : ℕ} (hle : step ≤ later) (htarget : mid ≤ target) (totalSteps : ℕ) :
    walkPoint mid target totalSteps step ≤ walkPoint mid target totalSteps later :=
  add_le_add_right (mul_le_mul_of_nonneg_right (walkRatio_mono hle totalSteps) (sub_nonneg.mpr htarget)) mid

theorem walkPoint_anti {target : ℚ} {step later : ℕ} (hle : step ≤ later) (htarget : target ≤ mid) (totalSteps : ℕ) :
    walkPoint mid target totalSteps later ≤ walkPoint mid target totalSteps step :=
  add_le_add_right (mul_le_mul_of_nonpos_right (walkRatio_mono hle totalSteps) (sub_nonpos.mpr htarget)) mid

theorem calcStepPrice_eq {target : ℚ} {totalSteps : ℕ} (htotal : 1 ≤ totalSteps)
    (hmid : calcMid bid ask tickSize = some mid) (step : ℕ) :
    calcStepPrice bid ask target step totalSteps tickSize = snap (walkPoint mid target totalSteps step) tickSize := by
  rw [calcStepPrice, if_neg (Nat.one_le_iff_ne_zero.mp htotal), hmid]
  rfl

theorem touch_eq_or_eq (side : String) (bid ask : ℚ) : touch side bid ask = ask ∨ touch side bid ask = bid :=
  ite_eq_or_eq _ _ _

/-- The prices of a walk: on the grid and inside the quote, from the mid to the touch, and never
    away from it. -/
theorem calcStepPrice_walk (hbid : isOnTick bid tickSize = some true) (hask : isOnTick ask tickSize = some true)
    (hquote : bid ≤ ask) {totalSteps : ℕ} (htotal : 1 ≤ totalSteps) (side : String) :
    ∃ (mid : ℚ) (price : ℕ → ℚ), calcMid bid ask tickSize = some mid ∧
      (∀ step, 1 ≤ step → step ≤ totalSteps →
        calcStepPrice bid ask (touch side bid ask) step totalSteps tickSize = some (price step) ∧
          isOnTick (price step) tickSize = some true ∧ bid ≤ price step ∧ price step ≤ ask) ∧
      (∀ step later, 1 ≤ step → step ≤ later → later ≤ totalSteps →
        if side = "BUY" then mid ≤ price step ∧ price step ≤ price later
        else price step ≤ mid ∧ price later ≤ price step) ∧
      price totalSteps = touch side bid ask := by
  have htick := (isOnTick_iff.mp hbid).1
  obtain ⟨mid, hmid⟩ : ∃ mid, calcMid bid ask tickSize = some mid := ⟨_, snap_pos htick _⟩
  obtain ⟨hlow, hhigh⟩ : bid ≤ mid ∧ mid ≤ ask := snap_between hbid hask (by linarith) (by linarith) hmid
  obtain ⟨price, hprice⟩ : ∃ price : ℕ → ℚ, ∀ step,
      snap (walkPoint mid (touch side bid ask) totalSteps step) tickSize = some (price step) :=
    ⟨_, fun step => snap_pos htick _⟩
  have hstep (step : ℕ) : calcStepPrice bid ask (touch side bid ask) step totalSteps tickSize = some (price step) := by
    rw [calcStepPrice_eq htotal hmid, hprice]
  have hfirst : price 0 = mid := by
    have hzero := hprice 0
    rw [walkPoint_zero, snap_of_onTick (snap_onTick hmid)] at hzero
    exact (Option.some.inj hzero).symm
  refine ⟨mid, price, hmid, fun step _ hle => ⟨hstep step, ?_⟩, fun step later _ hle _ => ?_, ?_⟩
  · exact calcStepPrice_spec hbid hask hquote (touch_eq_or_eq side bid ask).symm hle (hstep step)
  · rw [← hfirst]
    split
    case isTrue hbuy =>
      have hup : mid ≤ touch side bid ask := by rwa [touch, if_pos hbuy]
      have hmono {step later : ℕ} (hle : step ≤ later) : price step ≤ price later :=
        snap_mono (walkPoint_mono hle hup totalSteps) (hprice step) (hprice later)
      exact ⟨hmono (Nat.zero_le step), hmono hle⟩
    case isFalse hsell =>
      have hdown : touch side bid ask ≤ mid := by rwa [touch, if_neg hsell]
      have hanti {step later : ℕ} (hle : step ≤ later) : price later ≤ price step :=
        snap_mono (walkPoint_anti hle hdown totalSteps) (hprice later) (hprice step)
      exact ⟨hanti (Nat.zero_le step), hanti hle⟩
  · -- the last point is the touch, which is on the grid
    have honTick : isOnTick (touch side bid ask) tickSize = some true := by
      rcases touch_eq_or_eq side bid ask with h | h
      · rw [h]; exact hask
      · rw [h]; exact hbid
    have hlast := hprice totalSteps
    rw [walkPoint_last htotal, snap_of_onTick honTick] at hlast
    exact (Option.some.inj hlast).symm

/-- From a quote of one tick, in two steps. -/
theorem calcStepPrice_walk_oneTick : ∃ (mid : ℚ) (price : ℕ → ℚ), calcMid 10 (41 / 4) (1 / 4) = some mid ∧
    (∀ step, 1 ≤ step → step ≤ 2 →
      calcStepPrice 10 (41 / 4) (touch "BUY" 10 (41 / 4)) step 2 (1 / 4) = some (price step) ∧
        isOnTick (price step) (1 / 4) = some true ∧ 10 ≤ price step ∧ price step ≤ 41 / 4) ∧
    (∀ step later, 1 ≤ step → step ≤ later → later ≤ 2 →
      if "BUY" = "BUY" then mid ≤ price step ∧ price step ≤ price later
      else price step ≤ mid ∧ price later ≤ price step) ∧
    price 2 = touch "BUY" 10 (41 / 4) :=
  calcStepPrice_walk (isOnTick_iff.mpr ⟨by norm_num, 40, by norm_num⟩)
    (isOnTick_iff.mpr ⟨by norm_num, 41, by norm_num⟩) (by norm_num) (by norm_num) "BUY"

end Walk

end IbTrader.Engine.Pricing
