/-
  IbTrader.Engine.SeedCost

  Back-solving the cost of the position that was held before the oldest known fill
  (`ib_trader/engine/lifo_pnl.py`, `_solve_seed_cost` and `_compute_one`).

  IB's numbers are affine in the cost of the seed: along the fills, the walks from
  all seed costs have the same quantities, averages that differ by a positive
  multiple of the difference in cost as long as the seed is held, and realised
  profits that differ by a multiple that is not zero once the seed is gone
  (`Affine`, kept by every step).  Two runs, from cost 0 and cost 1, therefore give
  the line, and IB's number the point on it.
-/

import Mathlib.Data.List.AList
import Mathlib.Data.List.Sort
import Mathlib.Tactic.FieldSimp
import IbTrader.Engine.LifoIdentity

namespace IbTrader.Engine.LifoPnl

-- ============================================================================
-- Solving for the cost
-- ============================================================================

/-- The loop of `_solve_seed_cost` over the fills that close the seed: IB's profit
    on them, up to the one that takes the position to flat or through zero. -/
def closingTotal (ibRealized : String → Option ℚ) : ℚ → ℚ → List Fill → Option ℚ
  | target, _, [] => some target
  | target, qty, f :: fills =>
    if qty ≠ 0 ∧ sign f.signedQty ≠ sign qty then
      match ibRealized f.execId with
      | none => none
      | some pnl =>
        if sign (qty + f.signedQty) ≠ sign qty then some (target + pnl)
        else closingTotal ibRealized (target + pnl) (qty + f.signedQty) fills
    else closingTotal ibRealized target (qty + f.signedQty) fills

/-- `_solve_seed_cost`: the cost, or why there is none. -/
def solveSeedCost (seedQty : ℚ) (fills : List Fill) (multiplier : ℚ) (ibAvgNow : Option ℚ)
    (ibRealized : String → Option ℚ) : Except String ℚ :=
  let r₀ := simulateAvg seedQty 0 fills multiplier
  let r₁ := simulateAvg seedQty 1 fills multiplier
  if r₀.2.2 = false then
    match ibAvgNow, r₀.1, r₁.1 with
    | some now, some avg₀, some avg₁ =>
      if avg₁ = avg₀ then .error "no_ib_avg_cost" else .ok ((now - avg₀) / (avg₁ - avg₀))
    | _, _, _ => .error "no_ib_avg_cost"
  else
    match closingTotal ibRealized 0 seedQty fills with
    | none => .error "ib_realized_missing"
    | some target =>
      if r₁.2.1 = r₀.2.1 then .error "degenerate_seed"
      else .ok ((target - r₀.2.1) / (r₁.2.1 - r₀.2.1))

-- ============================================================================
-- One contract
-- ============================================================================

/-- An execution row of the contract; the texts of its numbers as the numbers they
    denote. -/
structure ExecRow where
  execId : String := ""
  execTime : ℚ
  side : String := ""
  shares : Option ℚ := none
  price : Option ℚ := none
  commission : Option ℚ := none
  realizedPnl : Option ℚ := none
  multiplier : Option ℚ := none
  deriving DecidableEq, Repr

/-- The position held now. -/
structure HeldPosition where
  quantity : Option ℚ := none
  avgCost : Option ℚ := none
  multiplier : Option ℚ := none
  deriving DecidableEq, Repr

inductive LifoMethod where
  | lifo
  | avg
  deriving DecidableEq, Repr

/-- `LifoResult`. -/
structure LifoResult where
  method : LifoMethod
  reason : Option String := none
  realizedByExec : AList (fun _ : String => ℚ) := ∅
  lots : List Lot := []

section ComputeOne

variable (upper : String → String)

/-- `_signed_qty`; `upper` is the text in upper case. -/
def signedQty (r : ExecRow) : Option ℚ :=
  match r.shares with
  | none => none
  | some shares =>
    if shares ≤ 0 then none
    else if upper r.side ∈ ["BOT", "BUY", "B"] then some shares
    else if upper r.side ∈ ["SLD", "SELL", "S"] then some (-shares)
    else none

/-- The fill of a row, where the row has all of it. -/
def fillOf (r : ExecRow) : Option Fill :=
  match signedQty upper r, r.price with
  | some sq, some price => some ⟨r.execId, sq, price, r.commission.getD 0⟩
  | _, _ => none

/-- The order of the rows: by time, then by execution id. -/
def rowLe (a b : ExecRow) : Bool :=
  a.execTime < b.execTime ∨ a.execTime = b.execTime ∧ a.execId ≤ b.execId

/-- `ib_realized`: the last row of an execution id decides. -/
def ibRealizedOf (rows : List ExecRow) (execId : String) : Option ℚ :=
  (rows.reverse.find? (·.execId = execId)).bind (·.realizedPnl)

/-- The loop of `_compute_one` over `realize_lifo`. -/
def realizeAll (multiplier : ℚ) :
    AList (fun _ : String => ℚ) → List Lot → List Fill → AList (fun _ : String => ℚ) × List Lot
  | realized, lots, [] => (realized, lots)
  | realized, lots, f :: fills =>
    let r := realizeLifo lots f.signedQty f.price f.commission multiplier
    realizeAll multiplier (r.1.elim realized (realized.insert f.execId ·)) r.2 fills

/-- `_SEED_SANITY_RATIO`. -/
def seedSanityRatio : ℚ := 1 / 2

/-- The seed cost is too far from the first fill's price. -/
def implausible (seedCost : ℚ) (fills : List Fill) : Bool :=
  (fills.head?.map (·.price)).any fun first =>
    first ≠ 0 ∧ seedSanityRatio < |seedCost - first| / first

/-- `LifoResult(method="avg", reason=...)`. -/
def fallBack (reason : String) : LifoResult := { method := .avg, reason := some reason }

/-- `_compute_one`. -/
def computeOne (rows : List ExecRow) (position : Option HeldPosition) : LifoResult :=
  let pos := position.getD {}
  match ((rows.filterMap (·.multiplier)).find? (· ≠ 0)).or pos.multiplier with
  | none => fallBack "unknown_multiplier"
  | some mult =>
    if mult ≤ 0 then fallBack "unknown_multiplier"
    else
      let rows := rows.mergeSort rowLe
      match rows.mapM (fillOf upper) with
      | none => fallBack "incomplete_fill"
      | some fills =>
        let seedQty := pos.quantity.getD 0 - netQty fills
        let lifo (lots : List Lot) : LifoResult :=
          let r := realizeAll mult ∅ lots fills
          { method := .lifo, realizedByExec := r.1, lots := r.2 }
        if seedQty = 0 then lifo []
        else
          match solveSeedCost seedQty fills mult pos.avgCost (ibRealizedOf rows) with
          | .error reason => fallBack reason
          | .ok seedCost =>
            if implausible seedCost fills then fallBack "seed_cost_implausible"
            else lifo [{ qty := seedQty, cost := seedCost }]

end ComputeOne

-- ============================================================================
-- Steps of the walk
-- ============================================================================

section Steps

variable (mult : ℚ) {w : AvgWalk} {f : Fill}

/-- What the average-cost rule realises on a fill that closes. -/
def closingProfit (mult : ℚ) (w : AvgWalk) (f : Fill) : ℚ :=
  (f.price - w.avg) * min |f.signedQty| |w.qty| * mult * sign w.qty
    - f.commission * min |f.signedQty| |w.qty| / |f.signedQty|

theorem avgStep_of_add (h : w.qty = 0 ∨ sign f.signedQty = sign w.qty) :
    avgStep mult w f =
      { w with
        qty := w.qty + f.signedQty
        avg := if w.qty = 0 then openCost f.price f.commission f.signedQty mult (sign f.signedQty)
               else (|w.qty| * w.avg + |f.signedQty| *
                 openCost f.price f.commission f.signedQty mult (sign f.signedQty)) /
                   |w.qty + f.signedQty| } := by
  rw [avgStep, if_pos h]

/-- A step realises profit on a fill against the position, until the seed is gone. -/
theorem avgStep_realized (h : ¬(w.qty = 0 ∨ sign f.signedQty = sign w.qty)) :
    (avgStep mult w f).realized =
      if w.seedGone then w.realized else w.realized + closingProfit mult w f := by
  rw [avgStep, if_neg h]
  dsimp only
  split <;> rfl

/-- The seed is gone when the position leaves its side. -/
theorem avgStep_gone (h : ¬(w.qty = 0 ∨ sign f.signedQty = sign w.qty)) :
    (avgStep mult w f).seedGone =
      (w.seedGone || decide (sign (w.qty + f.signedQty) ≠ sign w.qty)) := by
  rw [avgStep, if_neg h]
  dsimp only
  split
  case isTrue hside => simp [hside]
  case isFalse hside => simp [hside]

theorem avgStep_avg (h : ¬(w.qty = 0 ∨ sign f.signedQty = sign w.qty))
    (hside : sign (w.qty + f.signedQty) = sign w.qty) : (avgStep mult w f).avg = w.avg := by
  rw [avgStep, if_neg h]
  simp [hside]

theorem avgStep_of_gone (hgone : w.seedGone = true) :
    (avgStep mult w f).seedGone = true ∧ (avgStep mult w f).realized = w.realized := by
  by_cases h : w.qty = 0 ∨ sign f.signedQty = sign w.qty
  · rw [avgStep_of_add mult h]
    exact ⟨hgone, rfl⟩
  · rw [avgStep_gone mult h, avgStep_realized mult h, hgone]
    exact ⟨rfl, rfl⟩

/-- Once the seed is gone nothing more is counted. -/
theorem avgWalk_of_gone (fills : List Fill) :
    ∀ {w : AvgWalk}, w.seedGone = true →
      (avgWalk mult w fills).seedGone = true ∧ (avgWalk mult w fills).realized = w.realized := by
  induction fills with
  | nil => intro w hgone; exact ⟨hgone, rfl⟩
  | cons f fills ih =>
    intro w hgone
    obtain ⟨hstep, hrealized⟩ := avgStep_of_gone mult hgone
    rw [avgWalk_cons, ← hrealized]
    exact ih hstep

end Steps

-- ============================================================================
-- Affine in the cost of the seed
-- ============================================================================

/-- The walks from all seed costs `c`, on the side `d`, after the same fills. -/
structure Affine (d : ℚ) (w : ℚ → AvgWalk) (a r : ℚ) : Prop where
  qty : ∀ c, (w c).qty = (w 0).qty
  gone : ∀ c, (w c).seedGone = (w 0).seedGone
  realized : ∀ c, (w c).realized = (w 0).realized + r * c
  profit : d * r ≤ 0
  held : (w 0).seedGone = false → (∀ c, (w c).avg = (w 0).avg + a * c) ∧ 0 < a ∧
    sign (w 0).qty = d
  closed : (w 0).seedGone = true → d * r < 0

section Affine

variable {mult d a r : ℚ} {w : ℚ → AvgWalk}

theorem Affine.ofSeed {seedQty : ℚ} :
    Affine (sign seedQty) (fun c => { qty := seedQty, avg := c }) 1 0 where
  qty _ := rfl
  gone _ := rfl
  realized c := by simp
  profit := by simp
  held _ := ⟨fun c => by simp, one_pos, rfl⟩
  closed h := by cases h

theorem Affine.step_of_gone (h : Affine d w a r) (hgone : (w 0).seedGone = true) (f : Fill) :
    Affine d (fun c => avgStep mult (w c) f) a r where
  qty c := by rw [avgStep_qty, avgStep_qty, h.qty]
  gone c := by
    rw [(avgStep_of_gone mult hgone).1, (avgStep_of_gone mult ((h.gone c).trans hgone)).1]
  realized c := by
    rw [(avgStep_of_gone mult hgone).2, (avgStep_of_gone mult ((h.gone c).trans hgone)).2, h.realized]
  profit := h.profit
  held hheld := by
    rw [(avgStep_of_gone mult hgone).1] at hheld
    cases hheld
  closed _ := h.closed hgone

/-- Adding scales the slope of the average down. -/
theorem Affine.step_of_add (mult : ℚ) (h : Affine d w a r) (hd : d * d = 1) (hgone : (w 0).seedGone = false)
    {f : Fill} (hsq : f.signedQty ≠ 0) (hside : sign f.signedQty = sign (w 0).qty) :
    ∃ a', Affine d (fun c => avgStep mult (w c) f) a' r := by
  obtain ⟨havg, ha, hq⟩ := h.held hgone
  have hqty : (w 0).qty ≠ 0 := by
    intro hzero
    rw [hzero, sign_zero] at hq
    rw [← hq] at hd
    norm_num at hd
  have hadd : ∀ c, (w c).qty = 0 ∨ sign f.signedQty = sign (w c).qty :=
    fun c => .inr (by rw [h.qty]; exact hside)
  have hsum : (w 0).qty + f.signedQty = d * (|(w 0).qty| + |f.signedQty|) := by
    have hfirst : d * |(w 0).qty| = (w 0).qty := by rw [← hq, sign_mul_abs]
    have hsecond : d * |f.signedQty| = f.signedQty := by rw [← hq, ← hside, sign_mul_abs]
    rw [mul_add, hfirst, hsecond]
  have hpos : 0 < |(w 0).qty| + |f.signedQty| :=
    add_pos (abs_pos.mpr hqty) (abs_pos.mpr hsq)
  have hnew : sign ((w 0).qty + f.signedQty) = d := by
    rw [hsum]
    exact sign_mul_of_nonneg hd hpos
  have hne : (w 0).qty + f.signedQty ≠ 0 := by
    rintro hzero
    rw [hzero, sign_zero] at hnew
    rw [← hnew] at hd
    norm_num at hd
  refine ⟨|(w 0).qty| * a / |(w 0).qty + f.signedQty|, ?_⟩
  constructor
  case qty => intro c; rw [avgStep_qty, avgStep_qty, h.qty]
  case gone => intro c; rw [avgStep_of_add mult (hadd c), avgStep_of_add mult (hadd 0)]; exact h.gone c
  case realized =>
    intro c
    rw [avgStep_of_add mult (hadd c), avgStep_of_add mult (hadd 0)]
    exact h.realized c
  case profit => exact h.profit
  case held =>
    intro _
    refine ⟨fun c => ?_, div_pos (mul_pos (abs_pos.mpr hqty) ha) (abs_pos.mpr hne), ?_⟩
    · rw [avgStep_of_add mult (hadd c), avgStep_of_add mult (hadd 0)]
      simp only [h.qty c, havg c, if_neg hqty]
      ring
    · rw [avgStep_qty]
      exact hnew
  case closed =>
    intro hclosed
    rw [avgStep_of_add mult (hadd 0)] at hclosed
    rw [hgone] at hclosed
    cases hclosed

/-- Closing moves the slope of the profit against the side of the seed. -/
theorem Affine.step_of_close (h : Affine d w a r) (hd : d * d = 1) (hmult : 0 < mult)
    (hgone : (w 0).seedGone = false) {f : Fill} (hsq : f.signedQty ≠ 0)
    (hside : sign f.signedQty ≠ sign (w 0).qty) :
    ∃ r', Affine d (fun c => avgStep mult (w c) f) a r' := by
  obtain ⟨havg, ha, hq⟩ := h.held hgone
  have hqty : (w 0).qty ≠ 0 := by
    intro hzero
    rw [hzero, sign_zero] at hq
    rw [← hq] at hd
    norm_num at hd
  have hclose : ∀ c, ¬((w c).qty = 0 ∨ sign f.signedQty = sign (w c).qty) := by
    intro c
    rw [h.qty, not_or]
    exact ⟨hqty, hside⟩
  have hmin : 0 < min |f.signedQty| |(w 0).qty| := lt_min (abs_pos.mpr hsq) (abs_pos.mpr hqty)
  have hslope : d * (r - a * min |f.signedQty| |(w 0).qty| * mult * d) < 0 := by
    have hpos : 0 < a * min |f.signedQty| |(w 0).qty| * mult := mul_pos (mul_pos ha hmin) hmult
    have hexpand : d * (r - a * min |f.signedQty| |(w 0).qty| * mult * d) =
        d * r - a * min |f.signedQty| |(w 0).qty| * mult * (d * d) := by ring
    rw [hexpand, hd, mul_one]
    linarith [h.profit]
  refine ⟨r - a * min |f.signedQty| |(w 0).qty| * mult * d, ?_⟩
  constructor
  case qty => intro c; rw [avgStep_qty, avgStep_qty, h.qty]
  case gone => intro c; rw [avgStep_gone mult (hclose c), avgStep_gone mult (hclose 0), h.gone, h.qty]
  case realized =>
    intro c
    rw [avgStep_realized mult (hclose c), avgStep_realized mult (hclose 0), h.gone c, hgone]
    simp only [Bool.false_eq_true, if_false, closingProfit, h.qty c, havg c, h.realized c, hq]
    ring
  case profit => exact hslope.le
  case held =>
    intro hheld
    rw [avgStep_gone mult (hclose 0), hgone, Bool.false_or, decide_eq_false_iff_not, not_not] at hheld
    refine ⟨fun c => ?_, ha, ?_⟩
    · rw [avgStep_avg mult (hclose c) (by rw [h.qty]; exact hheld), avgStep_avg mult (hclose 0) hheld, havg]
    · rw [avgStep_qty, hheld, hq]
  case closed => exact fun _ => hslope

/-- A step keeps the walks affine. -/
theorem Affine.step (h : Affine d w a r) (hd : d * d = 1) (hmult : 0 < mult) {f : Fill}
    (hsq : f.signedQty ≠ 0) : ∃ a' r', Affine d (fun c => avgStep mult (w c) f) a' r' := by
  cases hgone : (w 0).seedGone with
  | true => exact ⟨a, r, h.step_of_gone hgone f⟩
  | false =>
    by_cases hside : sign f.signedQty = sign (w 0).qty
    · obtain ⟨a', ha'⟩ := h.step_of_add mult hd hgone hsq hside
      exact ⟨a', r, ha'⟩
    · obtain ⟨r', hr'⟩ := h.step_of_close hd hmult hgone hsq hside
      exact ⟨a, r', hr'⟩

theorem Affine.walk (hd : d * d = 1) (hmult : 0 < mult) (fills : List Fill) :
    ∀ {w : ℚ → AvgWalk} {a r : ℚ}, Affine d w a r → (∀ f ∈ fills, f.signedQty ≠ 0) →
      ∃ a' r', Affine d (fun c => avgWalk mult (w c) fills) a' r' := by
  induction fills with
  | nil => intro w a r h _; exact ⟨a, r, h⟩
  | cons f fills ih =>
    intro w a r h hne
    obtain ⟨a', r', hstep⟩ := h.step hd hmult (hne f List.mem_cons_self)
    exact ih hstep fun g hg => hne g (List.mem_cons_of_mem f hg)

end Affine

-- ============================================================================
-- IB's profit on the fills that close the seed
-- ============================================================================

/-- IB reports, on every fill that closes the seed, what the average-cost rule
    gives for the walk. -/
def ReportsClosing (mult : ℚ) (ibRealized : String → Option ℚ) (w : AvgWalk) (fills : List Fill) :
    Prop :=
  ∀ before f after, fills = before ++ f :: after →
    (avgWalk mult w before).seedGone = false →
    sign f.signedQty ≠ sign (avgWalk mult w before).qty →
    ibRealized f.execId = some (closingProfit mult (avgWalk mult w before) f)

theorem ReportsClosing.tail {mult : ℚ} {ibRealized : String → Option ℚ} {w : AvgWalk} {f : Fill}
    {fills : List Fill} (h : ReportsClosing mult ibRealized w (f :: fills)) :
    ReportsClosing mult ibRealized (avgStep mult w f) fills := fun before g after hsplit =>
  h (f :: before) g after (by rw [hsplit]; rfl)

/-- Added up they are what the walk realises until the seed is gone. -/
theorem closingTotal_eq {mult : ℚ} {ibRealized : String → Option ℚ} (fills : List Fill) :
    ∀ {w : AvgWalk}, w.seedGone = false → w.qty ≠ 0 → (∀ f ∈ fills, f.signedQty ≠ 0) →
      ReportsClosing mult ibRealized w fills → (avgWalk mult w fills).seedGone = true →
      closingTotal ibRealized w.realized w.qty fills = some (avgWalk mult w fills).realized := by
  induction fills with
  | nil =>
    intro w hheld _ _ _ hgone
    rw [avgWalk_nil, hheld] at hgone
    cases hgone
  | cons f fills ih =>
    intro w hheld hqty hne hreports hgone
    have hrest : ∀ g ∈ fills, g.signedQty ≠ 0 := fun g hg => hne g (List.mem_cons_of_mem f hg)
    have hstays : sign (w.qty + f.signedQty) = sign w.qty → (avgStep mult w f).qty ≠ 0 := by
      intro hside hzero
      rw [avgStep_qty] at hzero
      rw [hzero, sign_zero] at hside
      exact hqty (sign_eq_zero.mp hside.symm)
    rw [avgWalk_cons] at hgone ⊢
    unfold closingTotal
    by_cases hside : sign f.signedQty = sign w.qty
    · -- an addition: nothing is realised
      have hsum : w.qty + f.signedQty = sign w.qty * (|w.qty| + |f.signedQty|) := by
        rw [mul_add, sign_mul_abs, ← hside, sign_mul_abs]
      have hnew : sign (w.qty + f.signedQty) = sign w.qty := by
        rw [hsum]
        exact sign_mul_of_nonneg (sign_mul_self hqty)
          (add_pos (abs_pos.mpr hqty) (abs_pos.mpr (hne f List.mem_cons_self)))
      have hadd : avgStep mult w f = _ := avgStep_of_add mult (.inr hside)
      have hrealized : (avgStep mult w f).realized = w.realized := by rw [hadd]
      have htotal := ih (avgStep_seedGone hheld hnew) (hstays hnew) hrest hreports.tail hgone
      rw [if_neg (fun h => h.2 hside)]
      rw [hrealized, avgStep_qty] at htotal
      exact htotal
    · have hclose : ¬(w.qty = 0 ∨ sign f.signedQty = sign w.qty) := by
        rw [not_or]
        exact ⟨hqty, hside⟩
      have hrealized := avgStep_realized mult hclose
      rw [hheld, if_neg Bool.false_ne_true] at hrealized
      rw [if_pos ⟨hqty, hside⟩, hreports [] f fills rfl hheld hside]
      dsimp only [avgWalk_nil]
      by_cases hkept : sign (w.qty + f.signedQty) = sign w.qty
      · have htotal := ih (avgStep_seedGone hheld hkept) (hstays hkept) hrest hreports.tail hgone
        rw [if_neg (not_not.mpr hkept)]
        rw [hrealized, avgStep_qty] at htotal
        exact htotal
      · -- the fill that takes the seed away is the last that counts
        have hlast : (avgStep mult w f).seedGone = true := by
          rw [avgStep_gone mult hclose]
          simp [hkept]
        rw [if_pos hkept, (avgWalk_of_gone mult fills hlast).2, hrealized]

/-- `_solve_seed_cost` finds the seed's cost from IB's average, as long as the seed
    is held, and from IB's profit on the fills that closed it, once it is gone. -/
theorem solveSeedCost_eq {mult seedQty c : ℚ} (hmult : 0 < mult) (hseed : seedQty ≠ 0)
    {fills : List Fill} (hne : ∀ f ∈ fills, f.signedQty ≠ 0) (ibAvgNow : Option ℚ)
    (ibRealized : String → Option ℚ)
    (hib : (simulateAvg seedQty c fills mult).2.2 = false ∧
        ibAvgNow = (simulateAvg seedQty c fills mult).1 ∨
      (simulateAvg seedQty c fills mult).2.2 = true ∧
        ReportsClosing mult ibRealized { qty := seedQty, avg := c } fills) :
    solveSeedCost seedQty fills mult ibAvgNow ibRealized = .ok c := by
  have hd := sign_mul_self hseed
  obtain ⟨a, r, h⟩ := Affine.ofSeed.walk hd hmult fills hne
  have hgone : (simulateAvg seedQty c fills mult).2.2 =
      (simulateAvg seedQty 0 fills mult).2.2 := h.gone c
  rcases hib with ⟨hheld, hnow⟩ | ⟨hclosed, hreports⟩
  · have hheld₀ := hgone.symm.trans hheld
    obtain ⟨havg, ha, hside⟩ := h.held hheld₀
    have hqty : ∀ x, (avgWalk mult { qty := seedQty, avg := x } fills).qty ≠ 0 := by
      intro x hzero
      rw [← h.qty x, hzero, sign_zero] at hside
      exact hseed (sign_eq_zero.mp hside.symm)
    have hfinal : ∀ x, (simulateAvg seedQty x fills mult).1 =
        some (avgWalk mult { qty := seedQty, avg := x } fills).avg := fun x => if_pos (hqty x)
    have hne₁ : (avgWalk mult { qty := seedQty, avg := 1 } fills).avg ≠
        (avgWalk mult { qty := seedQty, avg := 0 } fills).avg := by
      rw [havg 1, mul_one]
      intro heq
      linarith
    unfold solveSeedCost
    dsimp only
    rw [if_pos hheld₀, hnow, hfinal, hfinal, hfinal]
    dsimp only
    rw [if_neg hne₁, havg c, havg 1, mul_one, add_sub_cancel_left, add_sub_cancel_left,
      mul_div_cancel_left₀ c ha.ne']
  · have hclosed₀ := hgone.symm.trans hclosed
    have htotal : closingTotal ibRealized 0 seedQty fills =
        some (simulateAvg seedQty c fills mult).2.1 :=
      closingTotal_eq (w := { qty := seedQty, avg := c }) fills rfl hseed hne hreports hclosed
    have hr : r ≠ 0 := by
      rintro rfl
      exact absurd (h.closed hclosed₀) (by simp)
    have hc : (simulateAvg seedQty c fills mult).2.1 =
        (simulateAvg seedQty 0 fills mult).2.1 + r * c := h.realized c
    have h₁ : (simulateAvg seedQty 1 fills mult).2.1 =
        (simulateAvg seedQty 0 fills mult).2.1 + r * 1 := h.realized 1
    have hne₁ : (simulateAvg seedQty 1 fills mult).2.1 ≠
        (simulateAvg seedQty 0 fills mult).2.1 := by
      rw [h₁, mul_one]
      intro heq
      exact hr (by linarith)
    have hnot : ¬(simulateAvg seedQty 0 fills mult).2.2 = false := by simp [hclosed₀]
    unfold solveSeedCost
    dsimp only
    rw [if_neg hnot, htotal]
    dsimp only
    rw [if_neg hne₁, hc, h₁, mul_one, add_sub_cancel_left, add_sub_cancel_left,
      mul_div_cancel_left₀ c hr]

-- ============================================================================
-- The lots of a result
-- ============================================================================

theorem realizeAll_lots (mult : ℚ) (fills : List Fill) :
    ∀ (realized : AList (fun _ : String => ℚ)) (lots : List Lot),
      (realizeAll mult realized lots fills).2 = (runLifo mult lots fills).2 := by
  induction fills with
  | nil => intro realized lots; rfl
  | cons f fills ih =>
    intro realized lots
    exact ih _ _

section Result

variable {upper : String → String} {rows : List ExecRow} {position : Option HeldPosition}

/-- The fills of some rows. -/
def fillsOf (upper : String → String) (rows : List ExecRow) : List Fill := rows.filterMap (fillOf upper)

theorem fillsOf_of_mapM {fills : List Fill} (h : rows.mapM (fillOf upper) = some fills) :
    fills = fillsOf upper rows ∧ ∀ r ∈ rows, (fillOf upper r).isSome := by
  induction rows generalizing fills with
  | nil => exact ⟨(Option.some.inj h).symm, fun _ hr => absurd hr List.not_mem_nil⟩
  | cons r rows ih =>
    rw [List.mapM_cons] at h
    obtain ⟨f, hf, h⟩ := Option.bind_eq_some_iff.mp h
    obtain ⟨rest, hrest, h⟩ := Option.bind_eq_some_iff.mp h
    obtain ⟨rfl, hcomplete⟩ := ih hrest
    refine ⟨?_, fun r' hr' => ?_⟩
    · rw [← Option.some.inj h, fillsOf, fillsOf, List.filterMap_cons, hf]
    · rcases List.mem_cons.mp hr' with rfl | hr'
      · exact Option.isSome_iff_exists.mpr ⟨f, hf⟩
      · exact hcomplete r' hr'

/-- The contract's multiplier: that of the first row with one, or the position's. -/
def contractMultiplier (rows : List ExecRow) (position : Option HeldPosition) : Option ℚ :=
  ((rows.filterMap (·.multiplier)).find? (· ≠ 0)).or (position.getD {}).multiplier

/-- The lots held before the first fill: what the fills leave open of the position, at the
    cost that IB's figures give. -/
def seedLots (upper : String → String) (mult : ℚ) (rows : List ExecRow) (position : Option HeldPosition) : List Lot :=
  let fills := fillsOf upper (rows.mergeSort rowLe)
  let seedQty := (position.getD {}).quantity.getD 0 - netQty fills
  if seedQty = 0 then []
  else
    match solveSeedCost seedQty fills mult (position.getD {}).avgCost (ibRealizedOf (rows.mergeSort rowLe)) with
    | .ok seedCost => [{ qty := seedQty, cost := seedCost }]
    | .error _ => []

/-- The rows lack nothing, and are matched from a seed that makes them end in what is held. -/
structure Matched (upper : String → String) (rows : List ExecRow) (position : Option HeldPosition) (mult : ℚ)
    (seed : List Lot) : Prop where
  multiplier : contractMultiplier rows position = some mult
  seeded : seed = seedLots upper mult rows position
  positive : 0 < mult
  complete : ∀ r ∈ rows, (fillOf upper r).isSome
  sided : ∃ d, d * d = 1 ∧ OneSided d seed
  held : openQty seed + netQty (fillsOf upper rows) = (position.bind (·.quantity)).getD 0
  realized : (computeOne upper rows position).realizedByExec =
    (realizeAll mult ∅ seed (fillsOf upper (rows.mergeSort rowLe))).1
  lots : (computeOne upper rows position).lots = (runLifo mult seed (fillsOf upper (rows.mergeSort rowLe))).2

theorem netQty_sorted : netQty (fillsOf upper (rows.mergeSort rowLe)) = netQty (fillsOf upper rows) :=
  (((List.mergeSort_perm rows rowLe).filterMap (fillOf upper)).map Fill.signedQty).sum_eq

/-- What a LIFO result comes from. -/
theorem computeOne_lifo (h : (computeOne upper rows position).method = .lifo) :
    ∃ mult seed, Matched upper rows position mult seed := by
  have hquantity : ((position.getD {}).quantity).getD 0 = (position.bind (·.quantity)).getD 0 := by
    cases position <;> rfl
  have hperm := List.mergeSort_perm rows rowLe
  -- each branch that does not fall back tells where its result comes from
  suffices hresult : ∃ mult seed, contractMultiplier rows position = some mult ∧
      seed = seedLots upper mult rows position ∧ 0 < mult ∧ (∀ r ∈ rows.mergeSort rowLe, (fillOf upper r).isSome) ∧
      (∃ d, d * d = 1 ∧ OneSided d seed) ∧
      openQty seed = ((position.getD {}).quantity).getD 0 - netQty (fillsOf upper (rows.mergeSort rowLe)) ∧
      (computeOne upper rows position).realizedByExec =
        (realizeAll mult ∅ seed (fillsOf upper (rows.mergeSort rowLe))).1 ∧
      (computeOne upper rows position).lots = (realizeAll mult ∅ seed (fillsOf upper (rows.mergeSort rowLe))).2 by
    obtain ⟨mult, seed, hmult, hseed, hpositive, hcomplete, hsided, hqty, hrealized, hlots⟩ := hresult
    exact ⟨mult, seed,
      { multiplier := hmult
        seeded := hseed
        positive := hpositive
        complete := fun r hr => hcomplete r (hperm.mem_iff.mpr hr)
        sided := hsided
        held := by rw [hqty, netQty_sorted, sub_add_cancel, hquantity]
        realized := hrealized
        lots := hlots.trans (realizeAll_lots _ _ _ _) }⟩
  revert h
  unfold computeOne
  dsimp only
  split
  case h_1 => intro h; cases h
  case h_2 mult hmult =>
    split
    case isTrue => intro h; cases h
    case isFalse hpositive =>
      split
      case h_1 => intro h; cases h
      case h_2 fills hfills =>
        obtain ⟨rfl, hcomplete⟩ := fillsOf_of_mapM hfills
        split
        case isTrue hseed =>
          refine fun _ => ⟨mult, [], hmult, ?_, not_le.mp hpositive, hcomplete, ⟨1, one_mul 1, OneSided.of_nil 1⟩,
            hseed.symm, rfl, rfl⟩
          rw [seedLots, if_pos hseed]
        case isFalse hseed =>
          split
          case h_1 => intro h; cases h
          case h_2 seedCost hcost =>
            split
            case isTrue => intro h; cases h
            case isFalse =>
              refine fun _ => ⟨mult, _, hmult, ?_, not_le.mp hpositive, hcomplete,
                ⟨_, sign_mul_self hseed, OneSided.cons rfl (OneSided.of_nil _)⟩, add_zero _, rfl, rfl⟩
              rw [seedLots, if_neg hseed, hcost]

end Result

/-- A LIFO result has the lots of a run over the fills, from the seed that makes the
    fills end in the position. -/
theorem computeOne_lots {upper : String → String} {rows : List ExecRow}
    {position : Option HeldPosition} (h : (computeOne upper rows position).method = .lifo) :
    ∃ mult fills seed, (computeOne upper rows position).lots = (runLifo mult seed fills).2 ∧
      (∃ d, d * d = 1 ∧ OneSided d seed) ∧
      openQty seed + netQty fills = (position.bind (·.quantity)).getD 0 := by
  obtain ⟨mult, seed, hmatched⟩ := computeOne_lifo h
  exact ⟨mult, _, seed, hmatched.lots, hmatched.sided, by rw [netQty_sorted, hmatched.held]⟩

/-- The remaining lots lie on one side, none is empty, and they add up to the
    position. -/
theorem computeOne_lots_oneSided {upper : String → String} {rows : List ExecRow}
    {position : Option HeldPosition} (h : (computeOne upper rows position).method = .lifo) :
    (∀ l ∈ (computeOne upper rows position).lots, l.qty ≠ 0) ∧
    (∃ d, ∀ l ∈ (computeOne upper rows position).lots, sign l.qty = d) ∧
    openQty (computeOne upper rows position).lots = (position.bind (·.quantity)).getD 0 := by
  obtain ⟨mult, fills, seed, hlots, ⟨d, hd, hside⟩, hqty⟩ := computeOne_lots h
  obtain ⟨d', hd', hside'⟩ := runLifo_oneSided mult fills hd hside
  rw [hlots]
  refine ⟨fun l hl hzero => ?_, ⟨d', hside'⟩, ?_⟩
  · have hsign := hside' l hl
    rw [hzero, sign_zero] at hsign
    rw [← hsign] at hd'
    norm_num at hd'
  · rw [runLifo_qty, hqty]

/-- The seed cost is solved exactly, and what a LIFO result leaves open is the
    position.  IB's numbers come from the true cost `c`: its average while the seed is
    held, its profit on the closing fills once the seed is gone. -/
theorem seedCost_exact {mult seedQty c : ℚ} (hmult : 0 < mult) (hseed : seedQty ≠ 0)
    {fills : List Fill} (hne : ∀ f ∈ fills, f.signedQty ≠ 0) (ibAvgNow : Option ℚ)
    (ibRealized : String → Option ℚ)
    (hib : (simulateAvg seedQty c fills mult).2.2 = false ∧
        ibAvgNow = (simulateAvg seedQty c fills mult).1 ∨
      (simulateAvg seedQty c fills mult).2.2 = true ∧
        ReportsClosing mult ibRealized { qty := seedQty, avg := c } fills) :
    solveSeedCost seedQty fills mult ibAvgNow ibRealized = .ok c ∧
    ∀ (upper : String → String) (rows : List ExecRow) (position : Option HeldPosition),
      (computeOne upper rows position).method = .lifo →
        (∀ l ∈ (computeOne upper rows position).lots, l.qty ≠ 0) ∧
        (∃ d, ∀ l ∈ (computeOne upper rows position).lots, sign l.qty = d) ∧
        openQty (computeOne upper rows position).lots = (position.bind (·.quantity)).getD 0 :=
  ⟨solveSeedCost_eq hmult hseed hne ibAvgNow ibRealized hib, fun _ _ _ => computeOne_lots_oneSided⟩

/-- A long seed of 2 is reduced and added to. -/
def addedTo : List Fill := [⟨"a", -1, 110, 1⟩, ⟨"b", 3, 105, 3⟩]

theorem seedCost_exact_held :
    solveSeedCost 2 addedTo 2 (simulateAvg 2 100 addedTo 2).1 (fun _ => none) = .ok 100 :=
  (seedCost_exact (by norm_num) (by norm_num) (by decide +kernel) _ _
    (.inl ⟨by decide +kernel, rfl⟩)).1

end IbTrader.Engine.LifoPnl
