/-
  IbTrader.Signals.SrParity

  The chart's lines and the bot's are the same where the two sorts are.

  The two detectors agree step by step (`tryLine_map`), from the pivots to the touches
  of a line, but for the order in which the candidates of a fan are tried: the bot
  orders by slope and then by age, the chart prefers the older of two candidates whose
  slopes are within EPS.  Where in no fan a younger candidate leads an older one by so
  little, the chart's comparator orders every fan as the bot's key does
  (`sort_candidates`), and the lines are the same (`detect_parity`).
-/

import Mathlib.Data.List.Pairwise
import Mathlib.Tactic.Linarith
import IbTrader.Frontend.SupportResistance
import IbTrader.Lib.Comparator

namespace IbTrader.Signals.SrFan

open Lib

-- ============================================================================
-- One line at a time
-- ============================================================================

/-- A line as the chart has it. -/
abbrev TrendLine.toSRLine (e : TrendLine) : Frontend.SRLine where
  type := e.type
  fromIdx := e.fromIdx
  anchorBIdx := e.anchorBIdx
  toIdx := e.toIdx
  slope := e.slope
  intercept := e.intercept
  touches := e.touches
  breakIdx := e.breakIdx
  thirdTouchIdx := e.thirdTouchIdx

/-- The options as the chart takes them. -/
abbrev Options.toSROptions (opts : Options) : Frontend.SROptions where
  breakStaleBars := opts.breakStaleBars
  toleranceFraction := opts.toleranceFraction
  touchToleranceFraction := opts.touchToleranceFraction
  nearTouchToleranceFraction := opts.nearTouchToleranceFraction

theorem EPS_eq : Frontend.EPS = eps := rfl

theorem findPivots_low (closes : List ℚ) :
    Frontend.findPivots closes .low = findPivotLows closes := by
  refine List.filter_congr fun i _ => ?_
  simp [close]

theorem findPivots_high (closes : List ℚ) :
    Frontend.findPivots closes .high = findPivotHighs closes := by
  refine List.filter_congr fun i _ => ?_
  simp [close]

/-- A loop's body that goes on at either of two guards, and returns at the third. -/
theorem ite_guards (A B C : Prop) [Decidable A] [Decidable B] [Decidable C] (rest : Bool) :
    (if A then rest else if B then rest else if C then true else rest) =
      (decide (¬A ∧ ¬B ∧ C) || rest) := by
  by_cases hA : A
  · simp [hA]
  · by_cases hB : B
    · simp [hB]
    · by_cases hC : C <;> simp [hA, hB, hC]

theorem crossesAny_map (slope intercept : ℚ) (fromIdx toIdx : ℕ) (others : List TrendLine) :
    Frontend.crossesAny slope intercept fromIdx toIdx (others.map TrendLine.toSRLine) =
      crossesAny slope intercept fromIdx toIdx others := by
  induction others with
  | nil => rfl
  | cons e others ih =>
    rw [List.map_cons, Frontend.crossesAny, ih, ite_guards]
    unfold crossesAny
    rw [List.any_cons]
    congr 1
    refine decide_eq_decide.mpr ?_
    rw [ge_iff_le, not_le]
    exact Iff.rfl

/-- One line of the two scans. -/
theorem scanLine_map (slope intercept : ℚ) (fromIdx toIdx : ℕ) (earliest : Option ℕ) (e : TrendLine) :
    Frontend.scanLine slope intercept fromIdx toIdx (earliest.map Nat.cast) e.toSRLine =
      (crossingStep slope intercept fromIdx toIdx earliest e).map Nat.cast := by
  unfold Frontend.scanLine
  unfold Frontend.crossingAt crossingStep
  dsimp only [TrendLine.toSRLine]
  rw [EPS_eq]
  generalize (e.intercept - intercept) / (slope - e.slope) = x
  by_cases hlo : max fromIdx e.fromIdx > min toIdx e.toIdx
  · rw [if_pos (.inl hlo), if_pos hlo]
  · rw [if_neg hlo]
    by_cases hdm : |slope - e.slope| < eps
    · rw [if_pos (.inr (.inl hdm)), if_pos hdm]
    · rw [if_neg hdm]
      by_cases hx : x < (max fromIdx e.fromIdx : ℕ) - eps ∨ x > (min toIdx e.toIdx : ℕ) + eps
      · rw [if_pos (.inr (.inr hx)), if_pos hx]
      · rw [if_neg fun h => h.elim hlo fun h => h.elim hdm hx, if_neg hx]
        by_cases hidx : (fromIdx : ℤ) ≤ ⌈x⌉ ∧ ⌈x⌉ ≤ toIdx
        · rw [if_pos hidx, if_pos hidx]
          have hcast : ((⌈x⌉.toNat : ℕ) : ℤ) = ⌈x⌉ :=
            Int.toNat_of_nonneg ((Int.natCast_nonneg fromIdx).trans hidx.1)
          cases earliest with
          | none => simp [hcast]
          | some first =>
            dsimp only [Option.map_some, Option.all_some]
            by_cases hfirst : ⌈x⌉ < first
            · rw [if_pos (decide_eq_true hfirst), if_pos hfirst, Option.map_some, hcast]
            · rw [if_neg (by simpa using hfirst), if_neg hfirst, Option.map_some]
        · rw [if_neg hidx, if_neg hidx]

theorem earliestCrossing_map (slope intercept : ℚ) (fromIdx toIdx : ℕ) (others : List TrendLine) :
    Frontend.earliestCrossing slope intercept fromIdx toIdx (others.map TrendLine.toSRLine) =
      earliestCrossing slope intercept fromIdx toIdx others := by
  have hscan : ∀ earliest : Option ℕ,
      (others.map TrendLine.toSRLine).foldl (Frontend.scanLine slope intercept fromIdx toIdx)
        (earliest.map Nat.cast) =
      (others.foldl (crossingStep slope intercept fromIdx toIdx) earliest).map Nat.cast := by
    induction others with
    | nil => intro earliest; rfl
    | cons e others ih =>
      intro earliest
      rw [List.map_cons, List.foldl_cons, List.foldl_cons, ← ih, scanLine_map]
  have hnone := hscan none
  rw [Option.map_none] at hnone
  have hcast : (fun i : ℤ => i.toNat) ∘ (Nat.cast : ℕ → ℤ) = id := funext Int.toNat_natCast
  rw [Frontend.earliestCrossing, hnone, Option.map_map, hcast, Option.map_id]
  rfl

/-- The chart's tolerances, of the bands. -/
abbrev Bands.toTolerances (b : Bands) : Frontend.Tolerances where
  tol := b.tol
  touchTol := b.touchTol
  nearTol := b.nearTouchTol

theorem tolerances_eq (closes : List ℚ) (opts : Options) :
    Frontend.tolerances closes opts.toSROptions = (bands closes opts).toTolerances := by
  have hsum : closes.foldl (fun s v => s + v) 0 = closes.sum := List.sum_eq_foldl.symm
  unfold Frontend.tolerances bands Bands.toTolerances Options.toSROptions
  dsimp only
  rw [hsum]
  congr 1
  cases opts.nearTouchToleranceFraction with
  | none => rfl
  | some near =>
    dsimp only
    by_cases hnear : opts.touchToleranceFraction < near
    · rw [if_pos hnear, Option.filter_some, if_pos (decide_eq_true hnear)]
      rfl
    · rw [if_neg hnear, Option.filter_some, if_neg (by simpa using hnear)]
      rfl

/-- The chart's touch count. -/
abbrev Touches.toTouchCount (t : Touches) : Frontend.TouchCount where
  strictTouches := t.strict
  looseTouches := t.loose
  thirdTouchIdx := t.thirdTouchIdx

theorem countTouches_eq (closes : List ℚ) (b : Bands) (q : ℕ) (slope intercept : ℚ) (pivots : List ℕ)
    (t : Touches) :
    Frontend.countTouches closes b.toTolerances q slope intercept pivots t.toTouchCount =
      (pivots.foldl (touchStep closes b q slope intercept) t).toTouchCount := by
  induction pivots generalizing t with
  | nil => rfl
  | cons piv pivots ih =>
    rw [Frontend.countTouches, List.foldl_cons, ← ih]
    congr 1
    unfold touchStep
    dsimp only [Bands.toTolerances, Touches.toTouchCount, close]
    by_cases hrange : piv < q ∨ closes.length - 1 < piv
    · rw [if_pos (by exact hrange), if_pos hrange]
    · rw [if_neg (by exact hrange), if_neg hrange]
      by_cases hstrict : |closes.getD piv 0 - (slope * piv + intercept)| ≤ b.touchTol
      · rw [if_pos hstrict, if_pos hstrict]
        simp only [and_comm]
        rfl
      · rw [if_neg hstrict, if_neg hstrict]
        obtain ⟨tol, touchTol, nearTouchTol⟩ := b
        cases nearTouchTol with
        | none => rfl
        | some near =>
          dsimp only [Option.any_some]
          by_cases hnear : |closes.getD piv 0 - (slope * piv + intercept)| ≤ near
          · rw [if_pos (decide_eq_true hnear), if_pos hnear]
          · rw [if_neg (by rw [decide_eq_true_eq]; exact hnear), if_neg hnear]

theorem wrongSide_eq (type : LineType) (tol closeV lineV : ℚ) :
    Frontend.wrongSide type tol closeV lineV = violates type tol closeV lineV := by
  cases type <;> rfl

theorem breakIndex_map (closes : List ℚ) (type : LineType) (tol : ℚ) (p : ℕ) (slope intercept : ℚ)
    (out : List TrendLine) :
    Frontend.breakIndex closes type tol p slope intercept (out.map TrendLine.toSRLine) =
      breakOf closes type tol p slope intercept out := by
  unfold Frontend.breakIndex breakOf
  dsimp only [close]
  rw [earliestCrossing_map]
  simp only [wrongSide_eq]
  cases earliestCrossing slope intercept (p + 1) (closes.length - 1) out with
  | none => rfl
  | some x =>
    cases (List.range' (p + 1) (closes.length - 1 - p)).find? fun i =>
      violates type tol (closes.getD i 0) (slope * i + intercept) with
    | none => rfl
    | some i => simp

/-- The number of touches is at least two. -/
theorem touches_eq (n : ℕ) : (if n < 2 then 2 else n) = max 2 n := by
  split
  case isTrue hlt => omega
  case isFalse hge => omega

/-- A candidate is taken or left alike. -/
theorem tryLine_map (closes : List ℚ) (pivots : List ℕ) (type : LineType) (opts : Options) (b : Bands)
    (p : ℕ) (out : List TrendLine) (c : ℕ × ℚ) :
    Frontend.tryLine closes pivots type opts.toSROptions b.toTolerances p
        (out.map TrendLine.toSRLine) c =
      (emit closes pivots type opts b p out c).map TrendLine.toSRLine := by
  obtain ⟨q, slope⟩ := c
  unfold Frontend.tryLine emit
  dsimp only
  generalize closes.getD p 0 - slope * p = intercept
  have hvalid : (!(List.range' (q + 1) (p - (q + 1))).all fun i => !Frontend.wrongSide type b.tol
        (closes.getD i 0) (slope * i + intercept)) =
      (List.range' (q + 1) (p - (q + 1))).any fun i =>
        violates type b.tol (close closes i) (slope * i + intercept) := by
    rw [List.not_all_eq_any_not]
    simp only [Bool.not_not, wrongSide_eq]
  have hcoincident : ((out.map TrendLine.toSRLine).any fun e =>
        |e.slope - slope| < Frontend.EPS ∧ |e.intercept - intercept| < Frontend.EPS) =
      out.any fun e => |e.slope - slope| < eps ∧ |e.intercept - intercept| < eps := by
    rw [List.any_map]
    rfl
  have hcount : Frontend.countTouches closes b.toTolerances q slope intercept pivots {} = _ :=
    countTouches_eq closes b q slope intercept pivots {}
  rw [hvalid, hcoincident, hcount, breakIndex_map, crossesAny_map]
  split
  case isTrue => rfl
  case isFalse =>
    split
    case isTrue => rfl
    case isFalse =>
      split
      case isTrue => rfl
      case isFalse =>
        split
        case isTrue => rfl
        case isFalse =>
          rw [List.map_append, List.map_singleton]
          rw [touches_eq]
          rfl

-- ============================================================================
-- The order of a fan
-- ============================================================================

/-- How much steeper a candidate is than another. -/
def lead (type : LineType) (c c' : ℕ × ℚ) : ℚ := if type = .support then c.2 - c'.2 else c'.2 - c.2

/-- No younger candidate leads an older one by as little as EPS. -/
def Settled (type : LineType) (cs : List (ℕ × ℚ)) : Prop :=
  ∀ c ∈ cs, ∀ c' ∈ cs, c.1 < c'.1 → ¬(0 < lead type c' c ∧ lead type c' c ≤ eps)

instance (type : LineType) (cs : List (ℕ × ℚ)) : Decidable (Settled type cs) :=
  inferInstanceAs (Decidable (∀ c ∈ cs, ∀ c' ∈ cs, _))

section Fan

variable {type : LineType} {cs : List (ℕ × ℚ)} {a b : ℕ × ℚ}

theorem compareCandidates_eq (type : LineType) (a b : ℕ × ℚ) :
    Frontend.compareCandidates type a b =
      if |lead type b a| > eps then lead type b a else (a.1 : ℚ) - b.1 := rfl

theorem lead_symm (type : LineType) (a b : ℕ × ℚ) : lead type a b = -lead type b a := by
  unfold lead
  split <;> linarith

theorem sortKey_le_iff (type : LineType) (a b : ℕ × ℚ) :
    sortKey type a ≤ sortKey type b ↔ lead type b a < 0 ∨ lead type b a = 0 ∧ a.1 ≤ b.1 := by
  unfold sortKey lead
  split
  case isTrue =>
    rw [Prod.Lex.toLex_le_toLex, neg_lt_neg_iff, neg_inj, sub_neg, sub_eq_zero, eq_comm (a := a.2)]
  case isFalse => rw [Prod.Lex.toLex_le_toLex, sub_neg, sub_eq_zero]

theorem sortKey_inj (h : sortKey type a = sortKey type b) : a = b := by
  unfold sortKey at h
  split at h
  case isTrue =>
    have hpair := Prod.mk.inj (toLex_inj.mp h)
    exact Prod.ext hpair.2 (neg_inj.mp hpair.1)
  case isFalse =>
    have hpair := Prod.mk.inj (toLex_inj.mp h)
    exact Prod.ext hpair.2 hpair.1

theorem compareCandidates_symm (type : LineType) (a b : ℕ × ℚ) :
    Frontend.compareCandidates type a b = -Frontend.compareCandidates type b a := by
  rw [compareCandidates_eq, compareCandidates_eq, lead_symm type b a, abs_neg]
  split
  case isTrue => rfl
  case isFalse => ring

/-- On a settled fan the comparator and the key agree. -/
theorem compareCandidates_le_iff (hsettled : Settled type cs)
    (hone : ∀ c ∈ cs, ∀ c' ∈ cs, c.1 = c'.1 → c = c') (ha : a ∈ cs) (hb : b ∈ cs) :
    Frontend.compareCandidates type a b ≤ 0 ↔ sortKey type a ≤ sortKey type b := by
  rw [compareCandidates_eq, sortKey_le_iff]
  have heps : 0 < eps := by norm_num [eps]
  split
  case isTrue hfar =>
    -- slopes that differ by more than EPS
    have hne : lead type b a ≠ 0 := by
      intro hzero
      rw [hzero, abs_zero] at hfar
      exact absurd hfar (not_lt.mpr heps.le)
    constructor
    · exact fun hle => .inl (lt_of_le_of_ne hle hne)
    · rintro (hlt | ⟨hzero, -⟩)
      · exact hlt.le
      · exact hzero.le
  case isFalse hnear =>
    rw [gt_iff_lt, not_lt, abs_le] at hnear
    rcases lt_trichotomy a.1 b.1 with hlt | heq | hgt
    · have hcast : (a.1 : ℚ) < b.1 := by exact_mod_cast hlt
      have hlead : lead type b a ≤ 0 := not_lt.mp fun hpos =>
        hsettled a ha b hb hlt ⟨hpos, hnear.2⟩
      refine iff_of_true (by linarith) ?_
      rcases hlead.lt_or_eq with hneg | hzero
      · exact .inl hneg
      · exact .inr ⟨hzero, hlt.le⟩
    · have hsame := hone a ha b hb heq
      subst hsame
      have hzero : lead type a a = 0 := by linarith [lead_symm type a a]
      exact iff_of_true (by linarith) (.inr ⟨hzero, le_rfl⟩)
    · have hcast : (b.1 : ℚ) < a.1 := by exact_mod_cast hgt
      have hlead : lead type a b ≤ 0 := not_lt.mp fun hpos =>
        hsettled b hb a ha hgt ⟨hpos, by linarith [lead_symm type a b]⟩
      rw [lead_symm] at hlead
      refine iff_of_false (by linarith) ?_
      rintro (hneg | ⟨-, hle⟩)
      · linarith
      · omega

theorem sortCandidates_pairwise (type : LineType) (cs : List (ℕ × ℚ)) :
    (sortCandidates type cs).Pairwise fun a b => sortKey type a ≤ sortKey type b := by
  have htotal : Std.Total fun a b : ℕ × ℚ => sortKey type a ≤ sortKey type b :=
    ⟨fun a b => le_total _ _⟩
  have htrans : IsTrans (ℕ × ℚ) fun a b => sortKey type a ≤ sortKey type b :=
    ⟨fun a b c => le_trans⟩
  exact List.pairwise_insertionSort _ cs

/-- On a settled fan every sort of the chart gives the bot's order. -/
theorem sort_candidates {sort : (ℕ × ℚ → ℕ × ℚ → ℚ) → List (ℕ × ℚ) → List (ℕ × ℚ)}
    (hsort : SortSpec sort) (hsettled : Settled type cs)
    (hone : ∀ c ∈ cs, ∀ c' ∈ cs, c.1 = c'.1 → c = c') :
    sort (Frontend.compareCandidates type) cs = sortCandidates type cs := by
  have hle := fun {a b : ℕ × ℚ} (ha : a ∈ cs) (hb : b ∈ cs) => compareCandidates_le_iff hsettled hone ha hb
  have hconsistent : Consistent (Frontend.compareCandidates type) cs := by
    refine ⟨fun a _ => ?_, fun a _ b _ => ?_, fun a ha b hb c hc hab hbc => ?_⟩
    · linarith [compareCandidates_symm type a a]
    · rw [compareCandidates_symm type a b, neg_lt_zero]
    · exact (hle ha hc).mpr (((hle ha hb).mp hab).trans ((hle hb hc).mp hbc))
  have hperm : (sortCandidates type cs).Perm cs := List.perm_insertionSort _ cs
  refine hsort.eq_of_sorted hconsistent (fun a ha b hb hab hba => ?_) hperm ?_
  · exact sortKey_inj (le_antisymm ((hle ha hb).mp hab) ((hle hb ha).mp hba))
  · refine (sortCandidates_pairwise type cs).imp_of_mem fun ha hb hab => ?_
    exact (hle (hperm.mem_iff.mp ha) (hperm.mem_iff.mp hb)).mpr hab

/-- On any other fan some sort of the chart gives another order. -/
theorem settled_of_sorts
    (h : ∀ sort : (ℕ × ℚ → ℕ × ℚ → ℚ) → List (ℕ × ℚ) → List (ℕ × ℚ), SortSpec sort →
      sort (Frontend.compareCandidates type) cs = sortCandidates type cs) : Settled type cs := by
  classical
  rintro c hc c' hc' hlt ⟨hpos, hnear⟩
  have hne : c ≠ c' := by
    rintro rfl
    exact lt_irrefl _ hlt
  have hmem : ∀ {x}, x ∈ cs → x ∈ sortCandidates type cs :=
    fun hx => (List.perm_insertionSort _ cs).mem_iff.mpr hx
  -- the key has the younger first, the comparator the older
  have hkey : ¬sortKey type c ≤ sortKey type c' := by
    rw [sortKey_le_iff]
    rintro (hneg | ⟨hzero, -⟩) <;> linarith
  have hcmp : ¬Frontend.compareCandidates type c' c ≤ 0 := by
    have hcast : (c.1 : ℚ) < c'.1 := by exact_mod_cast hlt
    rw [compareCandidates_eq, lead_symm, abs_neg, abs_of_pos hpos, if_neg (not_lt.mpr hnear)]
    linarith
  -- two elements of the sorted list are related in one direction or the other
  have hrelated : ∀ {R : ℕ × ℚ → ℕ × ℚ → Prop}, (sortCandidates type cs).Pairwise R →
      R c c' ∨ R c' c := by
    intro R hR
    have hsymm : Std.Symm fun a b => R a b ∨ R b a := ⟨fun _ _ hab => hab.symm⟩
    have heither : (sortCandidates type cs).Pairwise fun a b => R a b ∨ R b a := hR.imp .inl
    exact heither.forall (hmem hc) (hmem hc') hne
  have hsorted := sortCandidates_pairwise type cs
  let sort : (ℕ × ℚ → ℕ × ℚ → ℚ) → List (ℕ × ℚ) → List (ℕ × ℚ) := fun f xs =>
    if Consistent f xs then xs.insertionSort fun a b => f a b ≤ 0 else (sortCandidates type xs).reverse
  have hspec : SortSpec sort := by
    refine ⟨fun f xs => ?_, fun f xs hf => ?_⟩
    · by_cases hf : Consistent f xs
      · simp only [sort, if_pos hf]
        exact List.perm_insertionSort _ xs
      · simp only [sort, if_neg hf]
        exact (List.reverse_perm _).trans (List.perm_insertionSort _ xs)
    · simp only [sort, if_pos hf]
      exact insertionSort_spec.sorted f xs hf
  have hsame := h sort hspec
  by_cases hf : Consistent (Frontend.compareCandidates type) cs
  · have hboth := hsorted.and (hsame ▸ hspec.sorted _ cs hf)
    rcases hrelated hboth with hcc' | hc'c
    · exact hkey hcc'.1
    · exact hcmp hc'c.2
  · have hreverse : (sortCandidates type cs).reverse = sortCandidates type cs := by
      simpa only [sort, if_neg hf] using hsame
    have hback := List.pairwise_reverse.mp (hreverse ▸ hsorted)
    rcases hrelated (hsorted.and hback) with hcc' | hc'c
    · exact hkey hcc'.1
    · exact hkey hc'c.2

end Fan

-- ============================================================================
-- All lines
-- ============================================================================

/-- Every fan of the pivots, given from the newest to the oldest, is settled. -/
def SettledFans (closes : List ℚ) (type : LineType) : List ℕ → Prop
  | [] => True
  | p :: older => Settled type (candidates closes p older) ∧ SettledFans closes type older

instance (closes : List ℚ) (type : LineType) : (pivots : List ℕ) →
    Decidable (SettledFans closes type pivots)
  | [] => .isTrue trivial
  | _ :: older =>
    have := instDecidableSettledFans closes type older
    inferInstanceAs (Decidable (_ ∧ _))

section Parity

variable {sort : (ℕ × ℚ → ℕ × ℚ → ℚ) → List (ℕ × ℚ) → List (ℕ × ℚ)} {closes : List ℚ}
  {type : LineType} {opts : Options}

theorem candidates_inj (closes : List ℚ) (p : ℕ) (older : List ℕ) :
    ∀ c ∈ candidates closes p older, ∀ c' ∈ candidates closes p older, c.1 = c'.1 → c = c' := by
  intro c hc c' hc' heq
  obtain ⟨q, -, rfl⟩ := List.mem_map.mp hc
  obtain ⟨q', -, rfl⟩ := List.mem_map.mp hc'
  cases heq
  rfl

theorem walkPivots_map (hsort : SortSpec sort) (opts : Options) (pivots : List ℕ) (b : Bands) :
    ∀ (ps : List ℕ) (out : List TrendLine), SettledFans closes type ps →
      Frontend.walkPivots sort closes pivots type opts.toSROptions b.toTolerances ps
          (out.map TrendLine.toSRLine) =
        (fans closes pivots type opts b ps out).map TrendLine.toSRLine := by
  intro ps
  induction ps with
  | nil => intro out _; rfl
  | cons p older ih =>
    intro out hsettled
    have hfold : ∀ (cs : List (ℕ × ℚ)) (out : List TrendLine),
        cs.foldl (Frontend.tryLine closes pivots type opts.toSROptions b.toTolerances p)
          (out.map TrendLine.toSRLine) =
        (cs.foldl (emit closes pivots type opts b p) out).map TrendLine.toSRLine := by
      intro cs
      induction cs with
      | nil => intro out; rfl
      | cons c cs ih => intro out; rw [List.foldl_cons, List.foldl_cons, tryLine_map, ih]
    rw [Frontend.walkPivots, fans, ← ih _ hsettled.2, ← hfold,
      ← sort_candidates hsort hsettled.1 (candidates_inj closes p older)]
    rfl

/-- Fewer than two pivots have no lines. -/
theorem fans_of_short (pivots : List ℕ) (b : Bands) {ps : List ℕ} (h : ps.length < 2) :
    fans closes pivots type opts b ps [] = [] := by
  match ps with
  | [] => rfl
  | [_] => rfl

theorem detectOneSide_map (hsort : SortSpec sort) {pivots : List ℕ} (hlong : 3 ≤ closes.length)
    (hsettled : SettledFans closes type pivots.reverse) :
    Frontend.detectOneSide sort closes pivots type opts.toSROptions =
      (detectOneSide closes pivots type opts).map TrendLine.toSRLine := by
  have hwalk := walkPivots_map hsort opts pivots (bands closes opts) pivots.reverse [] hsettled
  rw [Frontend.detectOneSide, tolerances_eq, detectOneSide]
  refine hwalk.trans ?_
  split
  case isTrue hshort =>
    rw [fans_of_short pivots _ (by rw [List.length_reverse]; omega)]
  case isFalse => rfl

end Parity

/-- The two detectors return the same lines where no fan has a younger candidate that
    leads an older one by as little as EPS. -/
theorem detect_parity (sort : (ℕ × ℚ → ℕ × ℚ → ℚ) → List (ℕ × ℚ) → List (ℕ × ℚ))
    (hsort : SortSpec sort) (closes : List ℚ) (opts : Options)
    (hlows : SettledFans closes .support (findPivotLows closes).reverse)
    (hhighs : SettledFans closes .resistance (findPivotHighs closes).reverse) :
    Frontend.detectSupportResistance sort closes opts.toSROptions =
      (detectSupportResistance closes opts).map TrendLine.toSRLine := by
  unfold Frontend.detectSupportResistance detectSupportResistance
  split
  case isTrue => rfl
  case isFalse hlong =>
    rw [findPivots_low, findPivots_high, List.map_append, detectOneSide_map hsort (by omega) hlows,
      detectOneSide_map hsort (by omega) hhighs]

/-- A rising series of lows and of highs. -/
def channel : List ℚ := [101, 100, 102, 101, 103, 102, 104]

theorem detect_parity_channel :
    Frontend.detectSupportResistance (fun cmp => List.insertionSort fun a b => cmp a b ≤ 0) channel
        (Options.toSROptions {}) =
      (detectSupportResistance channel {}).map TrendLine.toSRLine :=
  detect_parity _ insertionSort_spec channel {} (by decide +kernel) (by decide +kernel)

/-- Three lows, the younger of the older two lower by less than EPS. -/
def nearTie : List ℚ := [101, 100, 101, 100 - 1 / 5000000, 101, 100, 101]

/-- The bot keeps the line from the younger low, the chart the one from the older. -/
theorem detect_parity_fails :
    ¬∀ sort : (ℕ × ℚ → ℕ × ℚ → ℚ) → List (ℕ × ℚ) → List (ℕ × ℚ), SortSpec sort →
      ∀ closes opts, Frontend.detectSupportResistance sort closes opts.toSROptions =
        (detectSupportResistance closes opts).map TrendLine.toSRLine := by
  intro h
  have hsame := h _ insertionSort_spec nearTie {}
  revert hsame
  decide +kernel

end IbTrader.Signals.SrFan
