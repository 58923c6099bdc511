/-
  IbTrader.Signals.SrLines

  What is true of every line that `_detect_one_side` returns, and of every two of them.

  A line is emitted against the lines that are there already, so what it has to do with
  them is a relation to the list before it (`Emitted`), which each candidate either keeps
  or leaves the list as it is (`emit_cases`).  Its break is the least of two sets of bars:
  those whose close is beyond it, and the crossings with earlier lines, rounded up
  (`leastOf_breakOf`).
-/

import Mathlib.Algebra.Order.Field.Basic
import Mathlib.Tactic.Linarith
import IbTrader.Lib.Growing
import IbTrader.Lib.Least
import IbTrader.Signals.SrFan

namespace IbTrader.Signals.SrFan

open Lib

-- ============================================================================
-- Lines over a series
-- ============================================================================

/-- `value_at`, at any place. -/
def TrendLine.valueAt (l : TrendLine) (x : ℚ) : ℚ := l.slope * x + l.intercept

/-- The last bar. -/
def lastBar (closes : List ℚ) : ℕ := closes.length - 1

/-- The close of the bar is beyond the line by more than the tolerance. -/
def Beyond (closes : List ℚ) (type : LineType) (tol : ℚ) (l : TrendLine) (i : ℕ) : Prop :=
  violates type tol (close closes i) (l.valueAt i) = true

/-- Two lines that are not as good as parallel meet. -/
structure Meet (l e : TrendLine) (x : ℚ) : Prop where
  apart : eps ≤ |l.slope - e.slope|
  meets : l.valueAt x = e.valueAt x

/-- The line meets an earlier one where that is drawn and after P, up to the tolerance,
    and the bar that this is rounded up to is one of the series. -/
structure Crosses (closes : List ℚ) (l e : TrendLine) (x : ℚ) : Prop extends Meet l e x where
  after : ((max (l.anchorBIdx + 1) e.fromIdx : ℕ) : ℚ) - eps ≤ x
  before : x ≤ (min (lastBar closes) e.toIdx : ℕ) + eps
  bar : (l.anchorBIdx + 1 : ℕ) ≤ ⌈x⌉ ∧ ⌈x⌉ ≤ (lastBar closes : ℕ)

/-- The bars after P that the line may break at. -/
def breakBars (closes : List ℚ) (type : LineType) (tol : ℚ) (earlier : List TrendLine) (l : TrendLine) : Set ℕ :=
  {i | l.anchorBIdx < i ∧ i ≤ lastBar closes ∧ Beyond closes type tol l i} ∪
    {i | ∃ e ∈ earlier, ∃ x, Crosses closes l e x ∧ (i : ℤ) = ⌈x⌉}

/-- The pivot is one of the touches of the line. -/
def touching (closes : List ℚ) (b : Bands) (l : TrendLine) (piv : ℕ) : Bool :=
  l.fromIdx ≤ piv ∧ |close closes piv - l.valueAt piv| ≤ b.touchTol

/-- A line as it is emitted after others. -/
structure Emitted (closes : List ℚ) (pivots : List ℕ) (type : LineType) (opts : Options)
    (earlier : List TrendLine) (l : TrendLine) : Prop where
  side : l.type = type
  /-- It joins two pivots. -/
  anchors : l.fromIdx ∈ pivots ∧ l.anchorBIdx ∈ pivots ∧ l.fromIdx < l.anchorBIdx
  joins : l.valueAt l.fromIdx = close closes l.fromIdx ∧ l.valueAt l.anchorBIdx = close closes l.anchorBIdx
  /-- No close is beyond it. -/
  channel : ∀ i, l.fromIdx < i → i < l.anchorBIdx → ¬ Beyond closes type (bands closes opts).tol l i
  unbroken : ∀ i, l.anchorBIdx < i → i < l.toIdx → ¬ Beyond closes type (bands closes opts).tol l i
  /-- It is drawn up to its break, which is not stale. -/
  toIdx : l.toIdx = l.breakIdx.getD (lastBar closes)
  breakIdx : LeastOf l.breakIdx (breakBars closes type (bands closes opts).tol earlier l)
  current : ∀ b ∈ l.breakIdx, (lastBar closes : ℤ) - b ≤ opts.breakStaleBars
  /-- It is not one of the earlier ones again, nor does it cross one before P. -/
  distinct : ∀ e ∈ earlier, ¬ (|e.slope - l.slope| < eps ∧ |e.intercept - l.intercept| < eps)
  uncrossed : ∀ e ∈ earlier, ∀ x, Meet l e x → (max l.fromIdx e.fromIdx : ℕ) + eps < x →
    ((min l.anchorBIdx e.toIdx : ℕ) : ℚ) - eps ≤ x
  thirdTouch : l.thirdTouchIdx = (pivots.filter (touching closes (bands closes opts) l))[2]?

-- ============================================================================
-- Crossings
-- ============================================================================

section Crossings

variable {slope intercept : ℚ} {l e : TrendLine} {x : ℚ}

theorem eps_pos : 0 < eps := by unfold eps; norm_num

/-- Where two lines meet. -/
def meeting (slope intercept : ℚ) (e : TrendLine) : ℚ := (e.intercept - intercept) / (slope - e.slope)

theorem meet_iff : Meet l e x ↔ eps ≤ |l.slope - e.slope| ∧ x = meeting l.slope l.intercept e := by
  refine ⟨fun h => ⟨h.apart, ?_⟩, fun h => ⟨h.1, ?_⟩⟩
  · have hne : l.slope - e.slope ≠ 0 := abs_pos.mp (lt_of_lt_of_le eps_pos h.apart)
    have hmeets := h.meets
    unfold TrendLine.valueAt at hmeets
    rw [meeting, eq_div_iff hne]
    linarith
  · have hne : l.slope - e.slope ≠ 0 := abs_pos.mp (lt_of_lt_of_le eps_pos h.1)
    have hx := (eq_div_iff hne).mp h.2
    unfold TrendLine.valueAt
    linarith

/-- The crossing with one line is in reach, and so is the bar it is rounded up to. -/
structure InReach (slope intercept : ℚ) (fromIdx toIdx : ℕ) (e : TrendLine) : Prop where
  apart : eps ≤ |slope - e.slope|
  after : ((max fromIdx e.fromIdx : ℕ) : ℚ) - eps ≤ meeting slope intercept e
  before : meeting slope intercept e ≤ (min toIdx e.toIdx : ℕ) + eps
  bar : (fromIdx : ℤ) ≤ ⌈meeting slope intercept e⌉ ∧ ⌈meeting slope intercept e⌉ ≤ toIdx

theorem crossingStep_eq (fromIdx toIdx : ℕ) (earliest : Option ℕ) :
    crossingStep slope intercept fromIdx toIdx earliest e =
      if min toIdx e.toIdx < max fromIdx e.fromIdx then earliest
      else if |slope - e.slope| < eps then earliest
      else if meeting slope intercept e < (max fromIdx e.fromIdx : ℕ) - eps ∨
          (min toIdx e.toIdx : ℕ) + eps < meeting slope intercept e then earliest
      else if (fromIdx : ℤ) ≤ ⌈meeting slope intercept e⌉ ∧ ⌈meeting slope intercept e⌉ ≤ toIdx then
        match earliest with
        | none => some ⌈meeting slope intercept e⌉.toNat
        | some first =>
          if ⌈meeting slope intercept e⌉ < first then some ⌈meeting slope intercept e⌉.toNat else some first
      else earliest := rfl

/-- The scan keeps the first bar. -/
theorem crossingStep_of_inReach {fromIdx toIdx : ℕ} (h : InReach slope intercept fromIdx toIdx e)
    (earliest : Option ℕ) :
    crossingStep slope intercept fromIdx toIdx earliest e =
      earliest.merge min (some ⌈meeting slope intercept e⌉.toNat) := by
  have hoverlap : max fromIdx e.fromIdx ≤ min toIdx e.toIdx := by
    have hafter := h.after
    have hbefore := h.before
    have heps : eps = 1 / 1000000 := rfl
    have hlt : ((max fromIdx e.fromIdx : ℕ) : ℚ) < ((min toIdx e.toIdx + 1 : ℕ) : ℚ) := by
      push_cast at hafter hbefore ⊢
      linarith
    exact Nat.lt_succ_iff.mp (by exact_mod_cast hlt)
  have hbar := h.bar
  rw [crossingStep_eq, if_neg (not_lt.mpr hoverlap), if_neg (not_lt.mpr h.apart),
    if_neg (not_or.mpr ⟨not_lt.mpr h.after, not_lt.mpr h.before⟩), if_pos hbar]
  cases earliest with
  | none => rfl
  | some first =>
    rw [Option.merge_some_some]
    dsimp only
    split
    case isTrue hlt => rw [min_eq_right (by omega)]
    case isFalse hge => rw [min_eq_left (by omega)]

theorem crossingStep_of_not_inReach {fromIdx toIdx : ℕ} (h : ¬ InReach slope intercept fromIdx toIdx e)
    (earliest : Option ℕ) : crossingStep slope intercept fromIdx toIdx earliest e = earliest := by
  rw [crossingStep_eq]
  split
  · rfl
  · split
    · rfl
    case isFalse hapart =>
      split
      · rfl
      case isFalse hreach =>
        obtain ⟨hafter, hbefore⟩ := not_or.mp hreach
        rw [if_neg fun hbar => h ⟨not_lt.mp hapart, not_lt.mp hafter, not_lt.mp hbefore, hbar⟩]

variable {closes : List ℚ}

theorem crosses_iff : Crosses closes l e x ↔
    InReach l.slope l.intercept (l.anchorBIdx + 1) (lastBar closes) e ∧ x = meeting l.slope l.intercept e := by
  constructor
  · intro h
    obtain ⟨hapart, rfl⟩ := meet_iff.mp h.toMeet
    exact ⟨⟨hapart, h.after, h.before, h.bar⟩, rfl⟩
  · rintro ⟨h, rfl⟩
    exact ⟨meet_iff.mpr ⟨h.apart, rfl⟩, h.after, h.before, h.bar⟩

/-- The bar of a crossing with one line. -/
theorem leastOf_crossing (closes : List ℚ) (l : TrendLine) (o : Option ℕ) (e : TrendLine) :
    ∃ o', crossingStep l.slope l.intercept (l.anchorBIdx + 1) (lastBar closes) o e = o.merge min o' ∧
      LeastOf o' {i | ∃ x, Crosses closes l e x ∧ (i : ℤ) = ⌈x⌉} := by
  by_cases hreach : InReach l.slope l.intercept (l.anchorBIdx + 1) (lastBar closes) e
  · have hset : {i : ℕ | ∃ x, Crosses closes l e x ∧ (i : ℤ) = ⌈x⌉} =
        {⌈meeting l.slope l.intercept e⌉.toNat} := by
      have hbar := hreach.bar.1
      ext i
      rw [Set.mem_singleton_iff]
      constructor
      · rintro ⟨x, hx, hi⟩
        rw [(crosses_iff.mp hx).2] at hi
        omega
      · intro hi
        exact ⟨_, crosses_iff.mpr ⟨hreach, rfl⟩, by omega⟩
    rw [hset]
    exact ⟨_, crossingStep_of_inReach hreach o, LeastOf.singleton _⟩
  · have hset : {i : ℕ | ∃ x, Crosses closes l e x ∧ (i : ℤ) = ⌈x⌉} = ∅ := by
      refine Set.eq_empty_iff_forall_notMem.mpr fun i hi => ?_
      obtain ⟨x, hx, -⟩ := hi
      exact hreach (crosses_iff.mp hx).1
    rw [hset]
    exact ⟨none, (crossingStep_of_not_inReach hreach o).trans Option.merge_none_right.symm, LeastOf.empty⟩

/-- The first crossing with the earlier lines. -/
theorem leastOf_earliestCrossing (closes : List ℚ) (l : TrendLine) (out : List TrendLine) :
    LeastOf (earliestCrossing l.slope l.intercept (l.anchorBIdx + 1) (lastBar closes) out)
      {i | ∃ e ∈ out, ∃ x, Crosses closes l e x ∧ (i : ℤ) = ⌈x⌉} := by
  have hscan := LeastOf.foldl (leastOf_crossing closes l) out LeastOf.empty
  rwa [Set.empty_union] at hscan

end Crossings

-- ============================================================================
-- Breaks and touches
-- ============================================================================

section Candidates

variable {closes : List ℚ} {pivots : List ℕ} {type : LineType} {opts : Options} {out : List TrendLine}

/-- The earlier of the two. -/
theorem breakOf_eq (tol : ℚ) (p : ℕ) (slope intercept : ℚ) :
    breakOf closes type tol p slope intercept out =
      ((List.range' (p + 1) (lastBar closes - p)).find? fun i =>
        violates type tol (close closes i) (slope * i + intercept)).merge min
          (earliestCrossing slope intercept (p + 1) (lastBar closes) out) := by
  unfold breakOf lastBar
  dsimp only
  generalize List.find? _ _ = broken
  generalize earliestCrossing _ _ _ _ _ = crossed
  cases crossed with
  | none => exact Option.merge_none_right.symm
  | some x =>
    cases broken with
    | none => rfl
    | some i =>
      rw [Option.merge_some_some]
      dsimp only
      split
      case isTrue hlt => rw [min_eq_right hlt.le]
      case isFalse hge => rw [min_eq_left (not_lt.mp hge)]

/-- The first bar after P that is beyond the line or that an earlier line is crossed at. -/
theorem leastOf_breakOf (tol : ℚ) (l : TrendLine) (out : List TrendLine) :
    LeastOf (breakOf closes type tol l.anchorBIdx l.slope l.intercept out) (breakBars closes type tol out l) := by
  have hbroken := LeastOf.find?_range' (fun i => violates type tol (close closes i) (l.slope * i + l.intercept))
    (l.anchorBIdx + 1) (lastBar closes - l.anchorBIdx)
  have hset : {i | l.anchorBIdx + 1 ≤ i ∧ i < l.anchorBIdx + 1 + (lastBar closes - l.anchorBIdx) ∧
      violates type tol (close closes i) (l.slope * i + l.intercept)} =
      {i | l.anchorBIdx < i ∧ i ≤ lastBar closes ∧ Beyond closes type tol l i} := by
    ext i
    constructor
    · rintro ⟨hafter, hlast, hbeyond⟩
      exact ⟨by omega, by omega, hbeyond⟩
    · rintro ⟨hafter, hlast, hbeyond⟩
      exact ⟨by omega, by omega, hbeyond⟩
  rw [hset] at hbroken
  have hbreak := hbroken.union (leastOf_earliestCrossing closes l out)
  rw [breakOf_eq]
  exact hbreak

theorem touchStep_of_touching {b : Bands} {l : TrendLine} {piv : ℕ} (hlast : piv ≤ lastBar closes)
    (h : touching closes b l piv) (t : Touches) :
    (touchStep closes b l.fromIdx l.slope l.intercept t piv).strict = t.strict + 1 ∧
      (touchStep closes b l.fromIdx l.slope l.intercept t piv).thirdTouchIdx =
        if t.strict + 1 = minTouches ∧ t.thirdTouchIdx = none then some piv else t.thirdTouchIdx := by
  obtain ⟨hfrom, hdelta⟩ := of_decide_eq_true h
  unfold TrendLine.valueAt at hdelta
  unfold lastBar at hlast
  unfold touchStep
  dsimp only
  rw [if_neg (not_or.mpr ⟨not_lt.mpr hfrom, not_lt.mpr hlast⟩), if_pos hdelta]
  exact ⟨rfl, rfl⟩

theorem touchStep_of_not_touching {b : Bands} {l : TrendLine} {piv : ℕ} (h : ¬ touching closes b l piv)
    (t : Touches) :
    (touchStep closes b l.fromIdx l.slope l.intercept t piv).strict = t.strict ∧
      (touchStep closes b l.fromIdx l.slope l.intercept t piv).thirdTouchIdx = t.thirdTouchIdx := by
  unfold touchStep
  dsimp only
  split
  · exact ⟨rfl, rfl⟩
  case isFalse hrange =>
    split
    case isTrue hdelta => exact absurd (decide_eq_true ⟨not_lt.mp (not_or.mp hrange).1, hdelta⟩) h
    case isFalse =>
      split
      · split
        · exact ⟨rfl, rfl⟩
        · exact ⟨rfl, rfl⟩
      · exact ⟨rfl, rfl⟩

/-- The touches are counted as they come, and the third is remembered. -/
theorem foldl_touchStep (b : Bands) (l : TrendLine) (h : ∀ piv ∈ pivots, piv ≤ lastBar closes) :
    (pivots.foldl (touchStep closes b l.fromIdx l.slope l.intercept) {}).strict =
        (pivots.filter (touching closes b l)).length ∧
      (pivots.foldl (touchStep closes b l.fromIdx l.slope l.intercept) {}).thirdTouchIdx =
        (pivots.filter (touching closes b l))[2]? := by
  induction pivots using List.reverseRecOn with
  | nil => exact ⟨rfl, rfl⟩
  | append_singleton pivots piv ih =>
    obtain ⟨hstrict, hthird⟩ := ih fun piv hpiv => h piv (List.mem_append_left _ hpiv)
    rw [List.foldl_append, List.foldl_cons, List.foldl_nil, List.filter_append]
    by_cases htouch : touching closes b l piv
    · obtain ⟨hnext, hnextThird⟩ := touchStep_of_touching (h piv (by simp)) htouch
        (pivots.foldl (touchStep closes b l.fromIdx l.slope l.intercept) {})
      rw [hnext, hnextThird, hstrict, hthird, List.filter_cons_of_pos htouch, List.filter_nil]
      refine ⟨by rw [List.length_append, List.length_singleton], ?_⟩
      by_cases hcount : (pivots.filter (touching closes b l)).length = 2
      · rw [if_pos ⟨by rw [hcount]; rfl, List.getElem?_eq_none hcount.le⟩, ← hcount, List.getElem?_concat_length]
      · rw [if_neg fun hthree => hcount (Nat.succ.inj hthree.1)]
        rcases Nat.lt_or_gt_of_ne hcount with hfew | hmany
        · rw [List.getElem?_eq_none hfew.le, List.getElem?_eq_none]
          rw [List.length_append]
          exact hfew
        · rw [List.getElem?_append_left hmany]
    · obtain ⟨hnext, hnextThird⟩ := touchStep_of_not_touching htouch
        (pivots.foldl (touchStep closes b l.fromIdx l.slope l.intercept) {})
      rw [hnext, hnextThird, hstrict, hthird, List.filter_cons_of_neg htouch, List.filter_nil, List.append_nil]
      exact ⟨rfl, rfl⟩

theorem le_lastBar_of_mem {tol : ℚ} {l : TrendLine} {i : ℕ} (h : i ∈ breakBars closes type tol out l) :
    i ≤ lastBar closes := by
  rcases h with ⟨-, hlast, -⟩ | ⟨e, -, x, hx, hi⟩
  · exact hlast
  · have hbar := hx.bar.2
    omega

/-- A line that is drawn up to its break has no close beyond it until then. -/
theorem not_beyond_of_lt {tol : ℚ} {l : TrendLine} (hto : l.toIdx = l.breakIdx.getD (lastBar closes))
    (hbreak : LeastOf l.breakIdx (breakBars closes type tol out l)) {i : ℕ} (hafter : l.anchorBIdx < i)
    (hbefore : i < l.toIdx) : ¬ Beyond closes type tol l i := by
  intro hbeyond
  cases hidx : l.breakIdx with
  | none =>
    rw [hto, hidx, Option.getD_none] at hbefore
    exact hbreak.not_mem hidx i (.inl ⟨hafter, hbefore.le, hbeyond⟩)
  | some b =>
    rw [hto, hidx, Option.getD_some] at hbefore
    have hlast := le_lastBar_of_mem (hbreak.mem hidx)
    have hle := hbreak.le hidx (.inl ⟨hafter, by omega, hbeyond⟩)
    omega

/-- A line that crosses none of the others before P. -/
theorem uncrossed_of_crossesAny {l e : TrendLine}
    (h : ¬ crossesAny l.slope l.intercept l.fromIdx l.anchorBIdx out) (he : e ∈ out) {x : ℚ} (hx : Meet l e x)
    (hafter : (max l.fromIdx e.fromIdx : ℕ) + eps < x) :
    ((min l.anchorBIdx e.toIdx : ℕ) : ℚ) - eps ≤ x := by
  by_contra hbefore
  obtain ⟨hapart, rfl⟩ := meet_iff.mp hx
  refine h (List.any_eq_true.mpr ⟨e, he, decide_eq_true ?_⟩)
  have hoverlap : ((max l.fromIdx e.fromIdx : ℕ) : ℚ) < (min l.anchorBIdx e.toIdx : ℕ) := by
    have heps := eps_pos
    linarith
  exact ⟨by exact_mod_cast hoverlap, not_lt.mpr hapart, hafter, not_le.mp hbefore⟩

/-- A line through two pivots passes through their closes. -/
theorem joins_of_slope {l : TrendLine} (hlt : l.fromIdx < l.anchorBIdx)
    (hslope : l.slope = (close closes l.anchorBIdx - close closes l.fromIdx) / ((l.anchorBIdx : ℚ) - l.fromIdx))
    (hintercept : l.intercept = close closes l.anchorBIdx - l.slope * l.anchorBIdx) :
    l.valueAt l.fromIdx = close closes l.fromIdx ∧ l.valueAt l.anchorBIdx = close closes l.anchorBIdx := by
  have hne : (l.anchorBIdx : ℚ) - l.fromIdx ≠ 0 := by
    have hcast : (l.fromIdx : ℚ) < l.anchorBIdx := by exact_mod_cast hlt
    linarith
  have hrise := (eq_div_iff hne).mp hslope
  unfold TrendLine.valueAt
  rw [hintercept]
  constructor
  · linarith
  · ring

/-- A candidate leaves the list as it is, or its line is emitted. -/
theorem emit_cases (hpivots : ∀ piv ∈ pivots, piv ≤ lastBar closes) {p : ℕ} (hp : p ∈ pivots)
    {candidate : ℕ × ℚ} (hq : candidate.1 ∈ pivots) (hlt : candidate.1 < p)
    (hslope : candidate.2 = (close closes p - close closes candidate.1) / ((p : ℚ) - candidate.1)) :
    emit closes pivots type opts (bands closes opts) p out candidate = out ∨
      ∃ l, emit closes pivots type opts (bands closes opts) p out candidate = out ++ [l] ∧
        Emitted closes pivots type opts out l := by
  obtain ⟨q, slope⟩ := candidate
  unfold emit
  dsimp only at hq hlt hslope ⊢
  split
  · exact .inl rfl
  case isFalse hchannel =>
    split
    · exact .inl rfl
    case isFalse huncrossed =>
      split
      · exact .inl rfl
      case isFalse hcurrent =>
        split
        · exact .inl rfl
        case isFalse hdistinct =>
          refine .inr ⟨_, rfl, ?_⟩
          have hbreak : ∀ l : TrendLine, l.anchorBIdx = p → l.slope = slope →
              l.intercept = close closes p - slope * p →
              l.breakIdx = breakOf closes type (bands closes opts).tol p slope (close closes p - slope * p) out →
              LeastOf l.breakIdx (breakBars closes type (bands closes opts).tol out l) := by
            intro l hanchor hl hintercept hidx
            rw [hidx, ← hintercept, ← hl, ← hanchor]
            exact leastOf_breakOf _ l out
          have hthird : ∀ l : TrendLine, l.fromIdx = q → l.slope = slope →
              l.intercept = close closes p - slope * p →
              l.thirdTouchIdx = (pivots.foldl (touchStep closes (bands closes opts) q slope
                (close closes p - slope * p)) {}).thirdTouchIdx →
              l.thirdTouchIdx = (pivots.filter (touching closes (bands closes opts) l))[2]? := by
            intro l hfrom hl hintercept hidx
            rw [hidx, ← hintercept, ← hl, ← hfrom]
            exact (foldl_touchStep (bands closes opts) l hpivots).2
          constructor
          case side => rfl
          case anchors => exact ⟨hq, hp, hlt⟩
          case joins => exact joins_of_slope hlt hslope rfl
          case channel =>
            intro i hafter hbefore hbeyond
            refine hchannel (List.any_eq_true.mpr ⟨i, List.mem_range'_1.mpr ?_, hbeyond⟩)
            dsimp only at hafter hbefore
            omega
          case unbroken => exact fun i => not_beyond_of_lt rfl (hbreak _ rfl rfl rfl rfl)
          case toIdx => rfl
          case breakIdx => exact hbreak _ rfl rfl rfl rfl
          case current =>
            intro b hb
            refine not_lt.mp fun hstale => hcurrent ?_
            exact (Option.any_eq_true _ _).mpr ⟨b, hb, decide_eq_true hstale⟩
          case distinct =>
            exact fun e he hsame => hdistinct (List.any_eq_true.mpr ⟨e, he, decide_eq_true hsame⟩)
          case uncrossed => exact fun e he x hx => uncrossed_of_crossesAny huncrossed he hx
          case thirdTouch => exact hthird _ rfl rfl rfl rfl

end Candidates

-- ============================================================================
-- All lines of a side
-- ============================================================================

section Sides

variable {closes : List ℚ} {pivots : List ℕ} {type : LineType} {opts : Options}

/-- The pivots of a side. -/
def pivotsOf (closes : List ℚ) (type : LineType) (minPivotStrength : ℚ) : List ℕ :=
  match type with
  | .support => findPivotLows closes minPivotStrength
  | .resistance => findPivotHighs closes minPivotStrength

/-- Pivots ascend, and lie within the series. -/
structure PivotList (closes : List ℚ) (pivots : List ℕ) : Prop where
  ascend : pivots.Pairwise (· < ·)
  le_lastBar : ∀ piv ∈ pivots, piv ≤ lastBar closes

theorem pivotList_filter (p : ℕ → Bool) : PivotList closes ((List.range' 1 (closes.length - 2)).filter p) where
  ascend := List.Pairwise.filter p List.pairwise_lt_range'
  le_lastBar piv hpiv := by
    have hrange := List.mem_range'_1.mp (List.mem_of_mem_filter hpiv)
    unfold lastBar
    omega

theorem pivotList_pivotsOf (closes : List ℚ) (type : LineType) (minPivotStrength : ℚ) :
    PivotList closes (pivotsOf closes type minPivotStrength) := by
  cases type with
  | support => exact pivotList_filter _
  | resistance => exact pivotList_filter _

/-- The fans, over pivots in reverse. -/
theorem eachAfter_fans (hpivots : PivotList closes pivots) (ps : List ℕ) :
    ∀ {out : List TrendLine}, ps.Pairwise (· > ·) → (∀ p ∈ ps, p ∈ pivots) →
      EachAfter (Emitted closes pivots type opts) out →
      EachAfter (Emitted closes pivots type opts) (fans closes pivots type opts (bands closes opts) ps out) := by
  induction ps with
  | nil => exact fun _ _ h => h
  | cons p older ih =>
    intro out hdescend hmem h
    obtain ⟨hp, holder⟩ := List.forall_mem_cons.mp hmem
    obtain ⟨hlt, hdescend⟩ := List.pairwise_cons.mp hdescend
    refine ih hdescend holder (EachAfter.foldl (P := fun c => ∃ q ∈ older,
      c = (q, (close closes p - close closes q) / ((p : ℚ) - q))) ?_ _ ?_ h)
    · rintro out candidate ⟨q, hq, rfl⟩
      exact emit_cases hpivots.le_lastBar hp (holder q hq) (hlt q hq) rfl
    · intro c hc
      rw [sortCandidates, List.mem_insertionSort] at hc
      obtain ⟨q, hq, rfl⟩ := List.mem_map.mp hc
      exact ⟨q, hq, rfl⟩

theorem eachAfter_detectOneSide (hpivots : PivotList closes pivots) :
    EachAfter (Emitted closes pivots type opts) (detectOneSide closes pivots type opts) := by
  unfold detectOneSide
  split
  · exact EachAfter.nil
  · refine eachAfter_fans hpivots _ (List.pairwise_reverse.mpr hpivots.ascend) ?_ EachAfter.nil
    exact fun p hp => List.mem_reverse.mp hp

/-- Every line of a side, in the order they are emitted in. -/
theorem detectOneSide_emitted (closes : List ℚ) (type : LineType) (minPivotStrength : ℚ) (opts : Options) :
    EachAfter (Emitted closes (pivotsOf closes type minPivotStrength) type opts)
      (detectOneSide closes (pivotsOf closes type minPivotStrength) type opts) :=
  eachAfter_detectOneSide (pivotList_pivotsOf closes type minPivotStrength)

end Sides

-- ============================================================================
-- Two lines of a side
-- ============================================================================

section Pairs

variable {closes : List ℚ} {pivots : List ℕ} {type : LineType} {opts : Options} {e l : TrendLine} {x : ℚ}

/-- Two lines cross strictly inside what is drawn of both. -/
structure CrossInside (e l : TrendLine) (x : ℚ) : Prop where
  slopes : e.slope ≠ l.slope
  meets : e.valueAt x = l.valueAt x
  after : ((max e.fromIdx l.fromIdx : ℕ) : ℚ) < x
  before : x < (min e.toIdx l.toIdx : ℕ)

/-- No two of the lines do. -/
def NoCrossing (lines : List TrendLine) : Prop := lines.Pairwise fun e l => ∀ x, ¬ CrossInside e l x

theorem Emitted.toIdx_le {earlier : List TrendLine} (h : Emitted closes pivots type opts earlier l) :
    l.toIdx ≤ lastBar closes := by
  rw [h.toIdx]
  cases hidx : l.breakIdx with
  | none => exact le_refl _
  | some b => exact le_lastBar_of_mem (h.breakIdx.mem hidx)

/-- A crossing from the bar after P on cuts the line off. -/
theorem Emitted.cut {earlier : List TrendLine} (h : Emitted closes pivots type opts earlier l) (he : e ∈ earlier)
    (hmeet : Meet l e x) (hx : CrossInside e l x) (hafter : ((l.anchorBIdx + 1 : ℕ) : ℚ) ≤ x) :
    l.breakIdx = some l.toIdx ∧ (l.toIdx : ℤ) = ⌈x⌉ := by
  have heps := eps_pos
  obtain ⟨hfromE, -⟩ := max_lt_iff.mp (by exact_mod_cast hx.after : max (e.fromIdx : ℚ) l.fromIdx < x)
  obtain ⟨htoE, htoL⟩ := lt_min_iff.mp (by exact_mod_cast hx.before : x < min (e.toIdx : ℚ) l.toIdx)
  have hto : (l.toIdx : ℚ) ≤ lastBar closes := by exact_mod_cast h.toIdx_le
  have hlast : ⌈x⌉ ≤ (lastBar closes : ℕ) := Int.ceil_le.mpr (by push_cast; linarith)
  have hfirst : ((l.anchorBIdx + 1 : ℕ) : ℤ) ≤ ⌈x⌉ := Int.cast_le.mp
    ((by exact_mod_cast hafter : (((l.anchorBIdx + 1 : ℕ) : ℤ) : ℚ) ≤ x).trans (Int.le_ceil x))
  have hcross : Crosses closes l e x := by
    refine ⟨hmeet, ?_, ?_, hfirst, hlast⟩
    · have hle : max ((l.anchorBIdx + 1 : ℕ) : ℚ) e.fromIdx ≤ x := max_le hafter hfromE.le
      push_cast at hle ⊢
      linarith
    · have hle : x ≤ min (lastBar closes : ℚ) e.toIdx := le_min (by linarith) htoE.le
      push_cast
      linarith
  obtain ⟨b, hb, hbx⟩ := h.breakIdx.exists_le (i := ⌈x⌉.toNat) (.inr ⟨e, he, x, hcross, by omega⟩)
  have htoIdx : l.toIdx = b := by rw [h.toIdx, hb, Option.getD_some]
  rw [htoIdx] at htoL ⊢
  have hceil : ⌈x⌉ ≤ (b : ℤ) := Int.ceil_le.mpr (by push_cast; linarith)
  exact ⟨hb, by omega⟩

/-- Two lines that are not as good as parallel cross at most at the start of what both
    are drawn of, about P, or in the last bar of the one that is cut off there. -/
theorem Emitted.crossInside {earlier : List TrendLine} (h : Emitted closes pivots type opts earlier l)
    (he : e ∈ earlier) (hx : CrossInside e l x) (hapart : eps ≤ |e.slope - l.slope|) :
    x ≤ (max e.fromIdx l.fromIdx : ℕ) + eps ∨
      ((min l.anchorBIdx e.toIdx : ℕ) : ℚ) - eps ≤ x ∧ x < (l.anchorBIdx + 1 : ℕ) ∨
      l.breakIdx = some l.toIdx ∧ (l.toIdx : ℤ) = ⌈x⌉ := by
  have hmeet : Meet l e x := ⟨by rwa [abs_sub_comm], hx.meets.symm⟩
  by_cases hstart : x ≤ (max e.fromIdx l.fromIdx : ℕ) + eps
  · exact .inl hstart
  · right
    rw [max_comm, not_le] at hstart
    have hbefore := h.uncrossed e he x hmeet hstart
    by_cases hafter : ((l.anchorBIdx + 1 : ℕ) : ℚ) ≤ x
    · exact .inr (h.cut he hmeet hx hafter)
    · exact .inl ⟨hbefore, not_le.mp hafter⟩

/-- The lines of a fan cross at the pivot they share. -/
theorem detectOneSide_crosses :
    ¬ ∀ (closes : List ℚ) (type : LineType) (minPivotStrength : ℚ) (opts : Options),
      NoCrossing (detectOneSide closes (pivotsOf closes type minPivotStrength) type opts) := by
  intro h
  have hlines : detectOneSide [5, 0, 5, 3, 5, 4, 10, 11] (pivotsOf [5, 0, 5, 3, 5, 4, 10, 11] .support 0) .support {} =
      [ { type := .support, fromIdx := 1, anchorBIdx := 5, toIdx := 7, slope := 1, intercept := -1,
          touches := 2, breakIdx := none, thirdTouchIdx := none },
        { type := .support, fromIdx := 3, anchorBIdx := 5, toIdx := 7, slope := 1 / 2, intercept := 3 / 2,
          touches := 2, breakIdx := none, thirdTouchIdx := none },
        { type := .support, fromIdx := 1, anchorBIdx := 3, toIdx := 5, slope := 3 / 2, intercept := -3 / 2,
          touches := 2, breakIdx := some 5, thirdTouchIdx := none } ] := by decide +kernel
  have hnone := h [5, 0, 5, 3, 5, 4, 10, 11] .support 0 {}
  rw [hlines] at hnone
  refine (List.pairwise_cons.mp hnone).1 _ List.mem_cons_self 5 ⟨?_, ?_, ?_, ?_⟩
  · norm_num
  · norm_num [TrendLine.valueAt]
  · norm_num
  · norm_num

/-- Two lines of a side, the first emitted before the second, cross inside what is drawn of
    both at most where the tolerances, the pivot they share and the rounding of a break to
    whole bars allow it. -/
theorem detectOneSide_crossInside (closes : List ℚ) (type : LineType) (minPivotStrength : ℚ) (opts : Options) :
    (detectOneSide closes (pivotsOf closes type minPivotStrength) type opts).Pairwise fun e l =>
      ∀ x, CrossInside e l x → eps ≤ |e.slope - l.slope| →
        x ≤ (max e.fromIdx l.fromIdx : ℕ) + eps ∨
          ((min l.anchorBIdx e.toIdx : ℕ) : ℚ) - eps ≤ x ∧ x < (l.anchorBIdx + 1 : ℕ) ∨
          l.breakIdx = some l.toIdx ∧ (l.toIdx : ℤ) = ⌈x⌉ :=
  EachAfter.pairwise (fun _ _ h _ he _ hx hapart => h.crossInside he hx hapart)
    (eachAfter_detectOneSide (pivotList_pivotsOf closes type minPivotStrength))

end Pairs

end IbTrader.Signals.SrFan
