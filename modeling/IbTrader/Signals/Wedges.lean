/-
  IbTrader.Signals.Wedges

  Lines of one side, as a bot asks for them, and the wedges that two sides form
  (`detect_lines` and `find_wedges` of `ib_trader/signals/sr_fan.py`).

  The lines of a wedge close in on one another from where it begins up to its apex, and the
  wedge whose apex is the fewest whole bars ahead comes first.
-/

import Mathlib.Tactic.FieldSimp
import Mathlib.Tactic.Linarith
import Mathlib.Tactic.Ring
import IbTrader.Signals.SrLines

namespace IbTrader.Signals.SrFan

-- ============================================================================
-- One side
-- ============================================================================

/-- `detect_lines`. -/
def detectLines (closes : List ℚ) (upTo : ℕ) (type : LineType) (opts : Options) (minPivotStrength : ℚ := 0) :
    List TrendLine :=
  if upTo < 2 then []
  else detectOneSide (closes.take (upTo + 1)) (pivotsOf (closes.take (upTo + 1)) type minPivotStrength) type opts

/-- Up to the last bar the lines are those of the whole series. -/
theorem emitted_of_mem_detectLines {closes : List ℚ} {type : LineType} {opts : Options} {l : TrendLine}
    (h : l ∈ detectLines closes (lastBar closes) type opts) :
    ∃ earlier, Emitted closes (pivotsOf closes type 0) type opts earlier l := by
  unfold detectLines at h
  split at h
  · exact absurd h List.not_mem_nil
  · rw [List.take_of_length_le (by unfold lastBar; omega)] at h
    obtain ⟨before, after, hsplit⟩ := List.append_of_mem h
    exact ⟨before, detectOneSide_emitted closes type 0 opts before l after hsplit⟩

-- ============================================================================
-- Wedges
-- ============================================================================

/-- A support and a resistance that converge. -/
structure Wedge where
  support : TrendLine
  resistance : TrendLine
  /-- `apex_idx_float`. -/
  apexIdx : ℚ
  apexBarsAhead : ℤ
  overlapStartIdx : ℕ
  deriving DecidableEq, Repr

structure WedgeOptions where
  maxApexBarsAhead : ℤ := 200
  minOverlapBars : ℤ := 5
  includeBroken : Bool := false
  flatSlopeThreshold : ℚ := 0
  deriving DecidableEq, Repr

/-- Neither line is flat, and both go the same way. -/
def sameDirection (threshold : ℚ) (s r : TrendLine) : Bool :=
  0 < threshold ∧ ¬ |s.slope| < threshold ∧ ¬ |r.slope| < threshold ∧
    (0 < s.slope ∧ 0 < r.slope ∨ s.slope < 0 ∧ r.slope < 0)

/-- The wedge of a support and a resistance, if they form one. -/
def wedgeOf (lastIdx : ℕ) (opts : WedgeOptions) (s r : TrendLine) : Option Wedge :=
  let dSlope := s.slope - r.slope
  let apexIdx := (r.intercept - s.intercept) / dSlope
  let overlapStart := max s.fromIdx r.fromIdx
  let overlapEnd := min s.toIdx r.toIdx
  if dSlope ≤ 1 / 1000000000 then none
  else if sameDirection opts.flatSlopeThreshold s r then none
  else if apexIdx ≤ lastIdx then none
  else if opts.maxApexBarsAhead < apexIdx - lastIdx then none
  else if (overlapEnd : ℤ) - overlapStart < opts.minOverlapBars then none
  else if r.valueAt overlapStart ≤ s.valueAt overlapStart then none
  else some
    { support := s
      resistance := r
      apexIdx
      apexBarsAhead := ⌊apexIdx - lastIdx⌋
      overlapStartIdx := overlapStart }

/-- The lines of which wedges are made. -/
def wedgePool (opts : WedgeOptions) (lines : List TrendLine) : List TrendLine :=
  lines.filter fun l => opts.includeBroken ∨ l.breakIdx = none

/-- `find_wedges`. -/
def findWedges (supports resistances : List TrendLine) (lastIdx : ℕ) (opts : WedgeOptions) : List Wedge :=
  ((wedgePool opts supports).flatMap fun s => (wedgePool opts resistances).filterMap (wedgeOf lastIdx opts s)).insertionSort
    fun a b => a.apexBarsAhead ≤ b.apexBarsAhead

section Wedges

variable {supports resistances : List TrendLine} {lastIdx : ℕ} {opts : WedgeOptions} {s r : TrendLine} {w : Wedge}

/-- What a wedge is. -/
structure Converges (lastIdx : ℕ) (w : Wedge) : Prop where
  /-- Where both lines have begun. -/
  overlapStart : w.overlapStartIdx = max w.support.fromIdx w.resistance.fromIdx
  /-- The gap gets smaller. -/
  narrows : ∀ x y, x < y → w.resistance.valueAt y - w.support.valueAt y < w.resistance.valueAt x - w.support.valueAt x
  meets : w.resistance.valueAt w.apexIdx = w.support.valueAt w.apexIdx
  opens : w.support.valueAt w.overlapStartIdx < w.resistance.valueAt w.overlapStartIdx
  ahead : lastIdx < w.apexIdx
  apexBarsAhead : w.apexBarsAhead = ⌊w.apexIdx - lastIdx⌋

theorem converges_of_wedgeOf (h : wedgeOf lastIdx opts s r = some w) :
    w.support = s ∧ w.resistance = r ∧ Converges lastIdx w := by
  unfold wedgeOf at h
  dsimp only at h
  split at h
  · cases h
  rename_i hslope
  split at h
  · cases h
  split at h
  · cases h
  rename_i hahead
  split at h
  · cases h
  split at h
  · cases h
  split at h
  · cases h
  rename_i hopens
  obtain rfl := Option.some.inj h
  have hpos : 0 < s.slope - r.slope := lt_trans (by norm_num) (not_le.mp hslope)
  refine ⟨rfl, rfl, rfl, fun x y hxy => ?_, ?_, not_le.mp hopens, not_le.mp hahead, rfl⟩
  · unfold TrendLine.valueAt
    have := mul_lt_mul_of_pos_left hxy hpos
    linarith
  · unfold TrendLine.valueAt
    dsimp only
    field_simp
    ring

theorem mem_findWedges (h : w ∈ findWedges supports resistances lastIdx opts) :
    w.support ∈ wedgePool opts supports ∧ w.resistance ∈ wedgePool opts resistances ∧ Converges lastIdx w := by
  unfold findWedges at h
  rw [List.mem_insertionSort] at h
  obtain ⟨s, hs, hw⟩ := List.mem_flatMap.mp h
  obtain ⟨r, hr, hw⟩ := List.mem_filterMap.mp hw
  obtain ⟨rfl, rfl, hconverges⟩ := converges_of_wedgeOf hw
  exact ⟨hs, hr, hconverges⟩

theorem sorted_findWedges (supports resistances : List TrendLine) (lastIdx : ℕ) (opts : WedgeOptions) :
    (findWedges supports resistances lastIdx opts).Pairwise fun a b => a.apexBarsAhead ≤ b.apexBarsAhead := by
  have : Std.Total fun a b : Wedge => a.apexBarsAhead ≤ b.apexBarsAhead := ⟨fun a b => le_total _ _⟩
  have : IsTrans Wedge fun a b => a.apexBarsAhead ≤ b.apexBarsAhead := ⟨fun _ _ _ => le_trans⟩
  exact List.pairwise_insertionSort _ _

theorem head_findWedges_le {nearest : Wedge} (hhead : (findWedges supports resistances lastIdx opts).head? = some nearest)
    (h : w ∈ findWedges supports resistances lastIdx opts) : nearest.apexBarsAhead ≤ w.apexBarsAhead := by
  have hsorted := sorted_findWedges supports resistances lastIdx opts
  obtain ⟨rest, hlist⟩ := List.head?_eq_some_iff.mp hhead
  rw [hlist] at hsorted h
  rcases List.mem_cons.mp h with rfl | h
  · exact le_rfl
  · exact (List.pairwise_cons.mp hsorted).1 w h

/-- Every wedge is one of two lines that are drawn, which close in on one another up to an
    apex that is still ahead; they come by the whole bars that it is ahead. -/
theorem wedges_converge (supports resistances : List TrendLine) (lastIdx : ℕ) (opts : WedgeOptions) :
    (∀ w ∈ findWedges supports resistances lastIdx opts,
      w.support ∈ wedgePool opts supports ∧ w.resistance ∈ wedgePool opts resistances ∧ Converges lastIdx w) ∧
      (findWedges supports resistances lastIdx opts).Pairwise fun a b => a.apexBarsAhead ≤ b.apexBarsAhead :=
  ⟨fun _ hw => mem_findWedges hw, sorted_findWedges supports resistances lastIdx opts⟩

end Wedges

end IbTrader.Signals.SrFan
