/-
  IbTrader.Lib.CumulativeReports

  Cumulative reports of several counters.

  A report names a counter and the amount it had reached.  What a list of
  reports establishes of a counter is the largest amount reported (`peak`), and of
  all of them together the sum of these (`total`).  Later reports only add
  (`total_mono`), reports of nothing add nothing (`total_le_of_pos`), and where no
  counter is reported twice the total is the plain sum of the reports
  (`total_eq_sum`).
-/

import Mathlib.Algebra.BigOperators.Group.Finset.Basic
import Mathlib.Algebra.Order.BigOperators.Group.Finset
import Mathlib.Algebra.Order.Group.Defs

namespace IbTrader.Lib.CumulativeReports

section

variable {K : Type*} [LinearOrder K]

theorem foldr_max_le {amounts : List K} {x bound : K} (hx : x ≤ bound)
    (h : ∀ a ∈ amounts, a ≤ bound) : amounts.foldr max x ≤ bound := by
  induction amounts with
  | nil => exact hx
  | cons a amounts ih =>
    exact max_le (h a List.mem_cons_self) (ih fun b hb => h b (List.mem_cons_of_mem a hb))

theorem le_foldr_max (amounts : List K) (x : K) : x ≤ amounts.foldr max x := by
  induction amounts with
  | nil => exact le_rfl
  | cons a amounts ih => exact ih.trans (le_max_right a _)

theorem mem_le_foldr_max {amounts : List K} {a : K} (x : K) (h : a ∈ amounts) :
    a ≤ amounts.foldr max x := by
  induction amounts with
  | nil => exact absurd h List.not_mem_nil
  | cons b amounts ih =>
    rcases List.mem_cons.mp h with rfl | h
    · exact le_max_left a _
    · exact (ih h).trans (le_max_right b _)

end

variable {κ K : Type*} [DecidableEq κ] [AddCommMonoid K] [LinearOrder K]

/-- The largest amount reported for a counter, zero without a report. -/
def peak (reports : List (κ × K)) (k : κ) : K :=
  ((reports.filter (·.1 = k)).map Prod.snd).foldr max 0

/-- The sum of the largest amounts reported. -/
def total (reports : List (κ × K)) : K := ∑ k ∈ (reports.map Prod.fst).toFinset, peak reports k

theorem peak_nonneg (reports : List (κ × K)) (k : κ) : 0 ≤ peak reports k :=
  le_foldr_max _ 0

/-- A report bounds the largest amount from below. -/
theorem le_peak {reports : List (κ × K)} {k : κ} {a : K} (h : (k, a) ∈ reports) :
    a ≤ peak reports k :=
  mem_le_foldr_max 0 (List.mem_map.mpr ⟨(k, a), List.mem_filter.mpr ⟨h, by simp⟩, rfl⟩)

/-- Only reports of something count. -/
theorem peak_le_of_pos {reports more : List (κ × K)} (h : ∀ report ∈ reports, 0 < report.2 → report ∈ more)
    (k : κ) : peak reports k ≤ peak more k := by
  refine foldr_max_le (peak_nonneg more k) fun a ha => ?_
  obtain ⟨⟨k', a'⟩, hmem, rfl⟩ := List.mem_map.mp ha
  obtain ⟨hreport, hkey⟩ := List.mem_filter.mp hmem
  obtain rfl : k' = k := by simpa using hkey
  rcases le_or_gt a' 0 with hzero | hpos
  · exact hzero.trans (peak_nonneg more k')
  · exact le_peak (h (k', a') hreport hpos)

theorem peak_eq_zero {reports : List (κ × K)} {k : κ} (h : k ∉ reports.map Prod.fst) : peak reports k = 0 := by
  unfold peak
  rw [List.filter_eq_nil_iff.mpr fun report hreport => by
    simpa using fun hkey => h (List.mem_map.mpr ⟨report, hreport, hkey⟩)]
  rfl

theorem total_le_of_pos [IsOrderedAddMonoid K] {reports more : List (κ × K)}
    (h : ∀ report ∈ reports, 0 < report.2 → report ∈ more) : total reports ≤ total more := by
  have hmore : (∑ k ∈ (reports.map Prod.fst).toFinset ∪ (more.map Prod.fst).toFinset, peak more k) = total more := by
    refine (Finset.sum_subset Finset.subset_union_right fun k _ hk => ?_).symm
    exact peak_eq_zero fun hmem => hk (List.mem_toFinset.mpr hmem)
  calc total reports
      ≤ ∑ k ∈ (reports.map Prod.fst).toFinset, peak more k :=
        Finset.sum_le_sum fun k _ => peak_le_of_pos h k
    _ ≤ ∑ k ∈ (reports.map Prod.fst).toFinset ∪ (more.map Prod.fst).toFinset, peak more k :=
        Finset.sum_le_sum_of_subset_of_nonneg Finset.subset_union_left fun k _ _ => peak_nonneg more k
    _ = total more := hmore

/-- More reports, a larger total. -/
theorem total_mono [IsOrderedAddMonoid K] {reports more : List (κ × K)} (h : reports ⊆ more) :
    total reports ≤ total more := total_le_of_pos fun _ hreport _ => h hreport

theorem total_nonneg [IsOrderedAddMonoid K] (reports : List (κ × K)) : 0 ≤ total reports :=
  Finset.sum_nonneg fun k _ => peak_nonneg reports k

/-- A report bounds the total from below. -/
theorem le_total [IsOrderedAddMonoid K] {reports : List (κ × K)} {report : κ × K}
    (h : report ∈ reports) : report.2 ≤ total reports := by
  have hkey : report.1 ∈ (reports.map Prod.fst).toFinset :=
    List.mem_toFinset.mpr (List.mem_map_of_mem h)
  calc report.2 ≤ peak reports report.1 := le_peak h
    _ ≤ total reports := Finset.single_le_sum (fun k _ => peak_nonneg reports k) hkey

/-- The only report of a counter is its largest. -/
theorem peak_eq_of_nodup {reports : List (κ × K)} (hkeys : (reports.map Prod.fst).Nodup)
    {report : κ × K} (hmem : report ∈ reports) (hpos : 0 ≤ report.2) :
    peak reports report.1 = report.2 := by
  refine le_antisymm (foldr_max_le hpos fun a ha => ?_) (le_peak hmem)
  obtain ⟨other, hother, rfl⟩ := List.mem_map.mp ha
  obtain ⟨hin, hkey⟩ := List.mem_filter.mp hother
  have hsame : other = report :=
    List.inj_on_of_nodup_map hkeys hin hmem (by simpa using hkey)
  rw [hsame]

/-- Where no counter is reported twice the total is the sum of the reports. -/
theorem total_eq_sum {reports : List (κ × K)} (hkeys : (reports.map Prod.fst).Nodup)
    (hpos : ∀ report ∈ reports, 0 ≤ report.2) :
    total reports = (reports.map Prod.snd).sum := by
  rw [total, List.sum_toFinset _ hkeys, List.map_map]
  congr 1
  exact List.map_congr_left fun report hreport =>
    peak_eq_of_nodup hkeys hreport (hpos report hreport)

end IbTrader.Lib.CumulativeReports
