/-
  IbTrader.Lib.Comparator

  Sorting with a comparator that returns a number: negative where the first argument
  comes first.

  A sort returns the elements it is given, and where the comparator is consistent on
  them it returns them in order (`SortSpec`); on other comparators the order is the
  implementation's.  Where the comparator separates the elements, every such sort
  returns the same list (`SortSpec.eq_of_sorted`).
-/

import Mathlib.Algebra.Order.Ring.Rat
import Mathlib.Data.List.Sort

namespace IbTrader.Lib

variable {α : Type}

/-- A comparator puts the elements of a list in a total order, up to ties. -/
structure Consistent (cmp : α → α → ℚ) (xs : List α) : Prop where
  refl : ∀ a ∈ xs, cmp a a = 0
  symm : ∀ a ∈ xs, ∀ b ∈ xs, cmp a b < 0 ↔ 0 < cmp b a
  trans : ∀ a ∈ xs, ∀ b ∈ xs, ∀ c ∈ xs, cmp a b ≤ 0 → cmp b c ≤ 0 → cmp a c ≤ 0

/-- What a sort with a comparator is relied on for. -/
structure SortSpec (sort : (α → α → ℚ) → List α → List α) : Prop where
  perm : ∀ cmp xs, (sort cmp xs).Perm xs
  sorted : ∀ cmp xs, Consistent cmp xs → (sort cmp xs).Pairwise fun a b => cmp a b ≤ 0

theorem Consistent.total {cmp : α → α → ℚ} {xs : List α} (h : Consistent cmp xs) {a b : α}
    (ha : a ∈ xs) (hb : b ∈ xs) : cmp a b ≤ 0 ∨ cmp b a ≤ 0 := by
  rcases le_or_gt (cmp a b) 0 with hle | hgt
  · exact .inl hle
  · exact .inr ((h.symm b hb a ha).mpr hgt).le

theorem Consistent.of_subset {cmp : α → α → ℚ} {xs ys : List α} (h : Consistent cmp ys) (hsub : xs ⊆ ys) :
    Consistent cmp xs where
  refl a ha := h.refl a (hsub ha)
  symm a ha b hb := h.symm a (hsub ha) b (hsub hb)
  trans a ha b hb c hc := h.trans a (hsub ha) b (hsub hb) c (hsub hc)

/-- Where no two elements tie there is one sorted list. -/
theorem SortSpec.eq_of_sorted {sort : (α → α → ℚ) → List α → List α} (h : SortSpec sort)
    {cmp : α → α → ℚ} {xs ys : List α} (hcmp : Consistent cmp xs)
    (hties : ∀ a ∈ xs, ∀ b ∈ xs, cmp a b ≤ 0 → cmp b a ≤ 0 → a = b) (hperm : ys.Perm xs)
    (hsorted : ys.Pairwise fun a b => cmp a b ≤ 0) : sort cmp xs = ys := by
  refine List.Perm.eq_of_pairwise (fun a b ha hb hab hba => ?_) (h.sorted cmp xs hcmp) hsorted
    ((h.perm cmp xs).trans hperm.symm)
  exact hties a ((h.perm cmp xs).mem_iff.mp ha) b (hperm.mem_iff.mp hb) hab hba

/-- Insertion into a sorted list, where the comparator is consistent. -/
theorem pairwise_orderedInsert {cmp : α → α → ℚ} {a : α} {xs : List α}
    (hcmp : Consistent cmp (a :: xs)) (hsorted : xs.Pairwise fun b c => cmp b c ≤ 0) :
    (xs.orderedInsert (fun b c => cmp b c ≤ 0) a).Pairwise fun b c => cmp b c ≤ 0 := by
  induction xs with
  | nil => simp
  | cons x xs ih =>
    rw [List.pairwise_cons] at hsorted
    rw [List.orderedInsert_cons]
    split
    case isTrue hax =>
      refine List.pairwise_cons.mpr ⟨fun c hc => ?_, List.pairwise_cons.mpr hsorted⟩
      rcases List.mem_cons.mp hc with rfl | hc
      · exact hax
      · exact hcmp.trans a (by simp) x (by simp) c (by simp [hc]) hax (hsorted.1 c hc)
    case isFalse hxa =>
      have hrest : Consistent cmp (a :: xs) :=
        hcmp.of_subset (List.cons_subset_cons a (List.subset_cons_self x xs))
      refine List.pairwise_cons.mpr ⟨fun c hc => ?_, ih hrest hsorted.2⟩
      rcases (List.mem_orderedInsert _).mp hc with rfl | hc
      · exact (hcmp.total (by simp) (by simp)).resolve_right hxa
      · exact hsorted.1 c hc

/-- Insertion sort. -/
theorem insertionSort_spec :
    SortSpec fun (cmp : α → α → ℚ) => List.insertionSort fun a b => cmp a b ≤ 0 where
  perm cmp xs := List.perm_insertionSort _ xs
  sorted cmp xs := by
    intro hcmp
    induction xs with
    | nil => exact .nil
    | cons a xs ih =>
      have hsub : a :: xs.insertionSort (fun a b => cmp a b ≤ 0) ⊆ a :: xs :=
        List.cons_subset_cons a (List.perm_insertionSort _ xs).subset
      exact pairwise_orderedInsert (hcmp.of_subset hsub)
        (ih (hcmp.of_subset (List.subset_cons_self a xs)))

end IbTrader.Lib
