/-
  IbTrader.Lib.Least

  The least number of a set, if there is one, as a program computes it: a search returns
  the first, a scan keeps the smaller of two, and a set in two parts has the smaller of the
  least of either.
-/

import Mathlib.Order.Bounds.Basic
import Mathlib.Order.MinMax

namespace IbTrader.Lib

/-- The least number of the set; none where it is empty. -/
def LeastOf (o : Option ℕ) (S : Set ℕ) : Prop := ∀ b, o = some b ↔ IsLeast S b

namespace LeastOf

variable {o o' : Option ℕ} {S T : Set ℕ}

theorem empty : LeastOf none ∅ := by
  intro b
  constructor
  · exact fun h => absurd h.symm (Option.some_ne_none b)
  · exact fun h => absurd h.1 (Set.notMem_empty b)

theorem mem (h : LeastOf o S) {b : ℕ} (hb : o = some b) : b ∈ S := ((h b).mp hb).1

theorem le (h : LeastOf o S) {b i : ℕ} (hb : o = some b) (hi : i ∈ S) : b ≤ i := ((h b).mp hb).2 hi

/-- Only an empty set has none. -/
theorem not_mem (h : LeastOf o S) (ho : o = none) (i : ℕ) : i ∉ S := by
  induction i using Nat.strongRecOn with
  | ind i ih =>
    intro hi
    have hleast := (h i).mpr ⟨hi, fun j hj => not_lt.mp fun hlt => ih j hlt hj⟩
    rw [ho] at hleast
    exact absurd hleast.symm (Option.some_ne_none i)

/-- What is in the set is no smaller. -/
theorem exists_le (h : LeastOf o S) {i : ℕ} (hi : i ∈ S) : ∃ b, o = some b ∧ b ≤ i := by
  cases ho : o with
  | none => exact absurd hi (h.not_mem ho i)
  | some b => exact ⟨b, rfl, h.le ho hi⟩

theorem of_spec (hmem : ∀ b, o = some b → b ∈ S) (hle : ∀ i ∈ S, ∃ b, o = some b ∧ b ≤ i) : LeastOf o S := by
  intro b
  constructor
  · intro hb
    refine ⟨hmem b hb, fun i hi => ?_⟩
    obtain ⟨c, hc, hci⟩ := hle i hi
    rw [hb, Option.some.injEq] at hc
    rwa [hc]
  · intro hleast
    obtain ⟨c, hc, hcb⟩ := hle b hleast.1
    rw [hc, Nat.le_antisymm hcb (hleast.2 (hmem c hc))]

theorem singleton (b : ℕ) : LeastOf (some b) {b} := by
  apply of_spec
  · intro c hc
    exact (Option.some.inj hc).symm
  · intro i hi
    exact ⟨b, rfl, le_of_eq hi.symm⟩

/-- A set in two parts. -/
theorem union (h : LeastOf o S) (h' : LeastOf o' T) : LeastOf (o.merge min o') (S ∪ T) := by
  apply of_spec
  · intro b hb
    cases o with
    | none =>
      rw [Option.merge_none_left] at hb
      exact .inr (h'.mem hb)
    | some x =>
      cases o' with
      | none =>
        rw [Option.merge_none_right] at hb
        exact .inl (h.mem hb)
      | some y =>
        rw [Option.merge_some_some, Option.some.injEq] at hb
        rcases min_choice x y with hmin | hmin
        · exact .inl (h.mem (by rw [← hb, hmin]))
        · exact .inr (h'.mem (by rw [← hb, hmin]))
  · intro i hi
    rcases hi with hi | hi
    · obtain ⟨x, rfl, hx⟩ := h.exists_le hi
      cases o' with
      | none => exact ⟨x, Option.merge_none_right, hx⟩
      | some y => exact ⟨min x y, Option.merge_some_some, (min_le_left x y).trans hx⟩
    · obtain ⟨y, rfl, hy⟩ := h'.exists_le hi
      cases o with
      | none => exact ⟨y, Option.merge_none_left, hy⟩
      | some x => exact ⟨min x y, Option.merge_some_some, (min_le_right x y).trans hy⟩

/-- A scan of which every step keeps the smaller of two. -/
theorem foldl {α : Type*} {step : Option ℕ → α → Option ℕ} {R : α → Set ℕ}
    (hstep : ∀ o a, ∃ o', step o a = o.merge min o' ∧ LeastOf o' (R a)) (as : List α) :
    ∀ {o : Option ℕ} {S : Set ℕ}, LeastOf o S →
      LeastOf (as.foldl step o) (S ∪ {i | ∃ a ∈ as, i ∈ R a}) := by
  induction as with
  | nil =>
    intro o S h
    simpa using h
  | cons a as ih =>
    intro o S h
    have hset : S ∪ {i | ∃ b ∈ a :: as, i ∈ R b} = (S ∪ R a) ∪ {i | ∃ b ∈ as, i ∈ R b} := by
      ext i
      simp [or_assoc]
    obtain ⟨o', hnext, ho'⟩ := hstep o a
    rw [hset, List.foldl_cons, hnext]
    exact ih (h.union ho')

/-- A search. -/
theorem find?_range' (p : ℕ → Bool) (start count : ℕ) :
    LeastOf ((List.range' start count).find? p) {i | start ≤ i ∧ i < start + count ∧ p i} := by
  apply of_spec
  · intro b hb
    rw [List.find?_range'_eq_some] at hb
    obtain ⟨hp, hmem, -⟩ := hb
    rw [List.mem_range'_1] at hmem
    exact ⟨hmem.1, hmem.2, hp⟩
  · rintro i ⟨hstart, hcount, hp⟩
    cases hfind : (List.range' start count).find? p with
    | none =>
      rw [List.find?_range'_eq_none] at hfind
      have hnot := hfind i hstart hcount
      rw [hp] at hnot
      exact absurd hnot (by decide)
    | some b =>
      rw [List.find?_range'_eq_some] at hfind
      obtain ⟨-, -, hfirst⟩ := hfind
      refine ⟨b, rfl, not_lt.mp fun hlt => ?_⟩
      have hnot := hfirst i hstart hlt
      rw [hp] at hnot
      exact absurd hnot (by decide)

end LeastOf

end IbTrader.Lib
