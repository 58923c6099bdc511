/-
  IbTrader.Lib.KeyedSum

  The sum of an amount over the elements of a list that have a key.

  Taking an element out of the list takes its amount out of the sum of its key and
  of no other (`keyedSum_erase`), so amounts that move from one list to another
  keep the total of every key.
-/

import Mathlib.Algebra.BigOperators.Group.List.Basic

namespace IbTrader.Lib

variable {α κ K : Type*} [DecidableEq κ] [AddCommGroup K] {key : α → κ} {amount : α → K} {k : κ}

/-- The amounts of the elements with the key, added up. -/
def keyedSum (key : α → κ) (amount : α → K) (k : κ) (xs : List α) : K :=
  ((xs.filter fun x => key x = k).map amount).sum

@[simp] theorem keyedSum_nil : keyedSum key amount k [] = 0 := rfl

@[simp] theorem keyedSum_cons (x : α) (xs : List α) :
    keyedSum key amount k (x :: xs) = (if key x = k then amount x else 0) + keyedSum key amount k xs := by
  unfold keyedSum
  by_cases h : key x = k
  · rw [List.filter_cons_of_pos (by simpa using h), List.map_cons, List.sum_cons, if_pos h]
  · rw [List.filter_cons_of_neg (by simpa using h), if_neg h, zero_add]

@[simp] theorem keyedSum_append (xs ys : List α) :
    keyedSum key amount k (xs ++ ys) = keyedSum key amount k xs + keyedSum key amount k ys := by
  unfold keyedSum
  rw [List.filter_append, List.map_append, List.sum_append]

/-- The order of the list does not matter. -/
theorem keyedSum_perm {xs ys : List α} (h : xs.Perm ys) :
    keyedSum key amount k xs = keyedSum key amount k ys :=
  ((h.filter _).map amount).sum_eq

/-- An element taken out takes its amount out of the sum of its key. -/
theorem keyedSum_erase [DecidableEq α] {x : α} {xs : List α} (h : x ∈ xs) :
    keyedSum key amount k (xs.erase x) =
      keyedSum key amount k xs - if key x = k then amount x else 0 := by
  rw [keyedSum_perm (List.perm_cons_erase h), keyedSum_cons, add_sub_cancel_left]

/-- Without an element of the key the sum is zero. -/
theorem keyedSum_eq_zero {xs : List α} (h : ∀ x ∈ xs, key x ≠ k) : keyedSum key amount k xs = 0 := by
  unfold keyedSum
  rw [List.filter_eq_nil_iff.mpr fun x hx => by simpa using h x hx]
  rfl

end IbTrader.Lib
