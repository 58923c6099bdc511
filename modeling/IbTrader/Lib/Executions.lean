/-
  IbTrader.Lib.Executions

  The executions of an order, and what a report of them says.

  An order is executed in parts, each with its own price.  A report adds up the
  executions made so far: their quantity, and the price they average.  What is
  reported never exceeds what is executed (`qty_le_of_prefix`), and a report of the
  whole quantity is one of all executions (`eq_of_prefix_of_qty`).  The average lies
  between any bounds of the prices (`le_avgPrice`, `avgPrice_le`).
-/

import Mathlib.Algebra.BigOperators.Group.List.Basic
import Mathlib.Algebra.Order.Field.Basic
import Mathlib.Algebra.Order.BigOperators.Group.List
import Mathlib.Data.List.Infix
import Mathlib.Tactic.Linarith

namespace IbTrader.Lib

/-- An execution of an order. -/
structure Execution (K : Type*) where
  qty : K
  price : K
  commission : K
  deriving DecidableEq, Repr

namespace Executions

variable {K : Type*} [Field K]

/-- The quantity executed. -/
def qty (xs : List (Execution K)) : K := (xs.map (·.qty)).sum

/-- Price times quantity. -/
def notional (xs : List (Execution K)) : K := (xs.map fun x => x.price * x.qty).sum

def commission (xs : List (Execution K)) : K := (xs.map (·.commission)).sum

/-- The quantity-weighted average price. -/
def avgPrice (xs : List (Execution K)) : K := notional xs / qty xs

@[simp] theorem qty_nil : qty ([] : List (Execution K)) = 0 := rfl

@[simp] theorem qty_cons (x : Execution K) (xs : List (Execution K)) :
    qty (x :: xs) = x.qty + qty xs := by simp [qty]

@[simp] theorem qty_append (xs ys : List (Execution K)) : qty (xs ++ ys) = qty xs + qty ys := by
  simp [qty]

@[simp] theorem notional_nil : notional ([] : List (Execution K)) = 0 := rfl

@[simp] theorem notional_cons (x : Execution K) (xs : List (Execution K)) :
    notional (x :: xs) = x.price * x.qty + notional xs := by simp [notional]

@[simp] theorem notional_append (xs ys : List (Execution K)) :
    notional (xs ++ ys) = notional xs + notional ys := by simp [notional]

variable [LinearOrder K]

/-- Executions are of a positive quantity at a positive price. -/
def Positive (xs : List (Execution K)) : Prop := ∀ x ∈ xs, 0 < x.qty ∧ 0 < x.price

instance (xs : List (Execution K)) : Decidable (Positive xs) := by
  unfold Positive; infer_instance

section Positive

variable {xs seen : List (Execution K)}

theorem Positive.of_prefix (h : Positive xs) (hseen : seen <+: xs) : Positive seen :=
  fun x hx => h x (hseen.subset hx)

variable [IsStrictOrderedRing K]

theorem qty_nonneg (h : Positive xs) : 0 ≤ qty xs :=
  List.sum_nonneg fun _ hq => by
    obtain ⟨x, hx, rfl⟩ := List.mem_map.mp hq
    exact (h x hx).1.le

theorem qty_pos (h : Positive xs) (hne : xs ≠ []) : 0 < qty xs := by
  cases xs with
  | nil => exact absurd rfl hne
  | cons x xs =>
    have hrest : 0 ≤ qty xs := qty_nonneg fun y hy => h y (List.mem_cons_of_mem x hy)
    rw [qty_cons]
    exact add_pos_of_pos_of_nonneg (h x List.mem_cons_self).1 hrest

theorem eq_nil_of_qty (h : Positive xs) (hzero : qty xs = 0) : xs = [] := by
  by_contra hne
  exact (qty_pos h hne).ne' hzero

theorem notional_pos (h : Positive xs) (hne : xs ≠ []) : 0 < notional xs := by
  cases xs with
  | nil => exact absurd rfl hne
  | cons x xs =>
    have hrest : 0 ≤ notional xs := by
      refine List.sum_nonneg fun _ hv => ?_
      obtain ⟨y, hy, rfl⟩ := List.mem_map.mp hv
      obtain ⟨hqty, hprice⟩ := h y (List.mem_cons_of_mem x hy)
      exact (mul_pos hprice hqty).le
    obtain ⟨hqty, hprice⟩ := h x List.mem_cons_self
    rw [notional_cons]
    exact add_pos_of_pos_of_nonneg (mul_pos hprice hqty) hrest

theorem avgPrice_pos (h : Positive xs) (hne : xs ≠ []) : 0 < avgPrice xs :=
  div_pos (notional_pos h hne) (qty_pos h hne)

theorem qty_mul_avgPrice (h : Positive xs) : qty xs * avgPrice xs = notional xs := by
  by_cases hne : xs = []
  · simp [hne]
  · exact mul_div_cancel₀ _ (qty_pos h hne).ne'

/-- No more is reported than is executed. -/
theorem qty_le_of_prefix (h : Positive xs) (hseen : seen <+: xs) : qty seen ≤ qty xs := by
  obtain ⟨later, rfl⟩ := hseen
  have hlater : 0 ≤ qty later := qty_nonneg fun x hx => h x (List.mem_append_right seen hx)
  rw [qty_append]
  linarith

/-- A report of the whole quantity is one of all executions. -/
theorem eq_of_prefix_of_qty (h : Positive xs) (hseen : seen <+: xs) (hqty : qty seen = qty xs) :
    seen = xs := by
  obtain ⟨later, rfl⟩ := hseen
  have hlater : Positive later := fun x hx => h x (List.mem_append_right seen hx)
  have hnone : later = [] := by
    refine eq_nil_of_qty hlater ?_
    rw [qty_append] at hqty
    linarith
  rw [hnone, List.append_nil]

end Positive

-- ============================================================================
-- The average lies between the prices
-- ============================================================================

section Between

variable [IsStrictOrderedRing K] {xs : List (Execution K)} {bound : K}

theorem qty_mul_le_notional (hqty : ∀ x ∈ xs, 0 < x.qty) (hprice : ∀ x ∈ xs, bound ≤ x.price) :
    bound * qty xs ≤ notional xs := by
  induction xs with
  | nil => simp
  | cons x xs ih =>
    have hrest := ih (fun y hy => hqty y (List.mem_cons_of_mem x hy))
      (fun y hy => hprice y (List.mem_cons_of_mem x hy))
    have hx : bound * x.qty ≤ x.price * x.qty :=
      mul_le_mul_of_nonneg_right (hprice x List.mem_cons_self) (hqty x List.mem_cons_self).le
    rw [qty_cons, notional_cons, mul_add]
    exact add_le_add hx hrest

theorem notional_le_qty_mul (hqty : ∀ x ∈ xs, 0 < x.qty) (hprice : ∀ x ∈ xs, x.price ≤ bound) :
    notional xs ≤ bound * qty xs := by
  induction xs with
  | nil => simp
  | cons x xs ih =>
    have hrest := ih (fun y hy => hqty y (List.mem_cons_of_mem x hy))
      (fun y hy => hprice y (List.mem_cons_of_mem x hy))
    have hx : x.price * x.qty ≤ bound * x.qty :=
      mul_le_mul_of_nonneg_right (hprice x List.mem_cons_self) (hqty x List.mem_cons_self).le
    rw [qty_cons, notional_cons, mul_add]
    exact add_le_add hx hrest

/-- Where a positive quantity is executed, the average is no lower than a lower bound
    of the prices. -/
theorem le_avgPrice (hqty : ∀ x ∈ xs, 0 < x.qty) (htotal : 0 < qty xs)
    (hprice : ∀ x ∈ xs, bound ≤ x.price) : bound ≤ avgPrice xs :=
  (le_div_iff₀ htotal).mpr (qty_mul_le_notional hqty hprice)

/-- And no higher than an upper bound. -/
theorem avgPrice_le (hqty : ∀ x ∈ xs, 0 < x.qty) (htotal : 0 < qty xs)
    (hprice : ∀ x ∈ xs, x.price ≤ bound) : avgPrice xs ≤ bound :=
  (div_le_iff₀ htotal).mpr (notional_le_qty_mul hqty hprice)

end Between

end Executions

end IbTrader.Lib
