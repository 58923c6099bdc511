/-
  IbTrader.Lib.Causal

  Functions from lists to lists that answer every element, and answer it without looking
  at later ones.

  A causal function may be given the whole list at once, or the part of it that is known
  so far: the answers to that part are the same (`Causal.take`).  What is computed for each
  position from the elements up to it is causal (`causal_positions`), what a machine answers
  to a list is (`causal_transduce`), and so is one after another (`Causal.comp`).
-/

import Mathlib.Data.List.Basic

namespace IbTrader.Lib

variable {α β γ σ : Type*}

/-- Every element is answered, by the elements up to it. -/
structure Causal (f : List α → List β) : Prop where
  length : ∀ xs, (f xs).length = xs.length
  take : ∀ xs ys, (f (xs ++ ys)).take xs.length = f xs

/-- The answers of a machine to a list. -/
def transduce (step : σ → α → σ × β) : σ → List α → List β
  | _, [] => []
  | s, x :: xs => (step s x).2 :: transduce step (step s x).1 xs

@[simp] theorem length_transduce (step : σ → α → σ × β) (s : σ) (xs : List α) :
    (transduce step s xs).length = xs.length := by
  induction xs generalizing s with
  | nil => rfl
  | cons x xs ih => rw [transduce, List.length_cons, List.length_cons, ih]

theorem take_transduce (step : σ → α → σ × β) (s : σ) (xs ys : List α) :
    (transduce step s (xs ++ ys)).take xs.length = transduce step s xs := by
  induction xs generalizing s with
  | nil => rfl
  | cons x xs ih => rw [List.cons_append, transduce, transduce, List.length_cons, List.take_succ_cons, ih]

theorem causal_transduce (step : σ → α → σ × β) (s : σ) : Causal (transduce step s) where
  length := length_transduce step s
  take := take_transduce step s

/-- What is computed for each position, from elements up to it. -/
theorem causal_positions {g : List α → ℕ → β}
    (h : ∀ xs ys i, i < xs.length → g (xs ++ ys) i = g xs i) :
    Causal fun xs => (List.range xs.length).map (g xs) where
  length xs := by rw [List.length_map, List.length_range]
  take xs ys := by
    rw [← List.map_take, List.take_range, List.length_append, Nat.min_eq_left (Nat.le_add_right _ _)]
    exact List.map_congr_left fun i hi => h xs ys i (List.mem_range.mp hi)

namespace Causal

variable {f : List α → List β} {g : List β → List γ}

/-- What a part of the list is answered starts what the list is answered. -/
theorem append_eq (hf : Causal f) (xs ys : List α) : ∃ rest, f (xs ++ ys) = f xs ++ rest :=
  ⟨(f (xs ++ ys)).drop xs.length, by rw [← hf.take xs ys, List.take_append_drop]⟩

theorem comp (hg : Causal g) (hf : Causal f) : Causal fun xs => g (f xs) where
  length xs := by rw [hg.length, hf.length]
  take xs ys := by
    obtain ⟨rest, hrest⟩ := hf.append_eq xs ys
    rw [hrest, ← hf.length xs]
    exact hg.take (f xs) rest

end Causal

end IbTrader.Lib
