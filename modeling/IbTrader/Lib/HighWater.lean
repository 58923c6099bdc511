/-
  IbTrader.Lib.HighWater

  The greatest element of a list from the first on that satisfies a condition: what a high
  water mark that is set by a first event, and raised by later ones, is of all of them.
-/

import Mathlib.Order.MinMax

namespace IbTrader.Lib

variable {α : Type*} [LinearOrder α] (starts : α → Bool)

/-- The greatest from the first that starts it; none while there is no such element. -/
def highWater (l : List α) : Option α := (l.dropWhile fun a => !starts a).max?

theorem max?_concat (l : List α) (a : α) : (l ++ [a]).max? = some (l.max?.elim a (max · a)) := by
  cases l with
  | nil => rfl
  | cons b l => rw [List.cons_append, List.max?_cons', List.max?_cons', List.foldl_append]; rfl

@[simp]
theorem highWater_nil : highWater starts [] = none := rfl

/-- A further element starts the mark, or raises it. -/
theorem highWater_concat (l : List α) (a : α) :
    highWater starts (l ++ [a]) =
      (highWater starts l).elim (if starts a then some a else none) fun mark => some (max mark a) := by
  unfold highWater
  rw [List.dropWhile_append]
  cases hdrop : l.dropWhile (fun a => !starts a) with
  | nil => cases hstarts : starts a <;> simp [hstarts]
  | cons b rest =>
    rw [List.isEmpty_cons, if_neg Bool.false_ne_true, max?_concat]
    rfl

theorem mem_of_highWater_eq_some {l : List α} {mark : α} (h : highWater starts l = some mark) : mark ∈ l :=
  (List.dropWhile_suffix _).subset (List.max?_mem h)

end IbTrader.Lib
