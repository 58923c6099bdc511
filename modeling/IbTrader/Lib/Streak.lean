/-
  IbTrader.Lib.Streak

  How many of the last elements in a row have a property.

  A counter that goes up with each element that has the property and back to zero with
  each that has not counts the streak (`streak_concat`), and the streak is so long when so
  many of the last elements all have the property (`le_streak_iff`).
-/

import Mathlib.Data.List.Basic
import Mathlib.Data.List.Induction
import Mathlib.Data.List.TakeWhile

namespace IbTrader.Lib

variable {α : Type*}

/-- How many of the last elements have the property, up to one that has not. -/
def streak (p : α → Bool) (l : List α) : ℕ := (l.reverse.takeWhile p).length

section Streak

variable {p : α → Bool} {l : List α} {a : α}

@[simp] theorem streak_nil (p : α → Bool) : streak p ([] : List α) = 0 := rfl

theorem streak_concat (p : α → Bool) (l : List α) (a : α) :
    streak p (l ++ [a]) = if p a then streak p l + 1 else 0 := by
  unfold streak
  rw [List.reverse_concat, List.takeWhile_cons]
  split <;> rfl

/-- So many of the last elements all have the property. -/
theorem le_streak_iff (n : ℕ) (l : List α) :
    n ≤ streak p l ↔ n ≤ l.length ∧ ∀ a ∈ l.drop (l.length - n), p a = true := by
  induction l using List.reverseRecOn generalizing n with
  | nil => simp [streak]
  | append_singleton l a ih =>
    rw [streak_concat]
    cases n with
    | zero => simp
    | succ n =>
      have hdrop : (l ++ [a]).drop ((l ++ [a]).length - (n + 1)) = l.drop (l.length - n) ++ [a] := by
        rw [List.length_append, List.length_singleton, Nat.add_sub_add_right,
          List.drop_append_of_le_length (Nat.sub_le _ _)]
      rw [hdrop]
      split
      case isTrue hp =>
        rw [Nat.add_le_add_iff_right, ih, List.length_append, List.length_singleton, Nat.add_le_add_iff_right]
        refine and_congr_right fun _ => ⟨fun hall b hb => ?_, fun hall b hb => hall b (List.mem_append_left _ hb)⟩
        rcases List.mem_append.mp hb with hb | hb
        · exact hall b hb
        · exact List.mem_singleton.mp hb ▸ hp
      case isFalse hp =>
        refine iff_of_false (Nat.not_succ_le_zero n) fun ⟨_, hall⟩ => hp (hall a (by simp))

end Streak

end IbTrader.Lib
