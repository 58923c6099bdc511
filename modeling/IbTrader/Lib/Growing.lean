/-
  IbTrader.Lib.Growing

  Lists that only grow at the end, and what every element has to do with the ones that were
  there before it.
-/

import Mathlib.Data.List.Induction
import Mathlib.Data.List.Pairwise

namespace IbTrader.Lib

variable {α ι : Type*} {R : List α → α → Prop} {xs : List α}

/-- Every element stands in the relation to the list of those before it. -/
def EachAfter (R : List α → α → Prop) (xs : List α) : Prop :=
  ∀ earlier x later, xs = earlier ++ x :: later → R earlier x

namespace EachAfter

theorem nil : EachAfter R [] := by
  intro earlier x later h
  exact absurd h.symm (by simp)

theorem snoc (h : EachAfter R xs) {x : α} (hx : R xs x) : EachAfter R (xs ++ [x]) := by
  intro earlier y later heq
  rcases List.eq_nil_or_concat later with rfl | ⟨later, z, rfl⟩
  · obtain ⟨rfl, hlast⟩ := List.append_inj' heq rfl
    rwa [← List.singleton_inj.mp hlast]
  · rw [List.concat_eq_append, ← List.cons_append, ← List.append_assoc] at heq
    obtain ⟨hxs, -⟩ := List.append_inj' heq rfl
    exact h earlier y later hxs

/-- A scan of which every step leaves the list as it is or appends a fitting element. -/
theorem foldl {step : List α → ι → List α} {P : ι → Prop}
    (hstep : ∀ xs i, P i → step xs i = xs ∨ ∃ x, step xs i = xs ++ [x] ∧ R xs x) (is : List ι) :
    ∀ {xs : List α}, (∀ i ∈ is, P i) → EachAfter R xs → EachAfter R (is.foldl step xs) := by
  induction is with
  | nil => exact fun _ h => h
  | cons i is ih =>
    intro xs his h
    obtain ⟨hi, his⟩ := List.forall_mem_cons.mp his
    rw [List.foldl_cons]
    rcases hstep xs i hi with hsame | ⟨x, hnext, hx⟩
    · rw [hsame]
      exact ih his h
    · rw [hnext]
      exact ih his (h.snoc hx)

theorem of_snoc {x : α} (h : EachAfter R (xs ++ [x])) : EachAfter R xs ∧ R xs x := by
  refine ⟨fun earlier y later heq => h earlier y (later ++ [x]) ?_, h xs x [] rfl⟩
  rw [heq, List.append_assoc, List.cons_append]

/-- Two elements, the first before the second. -/
theorem pairwise {S : α → α → Prop} (hS : ∀ earlier x, R earlier x → ∀ e ∈ earlier, S e x)
    (h : EachAfter R xs) : xs.Pairwise S := by
  induction xs using List.reverseRecOn with
  | nil => exact List.Pairwise.nil
  | append_singleton xs x ih =>
    obtain ⟨hxs, hx⟩ := h.of_snoc
    refine List.pairwise_append.mpr ⟨ih hxs, List.pairwise_singleton S x, fun e he y hy => ?_⟩
    rw [List.mem_singleton.mp hy]
    exact hS xs x hx e he

end EachAfter

end IbTrader.Lib
