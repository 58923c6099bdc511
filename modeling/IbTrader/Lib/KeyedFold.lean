/-
  IbTrader.Lib.KeyedFold

  A pass over a list of items, each with a key, over a state that is a view for
  each key.

  A step that moves the view of its own key by a function of that view and leaves
  every other view acts on each key by itself: over a list without repeated keys
  the pass applies to the view of an item its own function, once
  (`KeyedStep.view_foldl`), and leaves the views of the other keys
  (`KeyedStep.view_foldl_of_not_mem`).  Over any list it acts on the view of a key
  through the items of that key (`KeyedStep.view_foldl_filter`).
-/

import Mathlib.Data.List.Nodup

namespace IbTrader.Lib

variable {σ κ ι β : Type*}

/-- A step moves the view of its own key by `act` and no other view. -/
structure KeyedStep (view : σ → κ → β) (key : ι → κ) (act : ι → β → β) (step : σ → ι → σ) :
    Prop where
  own : ∀ s i, view (step s i) (key i) = act i (view s (key i))
  other : ∀ s i k, k ≠ key i → view (step s i) k = view s k

namespace KeyedStep

variable {view : σ → κ → β} {key : ι → κ} {act : ι → β → β} {step : σ → ι → σ}

/-- A pass leaves the view of a key it does not meet. -/
theorem view_foldl_of_not_mem (h : KeyedStep view key act step) {k : κ} :
    ∀ (is : List ι) (s : σ), k ∉ is.map key → view (is.foldl step s) k = view s k := by
  intro is
  induction is with
  | nil => intro s _; rfl
  | cons i is ih =>
    intro s hk
    rw [List.map_cons, List.mem_cons, not_or] at hk
    rw [List.foldl_cons, ih (step s i) hk.2, h.other s i k hk.1]

/-- A pass over distinct keys applies to the view of each item its own function. -/
theorem view_foldl (h : KeyedStep view key act step) {i : ι} :
    ∀ (is : List ι) (s : σ), (is.map key).Nodup → i ∈ is →
      view (is.foldl step s) (key i) = act i (view s (key i)) := by
  intro is
  induction is with
  | nil => intro s _ hi; cases hi
  | cons j is ih =>
    intro s hnodup hi
    rw [List.map_cons, List.nodup_cons] at hnodup
    rw [List.foldl_cons]
    by_cases hj : key i = key j
    · -- the key does not come again
      have hi' : i = j := by
        rcases List.mem_cons.mp hi with hij | hmem
        · exact hij
        · exact absurd (hj ▸ List.mem_map_of_mem hmem) hnodup.1
      subst hi'
      rw [h.view_foldl_of_not_mem is (step s i) hnodup.1, h.own]
    · have hmem : i ∈ is := by
        rcases List.mem_cons.mp hi with hij | hmem
        · exact absurd (congrArg key hij) hj
        · exact hmem
      rw [ih (step s j) hnodup.2 hmem, h.other s j _ hj]

/-- A pass acts on the view of a key through the items of the key alone. -/
theorem view_foldl_filter [DecidableEq κ] (h : KeyedStep view key act step) {k : κ} :
    ∀ (is : List ι) (s : σ), view (is.foldl step s) k =
      (is.filter (key · = k)).foldl (fun b i => act i b) (view s k) := by
  intro is
  induction is with
  | nil => intro s; rfl
  | cons i is ih =>
    intro s
    rw [List.foldl_cons, ih]
    by_cases hk : key i = k
    · subst hk
      rw [List.filter_cons_of_pos (by simp), List.foldl_cons, h.own]
    · rw [List.filter_cons_of_neg (by simpa using hk), h.other s i k (Ne.symm hk)]

end KeyedStep

end IbTrader.Lib
