/-
  IbTrader.Lib.Gates

  Gates that a candidate passes one after another.

  A violated gate stops it.  In a lenient pass only the hard gates do: of the others the
  names are collected.  The strict passes are the lenient ones that collect nothing
  (`pass_strict_eq_some_iff`), and what is collected are all the gates that are violated
  (`pass_lenient_eq_some_iff`).
-/

import Mathlib.Data.List.Basic

namespace IbTrader.Lib

variable {φ : Type*}

structure Gate (φ : Type*) where
  name : φ
  /-- No pass is lenient about it. -/
  hard : Bool := false
  violated : Bool
  deriving DecidableEq, Repr

namespace Gate

/-- The names of the violated gates that were passed; none where one has stopped the pass. -/
def pass (lenient : Bool) : List (Gate φ) → Option (List φ)
  | [] => some []
  | g :: gates =>
    if g.violated then if lenient && !g.hard then (pass lenient gates).map (g.name :: ·) else none
    else pass lenient gates

variable {gates : List (Gate φ)} {names : List φ}

/-- The gates of two lists, one list after the other. -/
theorem pass_append (lenient : Bool) (gates gates' : List (Gate φ)) :
    pass lenient (gates ++ gates') = (pass lenient gates).bind fun names => (pass lenient gates').map (names ++ ·) := by
  induction gates with
  | nil => exact Option.map_id'.symm
  | cons g gates ih =>
    rw [List.cons_append, pass, pass, ih]
    cases g.violated with
    | false => rfl
    | true =>
      cases lenient && !g.hard with
      | false => rfl
      | true => cases pass lenient gates <;> cases pass lenient gates' <;> rfl

theorem pass_lenient_eq_some_iff :
    pass true gates = some names ↔
      (∀ g ∈ gates, g.hard = true → g.violated = false) ∧ names = (gates.filter Gate.violated).map Gate.name := by
  induction gates generalizing names with
  | nil =>
    rw [pass, Option.some.injEq]
    exact ⟨fun h => ⟨fun _ hg => absurd hg List.not_mem_nil, h.symm⟩, fun h => h.2.symm⟩
  | cons g gates ih =>
    cases hviolated : g.violated with
    | false =>
      rw [pass, hviolated, if_neg Bool.false_ne_true, ih, List.filter_cons_of_neg (by simp [hviolated])]
      simp [hviolated]
    | true =>
      cases hhard : g.hard with
      | true => simp [pass, hviolated, hhard]
      | false =>
        have hcons : pass true (g :: gates) = (pass true gates).map (g.name :: ·) := by simp [pass, hviolated, hhard]
        rw [hcons, Option.map_eq_some_iff, List.filter_cons_of_pos hviolated, List.map_cons]
        constructor
        · rintro ⟨rest, hrest, rfl⟩
          obtain ⟨hpassed, rfl⟩ := ih.mp hrest
          exact ⟨List.forall_mem_cons.mpr ⟨fun h => absurd (hhard.symm.trans h) Bool.false_ne_true, hpassed⟩, rfl⟩
        · rintro ⟨hpassed, rfl⟩
          exact ⟨_, ih.mpr ⟨(List.forall_mem_cons.mp hpassed).2, rfl⟩, rfl⟩

theorem pass_strict_eq_some_iff : pass false gates = some names ↔ pass true gates = some [] ∧ names = [] := by
  have hstrict : pass false gates = some names ↔ (∀ g ∈ gates, g.violated = false) ∧ names = [] := by
    induction gates with
    | nil =>
      rw [pass, Option.some.injEq]
      exact ⟨fun h => ⟨fun _ hg => absurd hg List.not_mem_nil, h.symm⟩, fun h => h.2.symm⟩
    | cons g gates ih =>
      cases hviolated : g.violated with
      | false => simp [pass, hviolated, ih]
      | true => simp [pass, hviolated]
  rw [hstrict, pass_lenient_eq_some_iff]
  refine and_congr_left fun _ => ⟨fun h => ⟨fun g hg _ => h g hg, ?_⟩, fun h g hg => ?_⟩
  · rw [List.filter_eq_nil_iff.mpr fun g hg => by rw [h g hg]; exact Bool.false_ne_true, List.map_nil]
  · have hnone := List.filter_eq_nil_iff.mp (List.map_eq_nil_iff.mp h.2.symm) g hg
    exact Bool.eq_false_iff.mpr hnone

/-- A violated gate that did not stop the pass is a soft one, and is named. -/
theorem name_mem_of_pass {lenient : Bool} (h : pass lenient gates = some names) {g : Gate φ} (hg : g ∈ gates)
    (hviolated : g.violated = true) : g.name ∈ names ∧ g.hard = false := by
  obtain ⟨collected, hpass, hnames⟩ : ∃ collected, pass true gates = some collected ∧ ∀ f ∈ collected, f ∈ names := by
    cases lenient with
    | false =>
      obtain ⟨hpass, rfl⟩ := pass_strict_eq_some_iff.mp h
      exact ⟨[], hpass, fun _ hf => hf⟩
    | true => exact ⟨names, h, fun _ hf => hf⟩
  obtain ⟨hpassed, rfl⟩ := pass_lenient_eq_some_iff.mp hpass
  refine ⟨hnames _ (List.mem_map_of_mem (List.mem_filter.mpr ⟨hg, hviolated⟩)), ?_⟩
  by_contra hhard
  exact Bool.false_ne_true ((hpassed g hg (Bool.not_eq_false _ ▸ hhard)).symm.trans hviolated)

end Gate

end IbTrader.Lib
