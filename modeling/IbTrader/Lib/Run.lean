/-
  IbTrader.Lib.Run

  Runs of a deterministic system under a condition on its steps.

  A step is allowed or not depending on the state it is taken in, so the
  condition on a run is threaded through the run (`Along`).  An invariant that
  every allowed step keeps holds in every state an allowed run reaches
  (`Along.invariant`), and two conditions that agree under an invariant allow the
  same runs (`Along.iff_of_invariant`).  A property that a step keeps exactly when
  it is allowed holds in every state of exactly the allowed runs
  (`Along.iff_forall_prefix`).
-/

import Mathlib.Data.List.Infix

namespace IbTrader.Lib

variable {σ ι : Type*} {next : σ → ι → σ} {P Q : σ → ι → Prop}

/-- Every step of the run meets the condition in the state it is taken in. -/
def Along (next : σ → ι → σ) (P : σ → ι → Prop) : σ → List ι → Prop
  | _, [] => True
  | s, i :: is => P s i ∧ Along next P (next s i) is

instance decidableAlong [∀ s i, Decidable (P s i)] :
    ∀ (s : σ) (is : List ι), Decidable (Along next P s is)
  | _, [] => isTrue trivial
  | s, i :: is =>
    have := decidableAlong (next s i) is
    inferInstanceAs (Decidable (P s i ∧ Along next P (next s i) is))

namespace Along

/-- An invariant that the allowed steps keep holds after an allowed run. -/
theorem invariant {I : σ → Prop} (hstep : ∀ s i, I s → P s i → I (next s i)) (is : List ι) :
    ∀ {s : σ}, I s → Along next P s is → I (is.foldl next s) := by
  induction is with
  | nil => intro s hs _; exact hs
  | cons i is ih =>
    intro s hs halong
    exact ih (hstep s i hs halong.1) halong.2

/-- A condition that follows from another wherever an invariant holds is met along
    the runs that the other allows. -/
theorem imp_of_invariant {I : σ → Prop} (hstep : ∀ s i, I s → I (next s i))
    (h : ∀ s i, I s → P s i → Q s i) (is : List ι) :
    ∀ {s : σ}, I s → Along next P s is → Along next Q s is := by
  induction is with
  | nil => intro s _ _; exact trivial
  | cons i is ih =>
    intro s hs halong
    exact ⟨h s i hs halong.1, ih (hstep s i hs) halong.2⟩

/-- Two conditions that agree wherever an invariant of the allowed steps holds allow
    the same runs. -/
theorem iff_of_kept {I : σ → Prop} (hstep : ∀ s i, I s → P s i → I (next s i))
    (h : ∀ s i, I s → (P s i ↔ Q s i)) (is : List ι) :
    ∀ {s : σ}, I s → (Along next P s is ↔ Along next Q s is) := by
  induction is with
  | nil => intro s _; exact Iff.rfl
  | cons i is ih =>
    intro s hs
    rw [Along, Along, ← h s i hs]
    exact and_congr_right fun hP => ih (hstep s i hs hP)

/-- Two conditions that agree wherever an invariant holds allow the same runs. -/
theorem iff_of_invariant {I : σ → Prop} (hstep : ∀ s i, I s → I (next s i))
    (h : ∀ s i, I s → (P s i ↔ Q s i)) (is : List ι) :
    ∀ {s : σ}, I s → (Along next P s is ↔ Along next Q s is) :=
  iff_of_kept (fun s i hs _ => hstep s i hs) h is

/-- If an allowed step is one after which the property holds, an allowed run is one
    throughout which it holds. -/
theorem iff_forall_prefix {I J : σ → Prop} (hstep : ∀ s i, I s → I (next s i))
    (h : ∀ s i, I s → J s → (J (next s i) ↔ P s i)) (is : List ι) :
    ∀ {s : σ}, I s → J s →
      ((∀ js, js <+: is → J (js.foldl next s)) ↔ Along next P s is) := by
  induction is with
  | nil =>
    intro s _ hJ
    refine ⟨fun _ => trivial, fun _ js hjs => ?_⟩
    rw [List.prefix_nil.mp hjs]
    exact hJ
  | cons i is ih =>
    intro s hI hJ
    constructor
    · intro hall
      have hfirst : J (next s i) := hall [i] ⟨is, rfl⟩
      refine ⟨(h s i hI hJ).mp hfirst, (ih (hstep s i hI) hfirst).mp fun js hjs => ?_⟩
      exact hall (i :: js) (List.cons_prefix_cons.mpr ⟨rfl, hjs⟩)
    · rintro ⟨hP, halong⟩ js hjs
      cases js with
      | nil => exact hJ
      | cons j js =>
        obtain ⟨rfl, htail⟩ := List.cons_prefix_cons.mp hjs
        exact (ih (hstep s j hI) ((h s j hI hJ).mpr hP)).mpr halong js htail

theorem append (is js : List ι) :
    ∀ {s : σ}, Along next P s (is ++ js) ↔
      Along next P s is ∧ Along next P (is.foldl next s) js := by
  induction is with
  | nil => intro s; simp [Along]
  | cons i is ih =>
    intro s
    simp only [List.cons_append, Along, List.foldl_cons, ih, and_assoc]

/-- Every step of the run, with the state it is taken in. -/
theorem iff_forall_snoc (is : List ι) :
    ∀ {s : σ}, Along next P s is ↔ ∀ js i, js ++ [i] <+: is → P (js.foldl next s) i := by
  induction is with
  | nil =>
    intro s
    refine iff_of_true trivial fun js i hjs => ?_
    exact absurd (List.prefix_nil.mp hjs) (List.append_ne_nil_of_right_ne_nil js (List.cons_ne_nil i []))
  | cons i is ih =>
    intro s
    rw [Along, ih]
    constructor
    · rintro ⟨hP, hrest⟩ js j hjs
      cases js with
      | nil =>
        obtain ⟨rfl, -⟩ := List.cons_prefix_cons.mp hjs
        exact hP
      | cons j' js =>
        obtain ⟨rfl, htail⟩ := List.cons_prefix_cons.mp hjs
        exact hrest js j htail
    · exact fun hall => ⟨hall [] i ⟨is, rfl⟩, fun js j hjs => hall (i :: js) j (List.cons_prefix_cons.mpr ⟨rfl, hjs⟩)⟩

/-- A condition that the state does not enter into. -/
theorem of_forall {R : ι → Prop} (is : List ι) (h : ∀ i ∈ is, R i) :
    ∀ {s : σ}, Along next (fun _ i => R i) s is := by
  induction is with
  | nil => exact trivial
  | cons i is ih =>
    obtain ⟨hi, his⟩ := List.forall_mem_cons.mp h
    exact ⟨hi, ih his⟩

/-- Two conditions. -/
theorem and (is : List ι) :
    ∀ {s : σ}, Along next P s is → Along next Q s is → Along next (fun s i => P s i ∧ Q s i) s is := by
  induction is with
  | nil => intro s _ _; exact trivial
  | cons i is ih =>
    intro s hP hQ
    exact ⟨⟨hP.1, hQ.1⟩, ih hP.2 hQ.2⟩

end Along

end IbTrader.Lib
