/-
  IbTrader.Lib.Coroutines

  Tasks that take turns: each is a list of instructions, and it runs until one of them
  waits.

  While a task runs nothing else does, so what an instruction keeps is kept to the next
  place where the task waits (`execute_invariant`).  Instructions may be allowed or not
  depending on the state they are reached in (`Allowed`).  What the tasks in flight add
  up to does not depend on their order (`total_eraseIdx`, `total_park`).
-/

import Mathlib.Algebra.BigOperators.Group.List.Basic
import Mathlib.Algebra.GroupWithZero.Nat

namespace IbTrader.Lib.Coroutines

variable {σ ι τ : Type*}

/-- What an instruction does: the task goes on in another state, or it waits, with some
    instructions of its own for when it is resumed. -/
inductive Next (σ ι : Type*)
  | go (s : σ)
  | wait (first : List ι)

/-- The state in which the task goes on. -/
def Next.state : Next σ ι → Option σ
  | .go s => some s
  | .wait _ => none

section Execute

variable (run : σ → ι → Next σ ι)

/-- Run a task until it waits or ends: the state, and what is left of the task. -/
def execute : σ → List ι → σ × List ι
  | s, [] => (s, [])
  | s, i :: is =>
    match run s i with
    | .go s' => execute s' is
    | .wait first => (s, first ++ is)

/-- Each instruction that a task reaches before it waits is allowed, in its state and
    before what comes after it. -/
def Allowed (P : σ → ι → List ι → Prop) : σ → List ι → Prop
  | _, [] => True
  | s, i :: is => P s i is ∧ ∀ s' ∈ (run s i).state, Allowed P s' is

instance decidableAllowed {P : σ → ι → List ι → Prop} [∀ s i is, Decidable (P s i is)] :
    ∀ (s : σ) (is : List ι), Decidable (Allowed run P s is)
  | _, [] => isTrue trivial
  | s, i :: is =>
    have (s' : σ) : Decidable (Allowed run P s' is) := decidableAllowed s' is
    inferInstanceAs (Decidable (P s i is ∧ ∀ s' ∈ (run s i).state, Allowed run P s' is))

variable {run}

/-- What every allowed instruction keeps holds where the task waits or ends. -/
theorem execute_invariant {I : σ → List ι → Prop} {P : σ → ι → List ι → Prop}
    (hgo : ∀ s i is s', run s i = .go s' → P s i is → I s (i :: is) → I s' is)
    (hwait : ∀ s i is first, run s i = .wait first → P s i is → I s (i :: is) → I s (first ++ is)) :
    ∀ (is : List ι) {s : σ}, Allowed run P s is → I s is → I (execute run s is).1 (execute run s is).2 := by
  intro is
  induction is with
  | nil => exact fun _ h => h
  | cons i is ih =>
    intro s hallowed h
    obtain ⟨hP, hrest⟩ := hallowed
    unfold execute
    cases hrun : run s i with
    | go s' => exact ih (hrest s' (by rw [hrun]; rfl)) (hgo s i is s' hrun hP h)
    | wait first => exact hwait s i is first hrun hP h

/-- What holds of every instruction of a task, and of what it waits with, holds of what
    is left of it. -/
theorem execute_forall {Q : ι → Prop} (hwait : ∀ s i first, run s i = .wait first → Q i → ∀ j ∈ first, Q j)
    (is : List ι) : ∀ {s : σ}, (∀ i ∈ is, Q i) → ∀ i ∈ (execute run s is).2, Q i := by
  induction is with
  | nil => exact fun h => h
  | cons i is ih =>
    intro s h
    obtain ⟨hi, his⟩ := List.forall_mem_cons.mp h
    unfold execute
    cases hrun : run s i with
    | go s' => exact ih his
    | wait first => exact List.forall_mem_append.mpr ⟨hwait s i first hrun hi, his⟩

/-- A weaker condition, on the instructions that the task has. -/
theorem Allowed.mono {P P' : σ → ι → List ι → Prop} (is : List ι)
    (h : ∀ i ∈ is, ∀ s js, P s i js → P' s i js) : ∀ {s : σ}, Allowed run P s is → Allowed run P' s is := by
  induction is with
  | nil => exact fun _ => trivial
  | cons i is ih =>
    rintro s ⟨hP, hrest⟩
    refine ⟨h i List.mem_cons_self s is hP, fun s' hs' => ?_⟩
    exact ih (fun j hj => h j (List.mem_cons_of_mem i hj)) (hrest s' hs')

end Execute

-- ============================================================================
-- Tasks in flight
-- ============================================================================

/-- What is left of a task, and what is remembered of it. -/
structure Task (τ ι : Type*) where
  tag : τ
  instrs : List ι
  deriving DecidableEq, Repr

/-- A task that is not done waits with the others. -/
def park (tasks : List (Task τ ι)) (t : Task τ ι) : List (Task τ ι) :=
  match t.instrs with
  | [] => tasks
  | _ :: _ => tasks ++ [t]

/-- What the tasks add up to. -/
def total (f : List ι → ℕ) (tasks : List (Task τ ι)) : ℕ := (tasks.map fun t => f t.instrs).sum

section Total

variable {f : List ι → ℕ} {tasks : List (Task τ ι)} {t : Task τ ι}

@[simp] theorem total_nil : total f ([] : List (Task τ ι)) = 0 := rfl

theorem total_park (hf : f [] = 0) : total f (park tasks t) = total f tasks + f t.instrs := by
  unfold park
  split
  case h_1 hnil => rw [hnil, hf, Nat.add_zero]
  case h_2 => simp [total]

/-- One of the tasks and the others. -/
theorem total_eraseIdx {i : ℕ} (h : tasks[i]? = some t) :
    total f tasks = total f (tasks.eraseIdx i) + f t.instrs := by
  obtain ⟨hi, rfl⟩ := List.getElem?_eq_some_iff.mp h
  have hperm := List.getElem_cons_eraseIdx_perm hi
  have hsum := (hperm.map fun t => f t.instrs).sum_eq
  rw [List.map_cons, List.sum_cons] at hsum
  unfold total
  omega

theorem total_eq_zero : total f tasks = 0 ↔ ∀ t ∈ tasks, f t.instrs = 0 := by
  unfold total
  rw [List.sum_eq_zero_iff_forall_eq_nat]
  exact List.forall_mem_map

theorem mem_park {u : Task τ ι} (h : u ∈ park tasks t) : u ∈ tasks ∨ u = t := by
  unfold park at h
  split at h
  · exact .inl h
  · rw [List.mem_append, List.mem_singleton] at h
    exact h

/-- A task is parked where there is something left of it. -/
theorem exists_park {P : List ι → Prop} (hnil : ¬ P []) :
    (∃ u ∈ park tasks t, P u.instrs) ↔ (∃ u ∈ tasks, P u.instrs) ∨ P t.instrs := by
  unfold park
  split
  case h_1 heq => rw [heq, or_iff_left hnil]
  case h_2 =>
    constructor
    · rintro ⟨u, hu, hP⟩
      rcases List.mem_append.mp hu with hin | hlast
      · exact .inl ⟨u, hin, hP⟩
      · rw [List.mem_singleton] at hlast
        exact .inr (hlast ▸ hP)
    · rintro (⟨u, hu, hP⟩ | hP)
      · exact ⟨u, List.mem_append_left _ hu, hP⟩
      · exact ⟨t, List.mem_append_right _ (List.mem_singleton_self t), hP⟩

theorem exists_eraseIdx {P : List ι → Prop} {i : ℕ} (h : tasks[i]? = some t) :
    (∃ u ∈ tasks, P u.instrs) ↔ (∃ u ∈ tasks.eraseIdx i, P u.instrs) ∨ P t.instrs := by
  obtain ⟨hi, rfl⟩ := List.getElem?_eq_some_iff.mp h
  have hperm := List.getElem_cons_eraseIdx_perm hi
  have hsame : (∃ u ∈ tasks, P u.instrs) ↔ ∃ u ∈ tasks[i] :: tasks.eraseIdx i, P u.instrs := by
    simp only [hperm.mem_iff]
  rw [hsame, List.exists_mem_cons_iff, or_comm]

end Total

end IbTrader.Lib.Coroutines
