/-
  IbTrader.Lib.Mealy

  Machines that answer every input with a list of outputs, and the rules for
  reasoning about a whole run of one: where an output of the run comes from,
  and what holds of every output once an invariant of the state holds.

  Nothing here names a program.  A machine is a next-state function and an
  output function; its trace pairs every output with the input that caused it,
  so that a temporal property ("after such an output, no such output again")
  is a `List.Pairwise` statement about the trace.
-/

import Mathlib.Data.List.Pairwise
import Mathlib.Data.List.Count

namespace IbTrader.Lib

/-- A deterministic machine answering each input with a list of outputs. -/
structure Mealy (σ ι ο : Type*) where
  next : σ → ι → σ
  emit : σ → ι → List ο

namespace Mealy

variable {σ ι ο : Type*} (m : Mealy σ ι ο)

/-- The state after a list of inputs. -/
def run (s : σ) (is : List ι) : σ := is.foldl m.next s

/-- The outputs of a run, each paired with the input that caused it. -/
def trace : σ → List ι → List (ι × ο)
  | _, [] => []
  | s, i :: is => (m.emit s i).map (i, ·) ++ trace (m.next s i) is

@[simp] theorem run_nil (s : σ) : m.run s [] = s := rfl

@[simp] theorem run_cons (s : σ) (i : ι) (is : List ι) :
    m.run s (i :: is) = m.run (m.next s i) is := rfl

@[simp] theorem run_append (s : σ) (is js : List ι) :
    m.run s (is ++ js) = m.run (m.run s is) js := by
  simp [run]

@[simp] theorem trace_nil (s : σ) : m.trace s [] = [] := rfl

theorem trace_cons (s : σ) (i : ι) (is : List ι) :
    m.trace s (i :: is) = (m.emit s i).map (i, ·) ++ m.trace (m.next s i) is := rfl

theorem trace_append (s : σ) (is js : List ι) :
    m.trace s (is ++ js) = m.trace s is ++ m.trace (m.run s is) js := by
  induction is generalizing s with
  | nil => rfl
  | cons i is ih => simp [trace_cons, ih]

/-- What one step preserves under the inputs allowed, a run preserves. -/
theorem run_preserves {P : σ → Prop} {R : ι → Prop}
    (hnext : ∀ s i, P s → R i → P (m.next s i)) :
    ∀ (is : List ι) (s : σ), P s → (∀ i ∈ is, R i) → P (m.run s is) := by
  intro is
  induction is with
  | nil => intro s hs _; exact hs
  | cons i is ih =>
    intro s hs hR
    rw [run_cons]
    exact ih _ (hnext s i hs (hR i List.mem_cons_self))
      (fun j hj => hR j (List.mem_cons_of_mem _ hj))

/-- What holds of every output of a step from an invariant state holds of every
    output of a run. -/
theorem forall_mem_trace {P : σ → Prop} {R : ι → Prop} {Q : ι × ο → Prop}
    (hnext : ∀ s i, P s → R i → P (m.next s i))
    (hemit : ∀ s i, P s → R i → ∀ o ∈ m.emit s i, Q (i, o)) :
    ∀ (is : List ι) (s : σ), P s → (∀ i ∈ is, R i) → ∀ p ∈ m.trace s is, Q p := by
  intro is
  induction is with
  | nil => intro s _ _ p hp; simp at hp
  | cons i is ih =>
    intro s hs hR p hp
    have hi : R i := hR i List.mem_cons_self
    rw [trace_cons, List.mem_append, List.mem_map] at hp
    rcases hp with ⟨o, ho, rfl⟩ | hp
    · exact hemit s i hs hi o ho
    · exact ih _ (hnext s i hs hi) (fun j hj => hR j (List.mem_cons_of_mem _ hj)) p hp

/-- What one step keeps of the state and of all the outputs so far, a run keeps. -/
theorem run_history {P : σ → List ο → Prop}
    (hstep : ∀ s os i, P s os → P (m.next s i) (os ++ m.emit s i)) :
    ∀ (is : List ι) (s : σ) (os : List ο), P s os → P (m.run s is) (os ++ (m.trace s is).map Prod.snd) := by
  intro is
  induction is with
  | nil => intro s os h; rwa [run_nil, trace_nil, List.map_nil, List.append_nil]
  | cons i is ih =>
    intro s os h
    have houtputs : (m.emit s i).map (Prod.snd ∘ fun o => (i, o)) = m.emit s i := List.map_id _
    rw [run_cons, trace_cons, List.map_append, List.map_map, houtputs, ← List.append_assoc]
    exact ih _ _ (hstep s os i h)

/-- An output of the step taken after `pre` is an output of the run. -/
theorem mem_trace_of_emit (s : σ) {pre post : List ι} {i : ι} {o : ο}
    (ho : o ∈ m.emit (m.run s pre) i) : (i, o) ∈ m.trace s (pre ++ i :: post) := by
  rw [trace_append, trace_cons]
  exact List.mem_append_right _
    (List.mem_append_left _ (List.mem_map.mpr ⟨o, ho, rfl⟩))

/-- Two outputs of a run, the first before the second, are related as every two
    outputs of the run in that order are. -/
theorem rel_of_pairwise {S : ι × ο → ι × ο → Prop} {s : σ} {pre mid post : List ι}
    {i j : ι} {o o' : ο}
    (h : (m.trace s (pre ++ i :: (mid ++ j :: post))).Pairwise S)
    (ho : o ∈ m.emit (m.run s pre) i)
    (ho' : o' ∈ m.emit (m.run (m.next (m.run s pre) i) mid) j) : S (i, o) (j, o') := by
  rw [trace_append, List.pairwise_append] at h
  have h2 := h.2.1
  rw [trace_cons, List.pairwise_append] at h2
  exact h2.2.2 _ (List.mem_map.mpr ⟨o, ho, rfl⟩) _ (m.mem_trace_of_emit _ ho')

end Mealy

/-- Two elements of a list stand in a relation when there are no two elements. -/
theorem pairwise_of_length_le_one {α : Type*} {R : α → α → Prop} {l : List α}
    (h : l.length ≤ 1) : l.Pairwise R := by
  match l, h with
  | [], _ => exact List.Pairwise.nil
  | [a], _ => exact List.pairwise_singleton R a

/-- In a list whose elements with `p` exclude one another, at most one has `p`. -/
theorem countP_le_one_of_pairwise {α : Type*} {p : α → Bool} {l : List α}
    (h : l.Pairwise (fun a b => p a = true → p b = false)) : l.countP p ≤ 1 := by
  induction l with
  | nil => simp
  | cons a l ih =>
    rw [List.pairwise_cons] at h
    by_cases ha : p a = true
    · have hnone : l.countP p = 0 := by
        rw [List.countP_eq_zero]
        intro b hb
        simp [h.1 b hb ha]
      simp [ha, hnone]
    · simpa [List.countP_cons, ha] using ih h.2

end IbTrader.Lib
