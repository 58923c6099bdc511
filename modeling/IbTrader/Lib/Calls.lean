/-
  IbTrader.Lib.Calls

  A program that sets a value by calls, and takes a call that returns to have set it.

  A call may return without having done anything.  The program cannot see that: what it
  believes the value to be, and the books it keeps of its calls, go by the calls that
  returned (`Caller.Lawful`).  They are true throughout a run exactly when no call of the run
  was ignored (`Caller.truthful_iff`).
-/

import IbTrader.Lib.Run

namespace IbTrader.Lib

/-- How a call comes back: with a value set, with nothing done, or with an exception. -/
inductive Answer (α : Type*) where
  | carriedOut (value : α)
  | ignored
  | refused
  deriving DecidableEq, Repr

/-- A program and the calls it awaits, one at a time. -/
structure Caller (σ ι ρ κ α : Type*) where
  /-- The value that the call awaited is to set. -/
  pending : σ → Option α
  /-- How the call comes back, in the circumstances it meets. -/
  answer : α → ρ → Answer α
  returns : σ → ρ → σ
  refused : σ → ρ → σ
  /-- Whatever else happens. -/
  other : σ → ι → σ
  /-- The value last set, as far as the program knows, while it still matters. -/
  believed : σ → Option α
  /-- The values that a book of the program says were set. -/
  book : κ → σ → List α

/-- The program, and beside it the values that were set. -/
structure World (σ α : Type*) where
  program : σ
  carriedOut : List α := []

namespace Caller

variable {σ ι ρ κ α : Type*} (c : Caller σ ι ρ κ α)

/-- The program goes on after a call. -/
def comeBack (w : World σ α) (r : ρ) : Answer α → World σ α
  | .carriedOut value => { program := c.returns w.program r, carriedOut := w.carriedOut ++ [value] }
  | .ignored => { w with program := c.returns w.program r }
  | .refused => { w with program := c.refused w.program r }

/-- A call comes back, or something else happens. -/
def step (w : World σ α) : ι ⊕ ρ → World σ α
  | .inl i => { w with program := c.other w.program i }
  | .inr r =>
    match c.pending w.program with
    | none => w
    | some a => c.comeBack w r (c.answer a r)

/-- What the program believes and has in its books is what was set, from a first value on. -/
structure Truthful (first : α) (w : World σ α) : Prop where
  believed : ∀ b ∈ c.believed w.program, b ∈ (first :: w.carriedOut).getLast?
  book : ∀ k, (c.book k w.program).Sublist w.carriedOut

/-- Where a call comes back, it was not ignored. -/
def Heeded (w : World σ α) : ι ⊕ ρ → Prop
  | .inl _ => True
  | .inr r => ∀ a ∈ c.pending w.program, c.answer a r ≠ .ignored

/-- A call that returns is believed and may be booked; nothing else is.  No call is made for
    the value believed to be set already. -/
structure Lawful (I : σ → Prop) : Prop where
  inv_other : ∀ s i, I s → I (c.other s i)
  inv_returns : ∀ s r a, a ∈ c.pending s → I s → I (c.returns s r)
  inv_refused : ∀ s r a, a ∈ c.pending s → I s → I (c.refused s r)
  answer_value : ∀ a r value, c.answer a r = .carriedOut value → value = a
  pending_ne : ∀ s, I s → ∀ a ∈ c.pending s, ∃ b ∈ c.believed s, a ≠ b
  believed_other : ∀ s i, I s → ∀ b ∈ c.believed (c.other s i), b ∈ c.believed s
  believed_returns : ∀ s r a, a ∈ c.pending s → a ∈ c.believed (c.returns s r)
  believed_refused : ∀ s r a, a ∈ c.pending s → ∀ b ∈ c.believed (c.refused s r), b ∈ c.believed s
  book_other : ∀ k s i, I s → c.book k (c.other s i) = c.book k s
  book_returns : ∀ k s r a, a ∈ c.pending s → (c.book k (c.returns s r)).Sublist (c.book k s ++ [a])
  book_refused : ∀ k s r a, a ∈ c.pending s → c.book k (c.refused s r) = c.book k s

variable {c} {I : σ → Prop}

theorem step_of_pending {w : World σ α} {a : α} (h : c.pending w.program = some a) (r : ρ) :
    c.step w (.inr r) = c.comeBack w r (c.answer a r) := by
  unfold step
  rw [h]

theorem step_of_idle {w : World σ α} (h : c.pending w.program = none) (r : ρ) : c.step w (.inr r) = w := by
  unfold step
  rw [h]

theorem heeded_of_pending {w : World σ α} {a : α} (h : c.pending w.program = some a) (r : ρ) :
    c.Heeded w (.inr r) ↔ c.answer a r ≠ .ignored := by
  rw [Heeded, h]
  exact ⟨fun hall => hall a rfl, fun hne b hb => Option.some.inj hb ▸ hne⟩

theorem Lawful.inv (h : c.Lawful I) (w : World σ α) (input : ι ⊕ ρ) (hw : I w.program) :
    I (c.step w input).program := by
  cases input with
  | inl i => exact h.inv_other _ i hw
  | inr r =>
    cases hpending : c.pending w.program with
    | none =>
      rw [step_of_idle hpending]
      exact hw
    | some a =>
      rw [step_of_pending hpending]
      cases c.answer a r with
      | carriedOut value => exact h.inv_returns _ r a hpending hw
      | ignored => exact h.inv_returns _ r a hpending hw
      | refused => exact h.inv_refused _ r a hpending hw

/-- A step keeps the books true exactly when it ignores no call. -/
theorem Lawful.truthful_step (h : c.Lawful I) {first : α} (w : World σ α) (input : ι ⊕ ρ) (hw : I w.program)
    (htruth : c.Truthful first w) : c.Truthful first (c.step w input) ↔ c.Heeded w input := by
  cases input with
  | inl i =>
    refine iff_of_true ⟨fun b hb => ?_, fun k => ?_⟩ trivial
    · exact htruth.believed b (h.believed_other _ i hw b hb)
    · show (c.book k (c.other w.program i)).Sublist w.carriedOut
      rw [h.book_other k _ i hw]
      exact htruth.book k
  | inr r =>
    cases hpending : c.pending w.program with
    | none =>
      rw [step_of_idle hpending, Heeded, hpending]
      exact iff_of_true htruth nofun
    | some a =>
      rw [step_of_pending hpending, heeded_of_pending hpending]
      cases hanswer : c.answer a r with
      | carriedOut value =>
        obtain rfl := h.answer_value a r value hanswer
        refine iff_of_true ⟨fun b hb => ?_, fun k => ?_⟩ nofun
        · obtain rfl : value = b := Option.mem_unique (h.believed_returns _ r value hpending) hb
          show value ∈ ((first :: w.carriedOut) ++ [value]).getLast?
          rw [List.getLast?_concat]
          exact rfl
        · exact (h.book_returns k _ r value hpending).trans ((htruth.book k).append (.refl _))
      | ignored =>
        -- the program believes what it asked for, and the value is the one before
        refine iff_of_false (fun hafter => ?_) fun hne => hne rfl
        obtain ⟨b, hb, hne⟩ := h.pending_ne _ hw a hpending
        have hlast : a ∈ (first :: w.carriedOut).getLast? := hafter.believed a (h.believed_returns _ r a hpending)
        exact hne (Option.mem_unique hlast (htruth.believed b hb))
      | refused =>
        refine iff_of_true ⟨fun b hb => ?_, fun k => ?_⟩ nofun
        · exact htruth.believed b (h.believed_refused _ r a hpending b hb)
        · show (c.book k (c.refused w.program r)).Sublist w.carriedOut
          rw [h.book_refused k _ r a hpending]
          exact htruth.book k

/-- The books are true throughout a run exactly when no call of the run is ignored. -/
theorem Lawful.truthful_iff (h : c.Lawful I) {first : α} {s : σ} (hs : I s) (hbelieved : ∀ b ∈ c.believed s, b = first)
    (hbook : ∀ k, c.book k s = []) (inputs : List (ι ⊕ ρ)) :
    (∀ before, before <+: inputs → c.Truthful first (before.foldl c.step { program := s })) ↔
      Along c.step c.Heeded { program := s } inputs := by
  have hfirst : c.Truthful first { program := s } := by
    refine ⟨fun b hb => ?_, fun k => ?_⟩
    · rw [hbelieved b hb]
      exact rfl
    · show (c.book k s).Sublist []
      rw [hbook k]
  exact Along.iff_forall_prefix (I := fun w => I w.program) h.inv h.truthful_step inputs hs hfirst

end Caller

end IbTrader.Lib
