/-
  IbTrader.Lib.Fallible

  Computations on a state that may raise, and the weakest precondition of what is
  to hold when they return and when they raise.

  A computation runs to one end, so each rule is an equivalence: rewriting with
  the rules runs the computation (`wp_bind`, `wp_tryCatch`), and what it does to
  the state whichever way it ends is read off (`wp_left`).  What every part of a
  computation keeps to the whole keeps to (`Within.bind`, `Within.tryCatch`).
-/

import Mathlib.Order.Defs.Unbundled

namespace IbTrader.Lib.Fallible

variable {ε σ α β : Type}

/-- `Q` of what the computation returns, `E` of what it raises, with the state it
    leaves. -/
def wp (x : EStateM ε σ α) (Q : α → σ → Prop) (E : ε → σ → Prop) (s : σ) : Prop :=
  match x s with
  | .ok a s' => Q a s'
  | .error e s' => E e s'

instance (x : EStateM ε σ α) (Q : α → σ → Prop) (E : ε → σ → Prop) (s : σ) [∀ a s, Decidable (Q a s)]
    [∀ e s, Decidable (E e s)] : Decidable (wp x Q E s) :=
  match h : x s with
  | .ok a s' => decidable_of_iff (Q a s') (by unfold wp; rw [h])
  | .error e s' => decidable_of_iff (E e s') (by unfold wp; rw [h])

/-- The state a computation leaves, whether it returns or raises. -/
def left (x : EStateM ε σ α) (s : σ) : σ :=
  match x s with
  | .ok _ s' => s'
  | .error _ s' => s'

variable {Q Q' : α → σ → Prop} {R : β → σ → Prop} {E E' : ε → σ → Prop}

@[simp] theorem wp_pure (a : α) (s : σ) :
    wp (pure a : EStateM ε σ α) Q E s ↔ Q a s := Iff.rfl

@[simp] theorem wp_throw (e : ε) (s : σ) :
    wp (throw e : EStateM ε σ α) Q E s ↔ E e s := Iff.rfl

@[simp] theorem wp_modify (f : σ → σ) (s : σ) {R : PUnit → σ → Prop} :
    wp (modify f : EStateM ε σ PUnit) R E s ↔ R ⟨⟩ (f s) := Iff.rfl

@[simp] theorem wp_get (s : σ) {R : σ → σ → Prop} :
    wp (get : EStateM ε σ σ) R E s ↔ R s s := Iff.rfl

/-- Sequencing. -/
@[simp] theorem wp_bind (x : EStateM ε σ α) (f : α → EStateM ε σ β) (s : σ) :
    wp (x >>= f) R E s ↔ wp x (fun a => wp (f a) R E) E s := by
  change (match EStateM.bind x f s with
    | .ok a s' => R a s'
    | .error e s' => E e s') ↔ _
  unfold wp EStateM.bind
  cases x s <;> rfl

/-- A handler runs in the state the exception leaves. -/
@[simp] theorem wp_tryCatch (x : EStateM ε σ α) (h : ε → EStateM ε σ α) (s : σ) :
    wp (tryCatch x h) Q E s ↔ wp x Q (fun e => wp (h e) Q E) s := by
  change (match EStateM.tryCatch x h s with
    | .ok a s' => Q a s'
    | .error e s' => E e s') ↔ _
  unfold wp EStateM.tryCatch
  cases x s <;> rfl

@[simp] theorem wp_ite (c : Prop) [Decidable c] (x y : EStateM ε σ α) (s : σ) :
    wp (if c then x else y) Q E s ↔ if c then wp x Q E s else wp y Q E s := by
  split <;> rfl

theorem wp_of_ok {x : EStateM ε σ α} {s s' : σ} {a : α} (h : x s = .ok a s') : wp x Q E s ↔ Q a s' := by
  unfold wp
  rw [h]

theorem wp_of_error {x : EStateM ε σ α} {s s' : σ} {e : ε} (h : x s = .error e s') : wp x Q E s ↔ E e s' := by
  unfold wp
  rw [h]

theorem wp_mono {x : EStateM ε σ α} {s : σ} (h : wp x Q E s) (hQ : ∀ a s, Q a s → Q' a s)
    (hE : ∀ e s, E e s → E' e s) : wp x Q' E' s := by
  unfold wp at h ⊢
  cases hx : x s with
  | ok a s' => rw [hx] at h; exact hQ a s' h
  | error e s' => rw [hx] at h; exact hE e s' h

/-- What contradicts what a run does is not true of it. -/
theorem not_wp {x : EStateM ε σ α} {s : σ} (h : wp x Q E s) (hQ : ∀ a s, Q a s → ¬ Q' a s)
    (hE : ∀ e s, E e s → ¬ E' e s) : ¬ wp x Q' E' s := by
  unfold wp at h ⊢
  cases hx : x s with
  | ok a s' => rw [hx] at h; exact hQ a s' h
  | error e s' => rw [hx] at h; exact hE e s' h

/-- What two arguments establish of the same run. -/
theorem wp_and {x : EStateM ε σ α} {s : σ} (h : wp x Q E s) (h' : wp x Q' E' s) :
    wp x (fun a s' => Q a s' ∧ Q' a s') (fun e s' => E e s' ∧ E' e s') s := by
  unfold wp at h h' ⊢
  cases hx : x s with
  | ok a s' => rw [hx] at h h'; exact ⟨h, h'⟩
  | error e s' => rw [hx] at h h'; exact ⟨h, h'⟩

/-- What holds of the state left holds whichever way the computation ends. -/
theorem wp_left {P : σ → Prop} (x : EStateM ε σ α) (s : σ) :
    wp x (fun _ => P) (fun _ => P) s ↔ P (left x s) := by
  unfold wp left
  cases x s <;> rfl

/-- Whichever way the computation ends, the state it leaves is related to the one it
    starts in. -/
def Within (P : σ → σ → Prop) (x : EStateM ε σ α) : Prop := ∀ s, wp x (fun _ => P s) (fun _ => P s) s

section Within

variable {P P' : σ → σ → Prop} {x : EStateM ε σ α}

theorem Within.mono (hx : Within P x) (h : ∀ s s', P s s' → P' s s') : Within P' x :=
  fun s => wp_mono (hx s) (fun _ s' => h s s') (fun _ s' => h s s')

theorem within_pure [Std.Refl P] (a : α) : Within P (pure a : EStateM ε σ α) :=
  fun s => Std.Refl.refl s

theorem within_throw [Std.Refl P] (e : ε) : Within P (throw e : EStateM ε σ α) :=
  fun s => Std.Refl.refl s

theorem Within.bind [IsTrans σ P] {f : α → EStateM ε σ β} (hx : Within P x)
    (hf : ∀ a, Within P (f a)) : Within P (x >>= f) := by
  intro s
  rw [wp_bind]
  refine wp_mono (hx s) (fun a s' hs => ?_) (fun _ _ hs => hs)
  exact wp_mono (hf a s') (fun _ _ => Trans.trans hs) (fun _ _ => Trans.trans hs)

theorem Within.tryCatch [IsTrans σ P] {h : ε → EStateM ε σ α} (hx : Within P x)
    (hh : ∀ e, Within P (h e)) : Within P (tryCatch x h) := by
  intro s
  rw [wp_tryCatch]
  refine wp_mono (hx s) (fun _ _ hs => hs) (fun e s' hs => ?_)
  exact wp_mono (hh e s') (fun _ _ => Trans.trans hs) (fun _ _ => Trans.trans hs)

end Within

end IbTrader.Lib.Fallible
