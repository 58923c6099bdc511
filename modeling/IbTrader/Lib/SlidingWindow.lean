/-
  IbTrader.Lib.SlidingWindow

  A limiter that counts what it has recorded in a sliding window.

  Something is admitted when little has been recorded lately, recorded later on and
  handed over last.  As long as one thing at a time is on its way, so that what is
  recorded is recorded before the next one is admitted, one more than is recorded
  can be handed over in a window (`Paced.bounded`).  Each operation keeps it so.
-/

import Mathlib.Algebra.BigOperators.Group.List.Basic
import Mathlib.Algebra.GroupWithZero.Nat
import Mathlib.Algebra.Order.Group.Defs
import Mathlib.Algebra.Order.Monoid.Unbundled.Basic
import Mathlib.Tactic.Abel

namespace IbTrader.Lib.SlidingWindow

-- ============================================================================
-- Counting
-- ============================================================================

section Count

variable {T : Type*} [LinearOrder T] {a b t : T} {times : List T}

/-- How many of the times are not before one. -/
def since (a : T) (times : List T) : ℕ := times.countP fun t => a ≤ t

/-- How many of the times lie in an interval, its ends included. -/
def between (a b : T) (times : List T) : ℕ := times.countP fun t => a ≤ t ∧ t ≤ b

@[simp] theorem since_append (a : T) (xs ys : List T) : since a (xs ++ ys) = since a xs + since a ys :=
  List.countP_append

@[simp] theorem since_singleton (a t : T) : since a [t] = if a ≤ t then 1 else 0 := by
  simp [since, List.countP_cons]

theorem between_append (a b : T) (xs ys : List T) :
    between a b (xs ++ ys) = between a b xs + between a b ys := List.countP_append

theorem between_singleton (a b t : T) : between a b [t] = if a ≤ t ∧ t ≤ b then 1 else 0 := by
  simp [between, List.countP_cons]

theorem between_le_since (a b : T) (times : List T) : between a b times ≤ since a times := by
  refine List.countP_mono_left fun t _ h => ?_
  simp only [decide_eq_true_eq] at h ⊢
  exact h.1

/-- A shorter interval holds no more. -/
theorem between_mono {b' : T} (h : b ≤ b') (a : T) (times : List T) : between a b times ≤ between a b' times := by
  refine List.countP_mono_left fun t _ hin => ?_
  simp only [decide_eq_true_eq] at hin ⊢
  exact ⟨hin.1, hin.2.trans h⟩

theorem since_anti (h : a ≤ b) (times : List T) : since b times ≤ since a times := by
  refine List.countP_mono_left fun t _ hin => ?_
  simp only [decide_eq_true_eq] at hin ⊢
  exact h.trans hin

theorem since_le_length (a : T) (times : List T) : since a times ≤ times.length := List.countP_le_length

theorem since_eq_zero (h : ∀ t ∈ times, t < a) : since a times = 0 := by
  refine List.countP_eq_zero.mpr fun t ht => ?_
  simp only [decide_eq_true_eq, not_le]
  exact h t ht

/-- What is before a time does not matter after it. -/
theorem since_filter (h : b ≤ a) (times : List T) : since a (times.filter fun t => b ≤ t) = since a times := by
  unfold since
  rw [List.countP_filter]
  refine List.countP_congr fun t _ => ?_
  simp only [Bool.and_eq_true, decide_eq_true_eq]
  exact and_iff_left_of_imp h.trans

end Count

/-- Of times so far apart, few lie in an interval. -/
theorem between_of_spaced {T : Type*} [AddCommGroup T] [LinearOrder T] [IsOrderedAddMonoid T] {d : T} (hd : 0 ≤ d)
    {times : List T} (h : times.Pairwise fun s t => s + d ≤ t) {a b : T} (hab : a ≤ b) :
    between a b times • d ≤ b - a + d := by
  induction times generalizing a with
  | nil =>
    rw [show between a b ([] : List T) = 0 from rfl, zero_nsmul]
    exact add_nonneg (sub_nonneg.mpr hab) hd
  | cons t times ih =>
    obtain ⟨hlater, hrest⟩ := List.pairwise_cons.mp h
    rw [show t :: times = [t] ++ times from rfl, between_append, between_singleton]
    split
    case isFalse => rw [Nat.zero_add]; exact ih hrest hab
    case isTrue hin =>
      -- the others are not before the first and its distance
      have hsame : between a b times = between (t + d) b times := by
        refine List.countP_congr fun u hu => ?_
        simp only [decide_eq_true_eq]
        exact and_congr_left' (iff_of_true (hin.1.trans ((le_add_of_nonneg_right hd).trans (hlater u hu))) (hlater u hu))
      rw [add_nsmul, one_nsmul, hsame]
      have hta : b - t ≤ b - a := sub_le_sub_left hin.1 b
      rcases le_or_gt (t + d) b with hroom | hfull
      · have hfew := ih hrest hroom
        calc d + between (t + d) b times • d ≤ d + (b - (t + d) + d) := add_le_add_right hfew d
          _ = b - t + d := by abel
          _ ≤ b - a + d := add_le_add_left hta d
      · have hnone : between (t + d) b times = 0 := by
          refine List.countP_eq_zero.mpr fun u hu => ?_
          simp only [decide_eq_true_eq, not_and, not_le]
          exact fun _ => hfull.trans_le (hlater u hu)
        rw [hnone, zero_nsmul, add_zero]
        exact le_add_of_nonneg_left (sub_nonneg.mpr hab)

-- ============================================================================
-- One at a time
-- ============================================================================

variable {T : Type*} [AddCommGroup T] [LinearOrder T] {limit : ℕ} {window now : T} {recorded handed : List T}
  {admitted due : ℕ}

/-- At most one thing is on its way: it has been admitted, or it is recorded and due to be
    handed over. -/
structure Paced (limit : ℕ) (window now : T) (recorded handed : List T) (admitted due : ℕ) : Prop where
  past : ∀ t ∈ handed, t ≤ now
  alone : admitted + due ≤ 1
  room : ∀ a, now - window ≤ a → since a recorded + admitted + 1 ≤ limit
  follows : ∀ a, now - window ≤ a → since a handed + due ≤ since a recorded + 1
  bounded : ∀ a, between a (a + window) handed ≤ limit

/-- Nothing has happened. -/
theorem Paced.fresh (window now : T) (h : 0 < limit) : Paced limit window now [] [] 0 0 where
  past := nofun
  alone := Nat.zero_le _
  room := fun _ _ => h
  follows := fun _ _ => Nat.zero_le _
  bounded := fun _ => Nat.zero_le _

/-- Time passes. -/
theorem Paced.later [IsOrderedAddMonoid T] (h : Paced limit window now recorded handed admitted due) {now' : T}
    (hle : now ≤ now') : Paced limit window now' recorded handed admitted due where
  past := fun t ht => (h.past t ht).trans hle
  alone := h.alone
  room := fun a ha => h.room a ((sub_le_sub_right hle window).trans ha)
  follows := fun a ha => h.follows a ((sub_le_sub_right hle window).trans ha)
  bounded := h.bounded

/-- What is on its way gets lost. -/
theorem Paced.drop (h : Paced limit window now recorded handed admitted due) {admitted' due' : ℕ}
    (hadmitted : admitted' ≤ admitted) (hdue : due' ≤ due) :
    Paced limit window now recorded handed admitted' due' where
  past := h.past
  alone := by have := h.alone; omega
  room := fun a ha => by have := h.room a ha; omega
  follows := fun a ha => by have := h.follows a ha; omega
  bounded := h.bounded

/-- Records that are the same in the window. -/
theorem Paced.congr (h : Paced limit window now recorded handed admitted due) {recorded' : List T}
    (hsame : ∀ a, now - window ≤ a → since a recorded' = since a recorded) :
    Paced limit window now recorded' handed admitted due where
  past := h.past
  alone := h.alone
  room := fun a ha => by rw [hsame a ha]; exact h.room a ha
  follows := fun a ha => by rw [hsame a ha]; exact h.follows a ha
  bounded := h.bounded

/-- With nothing on its way, something is admitted. -/
theorem Paced.admit (h : Paced limit window now recorded handed 0 0)
    (hroom : since (now - window) recorded + 1 < limit) : Paced limit window now recorded handed 1 0 where
  past := h.past
  alone := le_rfl
  room := fun a ha => by have := since_anti ha recorded; omega
  follows := h.follows
  bounded := h.bounded

/-- It is recorded. -/
theorem Paced.record (h : Paced limit window now recorded handed 1 0) :
    Paced limit window now (recorded ++ [now]) handed 0 1 where
  past := h.past
  alone := le_rfl
  room := fun a ha => by
    have hroom := h.room a ha
    rw [since_append, since_singleton]
    split <;> omega
  follows := fun a ha => by
    have hbefore := h.follows a ha
    rw [since_append, since_singleton]
    by_cases hle : a ≤ now
    · rw [if_pos hle]
      omega
    · have hnone : since a handed = 0 := since_eq_zero fun t ht => (h.past t ht).trans_lt (not_le.mp hle)
      omega
  bounded := h.bounded

/-- It is handed over. -/
theorem Paced.hand [IsOrderedAddMonoid T] (h : Paced limit window now recorded handed 0 1) :
    Paced limit window now recorded (handed ++ [now]) 0 0 where
  past := fun t ht => by
    rcases List.mem_append.mp ht with hin | hlast
    · exact h.past t hin
    · exact (List.mem_singleton.mp hlast).le
  alone := Nat.zero_le _
  room := h.room
  follows := fun a ha => by
    have hbefore := h.follows a ha
    rw [since_append, since_singleton]
    split <;> omega
  bounded := fun a => by
    rw [between_append, between_singleton]
    split
    case isTrue hin =>
      have ha : now - window ≤ a := sub_le_iff_le_add.mpr hin.2
      have hroom := h.room a ha
      have hbefore := h.follows a ha
      have hfew := between_le_since a (a + window) handed
      omega
    case isFalse => exact h.bounded a

-- ============================================================================
-- Several tasks
-- ============================================================================

/-- A task among others is replaced. -/
theorem sum_map_set {α : Type*} (f : α → ℕ) (y : α) :
    ∀ {xs : List α} {i : ℕ} {x : α}, xs[i]? = some x → ((xs.set i y).map f).sum + f x = (xs.map f).sum + f y
  | [], _, _, h => by cases h
  | x :: xs, 0, _, h => by
    obtain rfl := Option.some.inj h
    simp only [List.set_cons_zero, List.map_cons, List.sum_cons]
    omega
  | x :: xs, i + 1, x', h => by
    have hrest : ((xs.set i y).map f).sum + f x' = (xs.map f).sum + f y := sum_map_set f y h
    simp only [List.set_cons_succ, List.map_cons, List.sum_cons]
    omega

end IbTrader.Lib.SlidingWindow
