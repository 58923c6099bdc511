/-
  IbTrader.Lib.KeepOne

  A pass that keeps one element of each key.

  The first element of a key is kept, in its place in the list, until a better one of
  the key takes that place; elements without a key are all kept.  Where the better ones
  are those that pass a test, the element kept is the first that passes, or else the
  first (`filter_keepOne`), so that a key is kept once whatever comes between its
  elements (`countP_keepOne`).
-/

import IbTrader.Lib.KeyedFold

namespace IbTrader.Lib

variable {α κ : Type*} [DecidableEq κ]

/-- One step of the pass: `better` compares the element kept of a key with a new one. -/
def keep (key : α → Option κ) (better : α → α → Bool) (kept : List α) (x : α) : List α :=
  match key x with
  | none => kept ++ [x]
  | some k =>
    match kept.find? (key · = some k) with
    | none => kept ++ [x]
    | some prior => if better prior x then kept.map fun y => if key y = some k then x else y else kept

/-- The whole pass. -/
def keepOne (key : α → Option κ) (better : α → α → Bool) (xs : List α) : List α :=
  xs.foldl (keep key better) []

/-- The first element that passes a test, or else the first. -/
def preferred (good : α → Bool) (xs : List α) : Option α := (xs.find? good).or xs.head?

/-- What a step does to the elements kept of its key. -/
def keepAmong (key : α → Option κ) (better : α → α → Bool) (x : α) (ys : List α) : List α :=
  if (key x).isNone then ys ++ [x]
  else
    match ys.head? with
    | none => ys ++ [x]
    | some prior => if better prior x then ys.map fun _ => x else ys

section Pass

variable {key : α → Option κ} {better : α → α → Bool} {good : α → Bool} {xs ys : List α} {k : κ} {x y : α}

/-- Elements of a key are replaced by one of the key. -/
theorem filter_replace {l : Option κ} (hx : key x = some k) :
    (ys.map fun y => if key y = some k then x else y).filter (key · = l) =
      (ys.filter (key · = l)).map fun y => if key y = some k then x else y := by
  rw [List.filter_map]
  refine congrArg _ (List.filter_congr fun y _ => ?_)
  simp only [Function.comp_apply, decide_eq_decide]
  split
  case isTrue hy => rw [hx, hy]
  case isFalse => exact Iff.rfl

/-- A step acts on the elements of its own key alone. -/
theorem keep_keyedStep (key : α → Option κ) (better : α → α → Bool) :
    KeyedStep (fun kept l => kept.filter (key · = l)) key (keepAmong key better) (keep key better) where
  own kept x := by
    unfold keep keepAmong
    cases hx : key x with
    | none => simp [hx]
    | some k =>
      dsimp only
      rw [if_neg (by simp), List.head?_filter]
      split
      case h_1 => simp [hx]
      case h_2 =>
        split
        case isTrue =>
          rw [filter_replace hx]
          refine List.map_congr_left fun y hy => if_pos ?_
          simpa using (List.mem_filter.mp hy).2
        case isFalse => rfl
  other kept x l hl := by
    have hother : ¬ key x = l := Ne.symm hl
    have hlast : (kept ++ [x]).filter (key · = l) = kept.filter (key · = l) := by simp [hother]
    unfold keep
    cases hx : key x with
    | none => exact hlast
    | some k =>
      dsimp only
      split
      case h_1 => exact hlast
      case h_2 =>
        split
        case isTrue =>
          rw [filter_replace hx]
          refine (List.map_congr_left fun y hy => if_neg ?_).trans (List.map_id _)
          have hy : key y = l := by simpa using (List.mem_filter.mp hy).2
          rw [hy, ← hx]
          exact hl
        case isFalse => rfl

/-- The elements without a key. -/
theorem filter_keepOne_none : (keepOne key better xs).filter (key · = none) = xs.filter (key · = none) := by
  have hall : ∀ (ys zs : List α), (∀ y ∈ ys, key y = none) →
      ys.foldl (fun kept y => keepAmong key better y kept) zs = zs ++ ys := by
    intro ys
    induction ys with
    | nil => exact fun zs _ => (List.append_nil zs).symm
    | cons y ys ih =>
      intro zs hnone
      have hy : keepAmong key better y zs = zs ++ [y] := if_pos (by rw [hnone y List.mem_cons_self]; rfl)
      rw [List.foldl_cons, hy, ih _ fun z hz => hnone z (List.mem_cons_of_mem y hz), List.append_assoc]
      rfl
  have hview := (keep_keyedStep key better).view_foldl_filter (k := none) xs []
  rw [keepOne, hview, hall _ _ fun y hy => by simpa using (List.mem_filter.mp hy).2]
  rfl

variable (good k) in
omit [DecidableEq κ] in
/-- From an element that is kept, the first that passes the test is kept, or it stays. -/
theorem foldl_keepAmong (rest : List α) : ∀ {prior : α}, (∀ y ∈ rest, key y = some k) →
    (∀ y ∈ prior :: rest, ∀ z ∈ prior :: rest, better y z = (!good y && good z)) →
    rest.foldl (fun kept y => keepAmong key better y kept) [prior] =
      [if good prior then prior else (rest.find? good).getD prior] := by
  induction rest with
  | nil => simp
  | cons x rest ih =>
    intro prior hkey hbetter
    have hrest := fun y hy => hkey y (List.mem_cons_of_mem x hy)
    have hstep : keepAmong key better x [prior] = [if better prior x then x else prior] := by
      rw [keepAmong, if_neg (by rw [hkey x List.mem_cons_self]; simp)]
      dsimp only [List.head?_cons]
      split <;> rfl
    rw [List.foldl_cons, hstep, hbetter prior (by simp) x (by simp), List.find?_cons]
    by_cases hprior : good prior
    · simp only [hprior, Bool.not_true, Bool.false_and, Bool.false_eq_true, if_false, if_true]
      rw [ih hrest fun y hy z hz => hbetter y (by grind) z (by grind), if_pos hprior]
    · by_cases hx : good x
      · simp only [hprior, hx, Bool.not_false, Bool.and_true, if_true, Bool.false_eq_true, if_false]
        rw [ih hrest fun y hy z hz => hbetter y (List.mem_cons_of_mem _ hy) z (List.mem_cons_of_mem _ hz), if_pos hx]
        rfl
      · simp only [hprior, hx, Bool.not_false, Bool.and_false, Bool.false_eq_true, if_false]
        rw [ih hrest fun y hy z hz => hbetter y (by grind) z (by grind), if_neg (by simpa using hprior)]

/-- One element of a key is kept: the first that passes the test, or else the first. -/
theorem filter_keepOne (hbetter : ∀ y ∈ xs, ∀ z ∈ xs, key y = some k → key z = some k →
    better y z = (!good y && good z)) :
    (keepOne key better xs).filter (key · = some k) =
      (preferred good (xs.filter (key · = some k))).toList := by
  have hview := (keep_keyedStep key better).view_foldl_filter (k := some k) xs []
  rw [keepOne, hview]
  have hkey : ∀ y ∈ xs.filter (key · = some k), y ∈ xs ∧ key y = some k := by simp
  cases hall : xs.filter (key · = some k) with
  | nil => rfl
  | cons first rest =>
    rw [hall] at hkey
    obtain ⟨-, hfirst⟩ := hkey first List.mem_cons_self
    have hstep : keepAmong key better first [] = [first] := by
      rw [keepAmong, if_neg (by rw [hfirst]; simp)]
      rfl
    rw [List.foldl_cons, List.filter_nil, hstep, foldl_keepAmong good k rest
      (fun y hy => (hkey y (List.mem_cons_of_mem _ hy)).2)
      fun y hy z hz => hbetter y (hkey y hy).1 z (hkey z hz).1 (hkey y hy).2 (hkey z hz).2]
    rw [preferred, List.find?_cons, List.head?_cons]
    by_cases hgood : good first
    · simp [hgood]
    · cases hfound : rest.find? good <;> simp [hgood]

theorem mem_preferred (h : x ∈ preferred good xs) : x ∈ xs ∧ ((∃ y ∈ xs, good y) → good x) := by
  unfold preferred at h
  cases hfound : xs.find? good with
  | none =>
    rw [hfound, Option.none_or] at h
    refine ⟨List.mem_of_head? h, fun ⟨y, hy, hgood⟩ => ?_⟩
    exact absurd hgood (List.find?_eq_none.mp hfound y hy)
  | some y =>
    rw [hfound, Option.some_or, Option.mem_some_iff] at h
    subst h
    exact ⟨List.mem_of_find?_eq_some hfound, fun _ => List.find?_some hfound⟩

theorem isSome_preferred : (preferred good xs).isSome ↔ xs ≠ [] := by
  unfold preferred
  cases xs with
  | nil => simp
  | cons y ys => simp

end Pass

end IbTrader.Lib
