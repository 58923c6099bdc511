/-
  IbTrader.Lib.Grouping

  A pass that groups a list by a key.

  The first element of a key makes the group and the others join it, so the group of a
  key is made of the elements of that key, in their order (`value_groups`).  Groups that
  are lists hold the elements themselves (`value_groups_lists`).
-/

import IbTrader.Lib.KeyedFold
import IbTrader.Lib.KeyedList

namespace IbTrader.Lib

variable {α β κ : Type*} [DecidableEq κ]

/-- One step: an element without a group makes one, another joins its group. -/
def collect (key : α → κ) (new : α → β) (join : β → α → β) (d : Dict κ β) (x : α) : Dict κ β :=
  match d.value (key x) with
  | none => d.put (key x) (new x)
  | some b => d.put (key x) (join b x)

/-- The whole pass. -/
def groups (key : α → κ) (new : α → β) (join : β → α → β) (xs : List α) : Dict κ β :=
  xs.foldl (collect key new join) ∅

/-- The group of elements of one key. -/
def groupOf (new : α → β) (join : β → α → β) : List α → Option β
  | [] => none
  | x :: xs => some (xs.foldl join (new x))

section Pass

variable {key : α → κ} {new : α → β} {join : β → α → β} {xs : List α} {k : κ} {b : β}

theorem collect_keyedStep (key : α → κ) (new : α → β) (join : β → α → β) :
    KeyedStep Dict.value key (fun x b => some (b.elim (new x) (join · x))) (collect key new join) where
  own d x := by
    unfold collect
    cases d.value (key x) with
    | none => exact Dict.value_put_self d (key x) _
    | some b => exact Dict.value_put_self d (key x) _
  other d x k hk := by
    unfold collect
    cases d.value (key x) with
    | none => exact Dict.value_put_ne hk
    | some b => exact Dict.value_put_ne hk

theorem foldl_some (b : β) (xs : List α) :
    xs.foldl (fun b x => some (b.elim (new x) (join · x))) (some b) = some (xs.foldl join b) := by
  induction xs generalizing b with
  | nil => rfl
  | cons x xs ih => exact ih (join b x)

/-- The group of a key is made of the elements of the key. -/
theorem value_groups (key : α → κ) (new : α → β) (join : β → α → β) (xs : List α) (k : κ) :
    (groups key new join xs).value k = groupOf new join (xs.filter (key · = k)) := by
  unfold groups
  rw [(collect_keyedStep key new join).view_foldl_filter xs ∅]
  cases xs.filter (key · = k) with
  | nil => rfl
  | cons x xs => exact foldl_some (new x) xs

theorem groupOf_eq_none : groupOf new join xs = none ↔ xs = [] := by
  cases xs with
  | nil => exact iff_of_true rfl rfl
  | cons x xs => exact iff_of_false (Option.some_ne_none _) (List.cons_ne_nil x xs)

/-- A key has a group where it has an element. -/
theorem mem_keys_groups : k ∈ (groups key new join xs).items.map Prod.fst ↔ ∃ x ∈ xs, key x = k := by
  have hnone : (groups key new join xs).value k = none ↔ ¬∃ x ∈ xs, key x = k := by
    rw [value_groups, groupOf_eq_none, List.filter_eq_nil_iff]
    simp
  rw [← not_iff_not, ← hnone, Dict.value_eq_none]

theorem groupOf_lists (f : α → β) (xs : List α) :
    (groupOf (fun x => [f x]) (fun ys x => ys ++ [f x]) xs).getD [] = xs.map f := by
  have hfoldl : ∀ (xs : List α) (ys : List β), xs.foldl (fun ys x => ys ++ [f x]) ys = ys ++ xs.map f := by
    intro xs
    induction xs with
    | nil => intro ys; exact (List.append_nil ys).symm
    | cons x xs ih =>
      intro ys
      rw [List.foldl_cons, ih, List.append_assoc, List.map_cons, List.singleton_append]
  cases xs with
  | nil => rfl
  | cons x xs => exact hfoldl xs [f x]

/-- A list of each key holds what belongs to the elements of the key. -/
theorem value_groups_lists (key : α → κ) (f : α → β) (xs : List α) (k : κ) :
    ((groups key (fun x => [f x]) (fun ys x => ys ++ [f x]) xs).value k).getD [] =
      (xs.filter (key · = k)).map f := by
  rw [value_groups, groupOf_lists]

/-- What holds of a group of one element and is kept by every element that joins holds of
    the group. -/
theorem groupOf_induction {P : List α → β → Prop} (hnew : ∀ x, P [x] (new x))
    (hjoin : ∀ xs b x, P xs b → P (xs ++ [x]) (join b x)) (h : groupOf new join xs = some b) : P xs b := by
  have hfoldl : ∀ (later earlier : List α) (b : β), P earlier b → P (earlier ++ later) (later.foldl join b) := by
    intro later
    induction later with
    | nil => intro earlier b hb; rwa [List.append_nil]
    | cons x later ih =>
      intro earlier b hb
      rw [List.append_cons]
      exact ih _ _ (hjoin earlier b x hb)
  cases xs with
  | nil => cases h
  | cons x xs =>
    cases h
    exact hfoldl xs [x] (new x) (hnew x)

end Pass

end IbTrader.Lib
