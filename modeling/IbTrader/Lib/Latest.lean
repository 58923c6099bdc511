/-
  IbTrader.Lib.Latest

  The last element of each key in a log that only grows at its end.

  Elements without a key are left out.  What is appended replaces the elements of
  its keys and no others (`latest_append`), and an element is the last of its key
  exactly if nothing after it has the key (`mem_latest`).
-/

import Mathlib.Data.List.Nodup

namespace IbTrader.Lib

variable {α κ : Type*} [DecidableEq κ]

/-- The last element of each key, in the order of the log. -/
def latest (key : α → Option κ) : List α → List α
  | [] => []
  | x :: later =>
    if (key x).isSome = true ∧ ∀ y ∈ later, key y ≠ key x then x :: latest key later
    else latest key later

section Latest

variable {key : α → Option κ} {xs ys : List α} {x : α}

theorem latest_sublist (key : α → Option κ) (xs : List α) : (latest key xs).Sublist xs := by
  induction xs with
  | nil => exact List.Sublist.refl _
  | cons x later ih =>
    unfold latest
    split
    · exact ih.cons_cons x
    · exact ih.cons x

theorem isSome_of_mem_latest (h : x ∈ latest key xs) : (key x).isSome = true := by
  induction xs with
  | nil => cases h
  | cons y later ih =>
    unfold latest at h
    split at h
    case isTrue hlast =>
      rcases List.mem_cons.mp h with rfl | h
      · exact hlast.1
      · exact ih h
    case isFalse => exact ih h

/-- It has one element a key. -/
theorem latest_nodup (key : α → Option κ) (xs : List α) : ((latest key xs).map key).Nodup := by
  induction xs with
  | nil => exact List.nodup_nil
  | cons x later ih =>
    unfold latest
    split
    case isTrue hlast =>
      rw [List.map_cons, List.nodup_cons]
      refine ⟨fun hmem => ?_, ih⟩
      obtain ⟨y, hy, hkey⟩ := List.mem_map.mp hmem
      exact hlast.2 y ((latest_sublist key later).subset hy) hkey
    case isFalse => exact ih

/-- The last of its key: nothing after it has the key. -/
theorem mem_latest : x ∈ latest key xs ↔ (key x).isSome = true ∧
    ∃ before after, xs = before ++ x :: after ∧ ∀ y ∈ after, key y ≠ key x := by
  constructor
  · intro h
    refine ⟨isSome_of_mem_latest h, ?_⟩
    induction xs with
    | nil => cases h
    | cons z later ih =>
      unfold latest at h
      split at h
      case isTrue hlast =>
        rcases List.mem_cons.mp h with rfl | h
        · exact ⟨[], later, rfl, hlast.2⟩
        · obtain ⟨before, after, rfl, hafter⟩ := ih h
          exact ⟨z :: before, after, rfl, hafter⟩
      case isFalse =>
        obtain ⟨before, after, rfl, hafter⟩ := ih h
        exact ⟨z :: before, after, rfl, hafter⟩
  · rintro ⟨hsome, before, after, rfl, hafter⟩
    induction before with
    | nil =>
      rw [List.nil_append, latest, if_pos ⟨hsome, hafter⟩]
      exact List.mem_cons_self
    | cons z before ih =>
      rw [List.cons_append, latest]
      split
      · exact List.mem_cons_of_mem _ ih
      · exact ih

/-- Where every key comes once nothing is replaced. -/
theorem latest_of_nodup (hsome : ∀ y ∈ ys, (key y).isSome = true) (hnodup : (ys.map key).Nodup) :
    latest key ys = ys := by
  induction ys with
  | nil => rfl
  | cons y later ih =>
    rw [List.map_cons, List.nodup_cons] at hnodup
    have hlast : ∀ z ∈ later, key z ≠ key y := fun z hz hkey =>
      hnodup.1 (hkey ▸ List.mem_map_of_mem hz)
    rw [latest, if_pos ⟨hsome y List.mem_cons_self, hlast⟩,
      ih (fun z hz => hsome z (List.mem_cons_of_mem _ hz)) hnodup.2]

/-- What is appended replaces the elements of its keys. -/
theorem latest_append (hsome : ∀ y ∈ ys, (key y).isSome = true) (hnodup : (ys.map key).Nodup) :
    latest key (xs ++ ys) = (latest key xs).filter (fun x => key x ∉ ys.map key) ++ ys := by
  induction xs with
  | nil => exact latest_of_nodup hsome hnodup
  | cons x later ih =>
    have happend : (∀ y ∈ later ++ ys, key y ≠ key x) ↔
        (∀ y ∈ later, key y ≠ key x) ∧ key x ∉ ys.map key := by
      rw [List.forall_mem_append]
      refine and_congr Iff.rfl ⟨fun h hmem => ?_, fun h y hy hkey => ?_⟩
      · obtain ⟨y, hy, hkey⟩ := List.mem_map.mp hmem
        exact h y hy hkey
      · exact h (hkey ▸ List.mem_map_of_mem hy)
    rw [List.cons_append, latest, latest, ih]
    by_cases hlast : (key x).isSome = true ∧ ∀ y ∈ later, key y ≠ key x
    · by_cases hmem : key x ∈ ys.map key
      · rw [if_neg (fun h => (happend.mp h.2).2 hmem), if_pos hlast,
          List.filter_cons_of_neg (by simpa using hmem)]
      · rw [if_pos ⟨hlast.1, happend.mpr ⟨hlast.2, hmem⟩⟩, if_pos hlast,
          List.filter_cons_of_pos (by simpa using hmem), List.cons_append]
    · rw [if_neg (fun h => hlast ⟨h.1, (happend.mp h.2).1⟩), if_neg hlast]

/-- The last of its key is so in a part of the log that holds it. -/
theorem mem_latest_filter {p : α → Bool} (h : x ∈ latest key xs) (hp : p x = true) :
    x ∈ latest key (xs.filter p) := by
  obtain ⟨hsome, before, after, rfl, hafter⟩ := mem_latest.mp h
  refine mem_latest.mpr ⟨hsome, before.filter p, after.filter p, ?_, fun y hy => ?_⟩
  · rw [List.filter_append, List.filter_cons_of_pos hp]
  · exact hafter y (List.mem_of_mem_filter hy)

/-- A part of the log that, with an element, holds the later ones of its key has the
    same last elements. -/
theorem mem_latest_of_filter {p : α → Bool} (h : x ∈ latest key (xs.filter p))
    (hlater : xs.Pairwise fun y z => key y = key z → p y = true → p z = true) :
    x ∈ latest key xs := by
  obtain ⟨hsome, before, after, hsplit, hafter⟩ := mem_latest.mp h
  obtain ⟨before', rest, rfl, -, hrest⟩ := List.filter_eq_append_iff.mp hsplit
  obtain ⟨between, after', rfl, -, hpx, hafter'⟩ := List.filter_eq_cons_iff.mp hrest
  refine mem_latest.mpr ⟨hsome, before' ++ between, after', by simp, fun y hy hkey => ?_⟩
  have hrest := (List.pairwise_append.mp (List.pairwise_append.mp hlater).2.1).2.1
  have hpy : p y = true := (List.pairwise_cons.mp hrest).1 y hy hkey.symm hpx
  rw [← hafter'] at hafter
  exact hafter y (List.mem_filter.mpr ⟨hy, hpy⟩) hkey

end Latest

end IbTrader.Lib
