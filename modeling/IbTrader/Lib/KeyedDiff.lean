/-
  IbTrader.Lib.KeyedDiff

  The difference of two keyed dictionaries, and a copy of the first that is patched
  with it.

  A copy may hold images of the values, under their keys.  Patched with the difference
  it holds the images of the second dictionary (`get_patch_diff`), whatever the order
  of either.
-/

import Mathlib.Data.List.Nodup
import IbTrader.Lib.KeyedList

namespace IbTrader.Lib

variable {α β κ : Type*} [DecidableEq κ]

namespace KeyedList

variable {key : α → κ}

/-- The dictionary of some values, stored one after the other. -/
def ofList (key : α → κ) (xs : List α) : KeyedList key := xs.foldl set ∅

theorem items_foldl_set (xs : List α) (d : KeyedList key) (hxs : (xs.map key).Nodup)
    (hnew : ∀ x ∈ xs, key x ∉ d.items.map key) : (xs.foldl set d).items = d.items ++ xs := by
  induction xs generalizing d with
  | nil => rw [List.foldl_nil, List.append_nil]
  | cons x xs ih =>
    rw [List.map_cons, List.nodup_cons] at hxs
    have hset : (d.set x).items = d.items ++ [x] := if_neg (hnew x List.mem_cons_self)
    rw [List.foldl_cons, ih _ hxs.2, hset, List.append_assoc, List.singleton_append]
    intro y hy
    rw [hset, List.map_append, List.mem_append, not_or]
    refine ⟨hnew y (List.mem_cons_of_mem x hy), ?_⟩
    rw [List.map_singleton, List.mem_singleton]
    exact fun heq => hxs.1 (heq ▸ List.mem_map_of_mem hy)

/-- Values with distinct keys are kept as they are. -/
theorem items_ofList {xs : List α} (h : (xs.map key).Nodup) : (ofList key xs).items = xs := by
  rw [ofList, items_foldl_set xs ∅ h fun x _ => List.not_mem_nil]
  rfl

theorem ofList_items (d : KeyedList key) : ofList key d.items = d := KeyedList.ext (items_ofList d.unique)

/-- Values with distinct keys, stored one after the other. -/
theorem get_foldl_set (xs : List α) (d : KeyedList key) (hxs : (xs.map key).Nodup) (k : κ) :
    (xs.foldl set d).get k = (xs.find? (key · = k)).or (d.get k) := by
  induction xs generalizing d with
  | nil => rfl
  | cons x xs ih =>
    rw [List.map_cons, List.nodup_cons] at hxs
    rw [List.foldl_cons, ih _ hxs.2]
    by_cases hk : key x = k
    · subst hk
      have hlater : xs.find? (key · = key x) = none := by
        refine List.find?_eq_none.mpr fun y hy => ?_
        have hne : key y ≠ key x := fun heq => hxs.1 (heq ▸ List.mem_map_of_mem hy)
        simpa using hne
      rw [hlater, List.find?_cons_of_pos (by simp), get_set_self]
      rfl
    · rw [List.find?_cons_of_neg (by simpa using hk), get_set_ne (Ne.symm hk)]

/-- Dictionaries with the same look-ups have the same values. -/
theorem perm_of_get_eq {d d' : KeyedList key} (h : ∀ k, d.get k = d'.get k) : d.items.Perm d'.items := by
  refine (List.perm_ext_iff_of_nodup d.unique.of_map d'.unique.of_map).mpr fun x => ?_
  have hx := h (key x)
  constructor
  · intro hmem
    exact (get_eq_some.mp (hx ▸ get_eq_some.mpr ⟨hmem, rfl⟩)).1
  · intro hmem
    exact (get_eq_some.mp (hx ▸ get_eq_some.mpr ⟨hmem, rfl⟩)).1

end KeyedList

-- ============================================================================
-- Differences
-- ============================================================================

/-- The difference of two dictionaries. -/
structure Diff (α : Type*) where
  added : List α
  updated : List α
  removed : List α
  deriving DecidableEq

namespace KeyedList

variable {key : α → κ} {key' : β → κ}

/-- What takes `old` to `new`. -/
def diff [DecidableEq α] (old new : KeyedList key) : Diff α where
  added := (new.filter fun x => old.get (key x) = none).items
  updated := (new.filter fun x => old.get (key x) ≠ none ∧ old.get (key x) ≠ some x).items
  removed := (old.filter fun x => new.get (key x) = none).items

/-- Drop some keys and store some values. -/
def patch (d : KeyedList key) (removed : List κ) (values : List α) : KeyedList key :=
  values.foldl set (d.filter (key · ∉ removed))

/-- A copy in any order. -/
theorem get_of_perm_map {f : α → β} (hf : ∀ x, key' (f x) = key x) {old : KeyedList key}
    {d : KeyedList key'} (h : d.items.Perm (old.items.map f)) (k : κ) :
    d.get k = (old.get k).map f := by
  refine Option.ext fun y => ?_
  rw [get_eq_some, Option.map_eq_some_iff, h.mem_iff, List.mem_map]
  constructor
  · rintro ⟨⟨x, hx, rfl⟩, hk⟩
    exact ⟨x, get_eq_some.mpr ⟨hx, (hf x) ▸ hk⟩, rfl⟩
  · rintro ⟨x, hx, rfl⟩
    obtain ⟨hmem, hk⟩ := get_eq_some.mp hx
    exact ⟨⟨x, hmem, rfl⟩, by rw [hf, hk]⟩

theorem find?_map_key {f : α → β} (hf : ∀ x, key' (f x) = key x) (xs : List α) (k : κ) :
    (xs.map f).find? (key' · = k) = (xs.find? (key · = k)).map f := by
  rw [List.find?_map]
  congr 2
  funext x
  simp only [Function.comp_apply, hf]

/-- A copy patched with the difference is a copy of the new dictionary. -/
theorem get_patch_diff [DecidableEq α] {f : α → β} (hf : ∀ x, key' (f x) = key x)
    {old new : KeyedList key} {d : KeyedList key'} (hd : ∀ k, d.get k = (old.get k).map f) (k : κ) :
    (d.patch ((diff old new).removed.map key)
      (((diff old new).added ++ (diff old new).updated).map f)).get k = (new.get k).map f := by
  have hkeys : ∀ xs : List α, (xs.map key).Nodup → ((xs.map f).map key').Nodup := by
    intro xs hxs
    have hcomp : key' ∘ f = key := funext hf
    rwa [List.map_map, hcomp]
  have hremoved : k ∈ (diff old new).removed.map key ↔ old.get k ≠ none ∧ new.get k = none := by
    rw [← not_iff_not, show k ∉ (diff old new).removed.map key ↔ _ from get_eq_none.symm, get_filter]
    cases hold : old.get k with
    | none => simp
    | some x =>
      rw [Option.filter_eq_none_iff]
      simp [(get_eq_some.mp hold).2]
  have hadded : ((diff old new).added.map f).find? (key' · = k) =
      ((new.get k).filter fun x => old.get (key x) = none).map f := by
    rw [find?_map_key hf]
    exact congrArg _ (get_filter new _ k)
  have hupdated : ((diff old new).updated.map f).find? (key' · = k) =
      ((new.get k).filter fun x => old.get (key x) ≠ none ∧ old.get (key x) ≠ some x).map f := by
    rw [find?_map_key hf]
    exact congrArg _ (get_filter new _ k)
  have hadds : ((diff old new).added.map key).Nodup := (new.filter _).unique
  have hupdates : ((diff old new).updated.map key).Nodup := (new.filter _).unique
  rw [patch, List.map_append, List.foldl_append, get_foldl_set _ _ (hkeys _ hupdates),
    get_foldl_set _ _ (hkeys _ hadds), hadded, hupdated, get_filter, hd]
  cases hnew : new.get k with
  | none =>
    cases hold : old.get k with
    | none => rfl
    | some y =>
      have hgone := hremoved.mpr ⟨by rw [hold]; exact Option.some_ne_none y, hnew⟩
      have hy : key' (f y) = k := by rw [hf, (get_eq_some.mp hold).2]
      simpa [hy] using hgone
  | some x =>
    have hstays : k ∉ (diff old new).removed.map key := fun h =>
      absurd (hremoved.mp h).2 (by rw [hnew]; exact Option.some_ne_none x)
    have hx : key x = k := (get_eq_some.mp hnew).2
    cases hold : old.get k with
    | none => simp [hx, hold]
    | some y =>
      have hy : key' (f y) = k := by rw [hf, (get_eq_some.mp hold).2]
      by_cases hsame : y = x
      · simpa [hx, hold, hsame, hf] using hstays
      · simp [hx, hold, hsame]

/-- Dictionaries without a difference have the same values. -/
theorem perm_of_diff_nil [DecidableEq α] {old new : KeyedList key} (hadded : (diff old new).added = [])
    (hupdated : (diff old new).updated = []) (hremoved : (diff old new).removed = []) :
    new.items.Perm old.items := by
  refine perm_of_get_eq fun k => ?_
  have hcopy : ∀ k, old.get k = (old.get k).map id := fun k => by rw [Option.map_id, id]
  have hpatch : _ = (new.get k).map id := get_patch_diff (fun _ => rfl) hcopy k
  rw [hadded, hupdated, hremoved] at hpatch
  cases hold : old.get k with
  | none => simpa [patch, hold] using hpatch.symm
  | some x => simpa [patch, hold, Option.filter_some] using hpatch.symm

end KeyedList

end IbTrader.Lib
