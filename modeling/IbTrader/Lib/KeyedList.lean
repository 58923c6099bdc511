/-
  IbTrader.Lib.KeyedList

  A dictionary whose values carry their own key, in the order in which the keys came.

  The values are determined by the look-ups: storing a value changes the look-up of
  its key and no other (`get_set_self`, `get_set_ne`), and dropping the values that
  fail a test drops them from the look-ups (`get_filter`).  A dictionary of pairs is
  one of keys and values (`Dict`).
-/

import Mathlib.Data.List.Nodup

namespace IbTrader.Lib

variable {α κ : Type*} [DecidableEq κ]

/-- Values with distinct keys. -/
@[ext] structure KeyedList (key : α → κ) where
  items : List α
  unique : (items.map key).Nodup

namespace KeyedList

variable {key : α → κ}

instance : EmptyCollection (KeyedList key) := ⟨⟨[], List.nodup_nil⟩⟩

/-- The value with a key. -/
def get (d : KeyedList key) (k : κ) : Option α := d.items.find? (key · = k)

/-- Store a value: in the place of the one with its key, else at the end. -/
def set (d : KeyedList key) (x : α) : KeyedList key where
  items :=
    if key x ∈ d.items.map key then d.items.map fun y => if key y = key x then x else y
    else d.items ++ [x]
  unique := by
    split
    case isTrue =>
      have hkeys : (d.items.map fun y => if key y = key x then x else y).map key =
          d.items.map key := by
        rw [List.map_map]
        refine List.map_congr_left fun y _ => ?_
        simp only [Function.comp_apply]
        split
        case isTrue h => exact h.symm
        case isFalse => rfl
      rw [hkeys]
      exact d.unique
    case isFalse hnew =>
      rw [List.map_append, List.nodup_append]
      refine ⟨d.unique, List.nodup_singleton _, fun k hk k' hk' heq => ?_⟩
      rw [List.map_singleton, List.mem_singleton] at hk'
      exact hnew (hk' ▸ heq ▸ hk)

/-- The values that pass a test. -/
def filter (d : KeyedList key) (p : α → Bool) : KeyedList key where
  items := d.items.filter p
  unique := d.unique.sublist (List.filter_sublist.map key)

@[simp] theorem get_empty (k : κ) : (∅ : KeyedList key).get k = none := rfl

section Laws

variable {d : KeyedList key} {k : κ} {x : α}

theorem get_eq_some : d.get k = some x ↔ x ∈ d.items ∧ key x = k := by
  constructor
  · intro h
    exact ⟨List.mem_of_find?_eq_some h, by simpa using List.find?_some h⟩
  · rintro ⟨hx, rfl⟩
    unfold get
    cases hfound : d.items.find? (key · = key x) with
    | none => exact absurd (List.find?_eq_none.mp hfound x hx) (by simp)
    | some y =>
      have hkey : key y = key x := by simpa using List.find?_some hfound
      rw [List.inj_on_of_nodup_map d.unique (List.mem_of_find?_eq_some hfound) hx hkey]

theorem get_eq_none : d.get k = none ↔ k ∉ d.items.map key := by
  unfold get
  rw [List.find?_eq_none]
  simp

theorem mem_items_set : ∀ {y : α}, y ∈ (d.set x).items ↔ y = x ∨ y ∈ d.items ∧ key y ≠ key x := by
  intro y
  unfold set
  dsimp only
  split
  case isTrue hold =>
    rw [List.mem_map]
    constructor
    · rintro ⟨z, hz, rfl⟩
      split
      case isTrue => exact .inl rfl
      case isFalse hne => exact .inr ⟨hz, hne⟩
    · rintro (rfl | ⟨hy, hne⟩)
      · obtain ⟨z, hz, hkey⟩ := List.mem_map.mp hold
        exact ⟨z, hz, if_pos hkey⟩
      · exact ⟨y, hy, if_neg hne⟩
  case isFalse hnew =>
    rw [List.mem_append, List.mem_singleton]
    constructor
    · rintro (hy | rfl)
      · exact .inr ⟨hy, fun hkey => hnew (hkey ▸ List.mem_map_of_mem hy)⟩
      · exact .inl rfl
    · rintro (rfl | ⟨hy, -⟩)
      · exact .inr rfl
      · exact .inl hy

@[simp] theorem get_set_self (d : KeyedList key) (x : α) : (d.set x).get (key x) = some x :=
  get_eq_some.mpr ⟨mem_items_set.mpr (.inl rfl), rfl⟩

theorem get_set_ne (h : k ≠ key x) : (d.set x).get k = d.get k := by
  refine Option.ext fun y => ?_
  rw [get_eq_some, get_eq_some, mem_items_set]
  constructor
  · rintro ⟨rfl | ⟨hy, -⟩, hkey⟩
    · exact absurd hkey.symm h
    · exact ⟨hy, hkey⟩
  · rintro ⟨hy, rfl⟩
    exact ⟨.inr ⟨hy, h⟩, rfl⟩

@[simp] theorem get_filter (d : KeyedList key) (p : α → Bool) (k : κ) :
    (d.filter p).get k = (d.get k).filter p := by
  refine Option.ext fun y => ?_
  rw [get_eq_some, Option.filter_eq_some_iff, get_eq_some]
  unfold filter
  rw [List.mem_filter]
  exact and_right_comm

/-- The values with one key. -/
theorem filter_key (d : KeyedList key) (k : κ) : d.items.filter (key · = k) = (d.get k).toList := by
  have hle := List.nodup_iff_count_le_one.mp d.unique k
  cases hget : d.get k with
  | none =>
    rw [get_eq_none] at hget
    exact List.filter_eq_nil_iff.mpr fun x hx hkey => hget (of_decide_eq_true hkey ▸ List.mem_map_of_mem hx)
  | some x =>
    have hmem : x ∈ d.items.filter (key · = k) :=
      List.mem_filter.mpr ((get_eq_some.mp hget).imp_right decide_eq_true)
    have hlength : (d.items.filter (key · = k)).length ≤ 1 := by
      rw [List.count, List.countP_map, List.countP_eq_length_filter] at hle
      exact hle
    obtain ⟨y, hy⟩ := List.length_eq_one_iff.mp (Nat.le_antisymm hlength (List.length_pos_of_mem hmem))
    rw [hy] at hmem ⊢
    rw [List.mem_singleton.mp hmem]
    rfl

end Laws

end KeyedList

-- ============================================================================
-- Keys and values
-- ============================================================================

/-- A dictionary from keys to values. -/
abbrev Dict (κ β : Type*) [DecidableEq κ] := KeyedList (Prod.fst : κ × β → κ)

namespace Dict

variable {β γ : Type*}

/-- The value of a key. -/
def value (d : Dict κ β) (k : κ) : Option β := (d.get k).map Prod.snd

/-- Store a value under a key. -/
def put (d : Dict κ β) (k : κ) (v : β) : Dict κ β := d.set (k, v)

/-- The dictionary without a key. -/
def erase (d : Dict κ β) (k : κ) : Dict κ β := d.filter (·.1 ≠ k)

/-- The first dictionary with the values of the second. -/
def update (d e : Dict κ β) : Dict κ β := e.items.foldl (fun d entry => d.put entry.1 entry.2) d

/-- The dictionary with another value for each key. -/
def mapValues (f : β → γ) (d : Dict κ β) : Dict κ γ where
  items := d.items.map fun e => (e.1, f e.2)
  unique := by
    rw [List.map_map]
    exact d.unique

section Laws

variable {d : Dict κ β} {k k' : κ} {v : β}

theorem value_eq_some : d.value k = some v ↔ (k, v) ∈ d.items := by
  unfold value
  constructor
  · intro h
    obtain ⟨e, he, rfl⟩ := Option.map_eq_some_iff.mp h
    obtain ⟨hmem, rfl⟩ := KeyedList.get_eq_some.mp he
    exact hmem
  · intro h
    rw [KeyedList.get_eq_some.mpr ⟨h, rfl⟩]
    rfl

theorem value_eq_none : d.value k = none ↔ k ∉ d.items.map Prod.fst := by
  unfold value
  rw [Option.map_eq_none_iff, KeyedList.get_eq_none]

@[simp] theorem value_put_self (d : Dict κ β) (k : κ) (v : β) : (d.put k v).value k = some v := by
  have hget := KeyedList.get_set_self d (k, v)
  unfold value put
  rw [hget]
  rfl

theorem value_put_ne (h : k' ≠ k) : (d.put k v).value k' = d.value k' := by
  unfold value put
  rw [KeyedList.get_set_ne h]

/-- The values of the keys that pass a test. -/
theorem value_filter (d : Dict κ β) (p : κ → Bool) (k : κ) :
    Dict.value (d.filter fun entry => p entry.1) k = if p k then d.value k else none := by
  refine Option.ext fun v => ?_
  rw [value_eq_some]
  unfold KeyedList.filter
  rw [List.mem_filter]
  split
  case isTrue hk => simp [hk, value_eq_some]
  case isFalse hk => simp [hk]

theorem value_erase (d : Dict κ β) (k k' : κ) :
    (d.erase k).value k' = if k' = k then none else d.value k' := by
  have hfilter := value_filter d (· ≠ k) k'
  unfold erase
  rw [hfilter]
  by_cases hk : k' = k <;> simp [hk]

/-- Values that are stored under other keys. -/
theorem value_foldl_put (entries : List (κ × β)) (d : Dict κ β) (h : k ∉ entries.map Prod.fst) :
    Dict.value (entries.foldl (fun d entry => d.put entry.1 entry.2) d) k = d.value k := by
  induction entries generalizing d with
  | nil => rfl
  | cons entry entries ih =>
    rw [List.map_cons, List.mem_cons, not_or] at h
    rw [List.foldl_cons, ih _ h.2, value_put_ne h.1]

/-- The second dictionary has the say. -/
theorem value_update (d e : Dict κ β) (k : κ) : (d.update e).value k = (e.value k).or (d.value k) := by
  unfold update
  cases hk : e.value k with
  | none => exact value_foldl_put e.items d (value_eq_none.mp hk)
  | some v =>
    obtain ⟨before, after, hitems⟩ := List.append_of_mem (value_eq_some.mp hk)
    have hunique := e.unique
    rw [hitems, List.map_append, List.map_cons] at hunique
    have hafter : k ∉ after.map Prod.fst := (List.nodup_cons.mp (List.nodup_append.mp hunique).2.1).1
    rw [hitems, List.foldl_append, List.foldl_cons, value_foldl_put after _ hafter, value_put_self]
    rfl

@[simp] theorem value_mapValues (f : β → γ) (d : Dict κ β) (k : κ) :
    (mapValues f d).value k = (d.value k).map f := by
  refine Option.ext fun w => ?_
  rw [value_eq_some, Option.map_eq_some_iff]
  unfold mapValues
  rw [List.mem_map]
  constructor
  · rintro ⟨⟨k', v⟩, hmem, heq⟩
    obtain ⟨rfl, rfl⟩ := Prod.mk.inj heq
    exact ⟨v, value_eq_some.mpr hmem, rfl⟩
  · rintro ⟨v, hv, rfl⟩
    exact ⟨(k, v), value_eq_some.mp hv, rfl⟩

end Laws

end Dict

end IbTrader.Lib
