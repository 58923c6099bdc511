/-
  IbTrader.Engine.OpenOrdersMirror

  What a sweep makes of the `orders:open` hash.

  Over the orders of one sweep a key is written by the order that has it and deleted
  by an order whose row is moved from it (`value_run`), so what a key holds at the end
  is decided by the orders before and after the one that has it
  (`value_syncOrdersOpenFromIb`).  A row merged a second time is the same
  (`mergedRow_again`), so a hash that mirrors the orders is left alone.  The sweep
  mirrors the orders exactly where no row is deleted after it has been written and no
  row is made of another order's (`sync_mirrors_iff`).
-/

import Mathlib.Data.List.Nodup
import IbTrader.Engine.OpenOrders

namespace IbTrader.Engine.OpenOrders

open Data Lib

-- ============================================================================
-- Merging
-- ============================================================================

theorem mergedSecType_ne_empty (o : LiveOrder) (prev : Row) : mergedSecType o prev ≠ "" :=
  either_ne_empty (by decide)

theorem mergedDisplay_ne_empty {o : LiveOrder} (h : o.sym ≠ "") (prev : Row) :
    mergedDisplay o prev ≠ "" := by
  refine either_ne_empty ?_
  split
  case isTrue =>
    split
    case h_1 display hdisplay => exact formatDisplaySymbol_ne_empty hdisplay
    case h_2 => exact append_space_ne_empty _ _
  case isFalse => exact h

theorem orRow_orRow (text : String) (f : Field String) :
    orRow text (some (orRow text f)) = orRow text f := by
  unfold orRow
  split
  case isTrue => rfl
  case isFalse => rfl

/-- A row merged a second time is the same. -/
theorem mergedRow_again {o : LiveOrder} (hsym : o.sym ≠ "") (now now' : Stamp) (prev : Row) :
    mergedRow now' o (mergedRow now o prev) = mergedRow now o prev := by
  have hsec : mergedSecType o (mergedRow now o prev) = mergedSecType o prev := by
    by_cases hempty : o.secType = ""
    · change either (either o.secType (mergedSecType o prev)) "STK" = mergedSecType o prev
      rw [either, either, if_pos hempty, if_neg (mergedSecType_ne_empty o prev)]
    · simp only [mergedSecType, either_of_ne hempty]
  have hdisplay : mergedDisplay o (mergedRow now o prev) = mergedDisplay o prev := by
    have hne := mergedDisplay_ne_empty hsym prev
    exact either_of_ne hne
  have hts : either (either prev.ts.text now) now' = either prev.ts.text now :=
    either_of_ne (either_ne_empty now.2)
  have hcon : (if o.conId = 0 then if o.conId = 0 then prev.conId.join else some o.conId
      else some o.conId) = if o.conId = 0 then prev.conId.join else some o.conId := by
    split <;> rfl
  have hperm : (if perm o.permId = none then (mergedRow now o prev).permId else some o.permId) =
      (mergedRow now o prev).permId := by
    simp only [mergedRow]
    split <;> rfl
  have hthere : (mergedRow now o prev).orderRef ≠ none := by
    change (if prev.orderRef = none then some (some o.orderRef) else prev.orderRef) ≠ none
    split
    case isTrue => exact Option.some_ne_none _
    case isFalse hsome => exact hsome
  calc mergedRow now' o (mergedRow now o prev)
      = { mergedRow now o prev with
          secType := some (some (mergedSecType o (mergedRow now o prev)))
          displaySymbol := some (some (mergedDisplay o (mergedRow now o prev)))
          orderType := some (orRow o.orderType (some (orRow o.orderType prev.orderType)))
          expiry := some (orRow o.expiry (some (orRow o.expiry prev.expiry)))
          tradingClass := some (orRow o.tradingClass (some (orRow o.tradingClass prev.tradingClass)))
          multiplier := some (orRow o.multiplier (some (orRow o.multiplier prev.multiplier)))
          conId := some (if o.conId = 0 then if o.conId = 0 then prev.conId.join else some o.conId
            else some o.conId)
          ts := some (some (either (either prev.ts.text now) now'))
          orderRef := if (mergedRow now o prev).orderRef = none then some (some o.orderRef)
            else (mergedRow now o prev).orderRef
          permId := if perm o.permId = none then (mergedRow now o prev).permId
            else some o.permId } := rfl
    _ = mergedRow now o prev := by
        rw [hsec, hdisplay, hts, hcon, if_neg hthere, hperm, orRow_orRow, orRow_orRow, orRow_orRow,
          orRow_orRow]
        rfl

theorem mergedRow_perm {o : LiveOrder} (h : perm o.permId ≠ none) (now : Stamp) (prev : Row) :
    (mergedRow now o prev).perm = perm o.permId := by
  change perm (if perm o.permId = none then prev.permId else some o.permId).join = perm o.permId
  rw [if_neg h]
  rfl

theorem empty_perm : (∅ : Row).perm = none := rfl

-- ============================================================================
-- The keys a row is moved from
-- ============================================================================

section Keys

variable {existing : Dict String Row} {o o' : LiveOrder} {k : String} {p : ℤ}

theorem permToKey_some (h : permToKey existing p = some k) :
    ∃ row, existing.value k = some row ∧ row.perm = some p := by
  obtain ⟨⟨k', row⟩, hfind, rfl⟩ := Option.map_eq_some_iff.mp h
  have hmem := List.mem_reverse.mp (List.mem_of_find?_eq_some hfind)
  exact ⟨row, Dict.value_eq_some.mpr hmem, by simpa using List.find?_some hfind⟩

theorem permToKey_none (h : permToKey existing p = none) {row : Row}
    (hrow : existing.value k = some row) : row.perm ≠ some p := by
  have hnone := List.find?_eq_none.mp (Option.map_eq_none_iff.mp h) (k, row)
    (List.mem_reverse.mpr (Dict.value_eq_some.mp hrow))
  simpa using hnone

theorem oldKey_some (h : oldKey existing o = some k) :
    ∃ row, existing.value k = some row ∧ row.perm = perm o.permId := by
  obtain ⟨p, hp, hkey⟩ := Option.bind_eq_some_iff.mp h
  rw [hp]
  exact permToKey_some hkey

theorem oldKey_none (h : oldKey existing o = none) (hp : perm o.permId ≠ none) {row : Row}
    (hrow : existing.value k = some row) : row.perm ≠ perm o.permId := by
  obtain ⟨p, hsome⟩ := Option.ne_none_iff_exists'.mp hp
  rw [oldKey, hsome, Option.bind_some] at h
  rw [hsome]
  exact permToKey_none h hrow

theorem movedFrom_eq_some :
    movedFrom existing o = some k ↔ oldKey existing o = some k ∧ k ≠ "" ∧ k ≠ o.ibOrderId := by
  unfold movedFrom
  rw [Option.filter_eq_some_iff]
  simp

theorem movedFrom_of_oldKey (h : oldKey existing o = some k) (hk : ¬(k ≠ "" ∧ k ≠ o.ibOrderId)) :
    movedFrom existing o = none := by
  rw [movedFrom, h, Option.filter_some, if_neg (by simpa using hk)]

/-- The orders that rows are moved for are the ones they are stored for. -/
theorem perm_of_mem_moved {orders : List LiveOrder} (h : k ∈ orders.filterMap (movedFrom existing))
    {row : Row} (hrow : existing.value k = some row) :
    ∃ o ∈ orders, row.perm = perm o.permId := by
  obtain ⟨o, ho, hmoved⟩ := List.mem_filterMap.mp h
  obtain ⟨row', hrow', hperm⟩ := oldKey_some (movedFrom_eq_some.mp hmoved).1
  rw [hrow, Option.some.injEq] at hrow'
  exact ⟨o, ho, by rw [hrow', hperm]⟩

end Keys

-- ============================================================================
-- One key through the sweep
-- ============================================================================

section Run

variable (clock : LiveOrder → Stamp) (moved : LiveOrder → Option String)

/-- The sweep over orders none of which is passed over. -/
def run (orders : List LiveOrder) (s : Sync) : Sync :=
  orders.foldl (fun s o => syncOrder (clock o) (moved o) s o) s

variable {s : Sync} {o : LiveOrder} {k : String}

@[simp] theorem write_existing (s : Sync) (now : Stamp) (o : LiveOrder) (prev : Row) :
    (s.write now o prev).existing = s.existing := by
  unfold Sync.write
  dsimp only
  split <;> rfl

@[simp] theorem write_seen (s : Sync) (now : Stamp) (o : LiveOrder) (prev : Row) :
    (s.write now o prev).seen = o.ibOrderId :: s.seen := by
  unfold Sync.write
  dsimp only
  split <;> rfl

theorem value_write (now : Stamp) (prev : Row) :
    (s.write now o prev).hash.value k =
      if k = o.ibOrderId ∧ mergedRow now o prev ≠ prev then some (some (mergedRow now o prev))
      else s.hash.value k := by
  unfold Sync.write
  dsimp only
  by_cases hsame : mergedRow now o prev = prev
  · rw [if_pos hsame, if_neg fun h => h.2 hsame]
  · rw [if_neg hsame]
    by_cases hk : k = o.ibOrderId
    · rw [if_pos ⟨hk, hsame⟩, hk]
      exact Dict.value_put_self _ _ _
    · rw [if_neg fun h => hk h.1]
      exact Dict.value_put_ne hk

@[simp] theorem syncOrder_seen (now : Stamp) (m : Option String) (s : Sync) (o : LiveOrder) :
    (syncOrder now m s o).seen = o.ibOrderId :: s.seen := by
  unfold syncOrder
  split <;> rw [write_seen]

theorem value_existing_syncOrder (now : Stamp) (m : Option String) :
    (syncOrder now m s o).existing.value k = if m = some k then none else s.existing.value k := by
  unfold syncOrder
  split
  case h_1 k' =>
    rw [write_existing, Dict.value_erase]
    simp only [Option.some.injEq, eq_comm]
  case h_2 => rw [write_existing, if_neg (Option.some_ne_none k).symm]

/-- An order leaves the keys of the others, but for the one its row is moved from. -/
theorem value_syncOrder_ne (now : Stamp) (m : Option String) (hk : k ≠ o.ibOrderId) :
    (syncOrder now m s o).hash.value k = if m = some k then none else s.hash.value k := by
  unfold syncOrder
  split
  case h_1 k' =>
    rw [value_write, if_neg fun h => hk h.1, Dict.value_erase]
    simp only [Option.some.injEq, eq_comm]
  case h_2 =>
    rw [value_write, if_neg fun h => hk h.1, if_neg (Option.some_ne_none k).symm]

theorem mem_filterMap_cons {orders : List LiveOrder} :
    k ∈ (o :: orders).filterMap moved ↔ moved o = some k ∨ k ∈ orders.filterMap moved := by
  simp only [List.mem_filterMap, List.mem_cons]
  constructor
  · rintro ⟨a, rfl | ha, hm⟩
    · exact .inl hm
    · exact .inr ⟨a, ha, hm⟩
  · rintro (hm | ⟨a, ha, hm⟩)
    · exact ⟨o, .inl rfl, hm⟩
    · exact ⟨a, .inr ha, hm⟩

theorem value_existing_run (orders : List LiveOrder) (s : Sync) (k : String) :
    (run clock moved orders s).existing.value k =
      if k ∈ orders.filterMap moved then none else s.existing.value k := by
  induction orders generalizing s with
  | nil => rfl
  | cons o orders ih =>
    rw [run, List.foldl_cons]
    refine (ih _).trans ?_
    rw [value_existing_syncOrder]
    by_cases hlater : k ∈ orders.filterMap moved
    · rw [if_pos hlater, if_pos ((mem_filterMap_cons moved).mpr (.inr hlater))]
    · rw [if_neg hlater]
      by_cases hnow : moved o = some k
      · rw [if_pos hnow, if_pos ((mem_filterMap_cons moved).mpr (.inl hnow))]
      · rw [if_neg hnow, if_neg fun h => ((mem_filterMap_cons moved).mp h).elim hnow hlater]

/-- A key that no order has. -/
theorem value_run (orders : List LiveOrder) (s : Sync) (hk : k ∉ orders.map (·.ibOrderId)) :
    (run clock moved orders s).hash.value k =
      if k ∈ orders.filterMap moved then none else s.hash.value k := by
  induction orders generalizing s with
  | nil => rfl
  | cons o orders ih =>
    rw [List.map_cons, List.mem_cons, not_or] at hk
    rw [run, List.foldl_cons]
    refine (ih _ hk.2).trans ?_
    rw [value_syncOrder_ne _ _ hk.1]
    by_cases hlater : k ∈ orders.filterMap moved
    · rw [if_pos hlater, if_pos ((mem_filterMap_cons moved).mpr (.inr hlater))]
    · rw [if_neg hlater]
      by_cases hnow : moved o = some k
      · rw [if_pos hnow, if_pos ((mem_filterMap_cons moved).mpr (.inl hnow))]
      · rw [if_neg hnow, if_neg fun h => ((mem_filterMap_cons moved).mp h).elim hnow hlater]

theorem mem_seen_run (orders : List LiveOrder) (s : Sync) :
    k ∈ (run clock moved orders s).seen ↔ k ∈ orders.map (·.ibOrderId) ∨ k ∈ s.seen := by
  induction orders generalizing s with
  | nil => simp [run]
  | cons o orders ih =>
    rw [run, List.foldl_cons]
    refine (ih _).trans ?_
    rw [syncOrder_seen, List.map_cons, List.mem_cons, List.mem_cons, or_left_comm, or_assoc]

theorem purgeKey_seen (s : Sync) (k : String) : (s.purgeKey k).seen = s.seen := by
  unfold Sync.purgeKey
  split <;> rfl

theorem value_purgeKey (s : Sync) (k k' : String) :
    (s.purgeKey k').hash.value k = if k = k' ∧ k' ∉ s.seen then none else s.hash.value k := by
  unfold Sync.purgeKey
  by_cases hseen : k' ∈ s.seen
  · rw [if_pos hseen, if_neg fun h => h.2 hseen]
  · rw [if_neg hseen, Dict.value_erase]
    simp only [hseen, not_false_eq_true, and_true]

theorem value_foldl_purgeKey (ks : List String) (s : Sync) (k : String) :
    (ks.foldl Sync.purgeKey s).hash.value k =
      if k ∈ ks ∧ k ∉ s.seen then none else s.hash.value k := by
  induction ks generalizing s with
  | nil => simp
  | cons k' ks ih =>
    rw [List.foldl_cons, ih, purgeKey_seen, value_purgeKey]
    by_cases hk : k = k'
    · subst hk
      by_cases hseen : k ∈ s.seen <;> simp [hseen]
    · simp [hk]

/-- Orders that are stored as they are reported leave the hash. -/
theorem run_of_same (orders : List LiveOrder) (s : Sync)
    (h : ∀ o ∈ orders, moved o = none ∧ mergedRow (clock o) o ((s.existing.value o.ibOrderId).getD ∅) =
      (s.existing.value o.ibOrderId).getD ∅) :
    ∃ seen, run clock moved orders s = { s with seen } := by
  induction orders generalizing s with
  | nil => exact ⟨s.seen, rfl⟩
  | cons o orders ih =>
    obtain ⟨hmoved, hsame⟩ := h o List.mem_cons_self
    have hstep : syncOrder (clock o) (moved o) s o = { s with seen := o.ibOrderId :: s.seen } := by
      rw [hmoved, syncOrder, Sync.write]
      exact if_pos hsame
    obtain ⟨seen, hrun⟩ := ih { s with seen := o.ibOrderId :: s.seen }
      fun x hx => h x (List.mem_cons_of_mem o hx)
    refine ⟨seen, ?_⟩
    rw [run, List.foldl_cons, hstep]
    exact hrun

theorem purge_of_seen (s : Sync) (h : ∀ k ∈ s.existing.items.map Prod.fst, k ∈ s.seen) :
    s.purge = s := by
  have hpass : ∀ ks : List String, (∀ k ∈ ks, k ∈ s.seen) → ks.foldl Sync.purgeKey s = s := by
    intro ks hks
    induction ks with
    | nil => rfl
    | cons k ks ih =>
      rw [List.foldl_cons, Sync.purgeKey, if_pos (hks k List.mem_cons_self)]
      exact ih fun x hx => hks x (List.mem_cons_of_mem k hx)
  exact hpass _ h

/-- The last pass drops what no live order has. -/
theorem value_purge (s : Sync) (k : String) :
    s.purge.hash.value k =
      if s.existing.value k ≠ none ∧ k ∉ s.seen then none else s.hash.value k := by
  have hmem : k ∈ s.existing.items.map Prod.fst ↔ s.existing.value k ≠ none :=
    ⟨fun h hnone => Dict.value_eq_none.mp hnone h, fun h => not_not.mp fun hnot =>
      h (Dict.value_eq_none.mpr hnot)⟩
  rw [Sync.purge, value_foldl_purgeKey]
  simp only [hmem]

end Run

-- ============================================================================
-- What a sweep leaves
-- ============================================================================

/-- Live orders with distinct non-zero ids and permIds, and with symbols. -/
structure Live (orders : List LiveOrder) : Prop where
  ids : (orders.map (·.ibOrderId)).Nodup
  keyed : ∀ o ∈ orders, o.ibOrderId ≠ "" ∧ o.ibOrderId ≠ "0"
  perms : (orders.map (·.permId)).Nodup
  permed : ∀ o ∈ orders, ∃ p, p ≠ 0 ∧ o.permId = some p
  named : ∀ o ∈ orders, o.localSymbol ≠ "" ∨ o.symbol ≠ ""

section Live

variable {orders : List LiveOrder} {o o' : LiveOrder} {before after : List LiveOrder}

theorem Live.perm_eq (h : Live orders) (ho : o ∈ orders) : perm o.permId = o.permId := by
  obtain ⟨p, hp, hsome⟩ := h.permed o ho
  rw [hsome, perm, Option.filter_some, if_pos (by simpa using hp)]

theorem Live.perm_ne_none (h : Live orders) (ho : o ∈ orders) : perm o.permId ≠ none := by
  obtain ⟨p, -, hsome⟩ := h.permed o ho
  rw [h.perm_eq ho, hsome]
  exact Option.some_ne_none p

theorem Live.eq_of_perm (h : Live orders) (ho : o ∈ orders) (ho' : o' ∈ orders)
    (hperm : perm o.permId = perm o'.permId) : o = o' := by
  rw [h.perm_eq ho, h.perm_eq ho'] at hperm
  exact List.inj_on_of_nodup_map h.perms ho ho' hperm

theorem Live.sym_ne_empty (h : Live orders) (ho : o ∈ orders) : o.sym ≠ "" := by
  refine upper_ne_empty ?_
  by_cases hlocal : o.localSymbol = ""
  · rw [either, if_pos hlocal]
    exact (h.named o ho).resolve_left fun hne => hne hlocal
  · rw [either_of_ne hlocal]
    exact hlocal

theorem Live.not_skipped (h : Live orders) (ho : o ∈ orders) : o.skipped = false := by
  have hkeyed := h.keyed o ho
  simp [LiveOrder.skipped, hkeyed.1, hkeyed.2, h.sym_ne_empty ho]

/-- No live order is passed over. -/
theorem syncOrdersOpenFromIb_eq (h : Live orders) (clock : LiveOrder → Stamp) (hash : OpenHash) :
    syncOrdersOpenFromIb clock orders hash =
      (run clock (movedFrom (readRows hash)) orders { existing := readRows hash, hash }).purge := by
  unfold syncOrdersOpenFromIb run
  dsimp only
  congr 1
  refine List.foldl_ext _ _ _ fun s o ho => ?_
  rw [h.not_skipped ho]
  rfl

theorem Live.id_not_mem (h : Live (before ++ o :: after)) :
    o.ibOrderId ∉ before.map (·.ibOrderId) ∧ o.ibOrderId ∉ after.map (·.ibOrderId) := by
  have hids := h.ids
  rw [List.map_append, List.map_cons, List.nodup_append] at hids
  obtain ⟨-, hafter, hdisjoint⟩ := hids
  exact ⟨fun hmem => hdisjoint _ hmem _ List.mem_cons_self rfl, (List.nodup_cons.mp hafter).1⟩

end Live

theorem value_readRows (hash : OpenHash) (k : String) :
    (readRows hash).value k = (hash.value k).map (·.getD ∅) := Dict.value_mapValues _ _ _

theorem value_readRows_of_stored {hash : OpenHash} {k : String} {row : Row} (h : hash.value k = some (some row)) :
    (readRows hash).value k = some row := by
  rw [value_readRows, h]
  rfl

/-- A row with a permId is one that was read. -/
theorem value_readRows_perm {hash : OpenHash} {k : String} {row : Row}
    (h : (readRows hash).value k = some row) (hperm : row.perm ≠ none) :
    hash.value k = some (some row) := by
  rw [value_readRows] at h
  obtain ⟨v, hv, rfl⟩ := Option.map_eq_some_iff.mp h
  cases v with
  | none => exact absurd empty_perm hperm
  | some row => exact hv

/-- The keys that rows are moved from, for some orders. -/
def movedKeys (hash : OpenHash) (orders : List LiveOrder) : List String :=
  orders.filterMap (movedFrom (readRows hash))

/-- The row left under the id of an order by the orders before it. -/
def leftRow (hash : OpenHash) (before : List LiveOrder) (o : LiveOrder) : Row :=
  if o.ibOrderId ∈ movedKeys hash before then ∅ else ((readRows hash).value o.ibOrderId).getD ∅

/-- The row that the row of an order is made over. -/
def startRow (hash : OpenHash) (before : List LiveOrder) (o : LiveOrder) : Row :=
  match movedFrom (readRows hash) o with
  | some k => ((readRows hash).value k).getD ∅
  | none => leftRow hash before o

section Left

variable {clock : LiveOrder → Stamp} {hash : OpenHash} {orders before after : List LiveOrder}
  {o : LiveOrder} {k : String}

/-- An order starts from the row that is moved, -/
theorem startRow_of_moved {row : Row} (hmoved : movedFrom (readRows hash) o = some k)
    (hread : (readRows hash).value k = some row) : startRow hash before o = row := by
  unfold startRow
  rw [hmoved]
  dsimp only
  rw [hread]
  rfl

/-- and from what is left under its id else. -/
theorem startRow_of_stays (hmoved : movedFrom (readRows hash) o = none) :
    startRow hash before o = leftRow hash before o := by
  rw [startRow, hmoved]

/-- A sweep leaves nothing under a key that no live order has. -/
theorem value_sync_other (h : Live orders) (hk : k ∉ orders.map (·.ibOrderId)) :
    (syncOrdersOpenFromIb clock orders hash).hash.value k = none := by
  have hseen : k ∉ (run clock (movedFrom (readRows hash)) orders
      { existing := readRows hash, hash }).seen := by
    rw [mem_seen_run]
    simpa using hk
  rw [syncOrdersOpenFromIb_eq h, value_purge, value_existing_run, value_run _ _ _ _ hk]
  by_cases hmoved : k ∈ orders.filterMap (movedFrom (readRows hash))
  · rw [if_pos hmoved, if_pos hmoved, ite_self]
  · rw [if_neg hmoved, if_neg hmoved]
    cases hv : hash.value k with
    | none => rw [ite_self]
    | some v =>
      refine if_pos ⟨?_, hseen⟩
      dsimp only
      rw [value_readRows, hv]
      exact Option.some_ne_none _

/-- No row is moved from the key that an order's row is stored under, but for that
    order. -/
theorem not_moved_of_perm (h : Live (before ++ o :: after)) {row : Row}
    (hrow : (readRows hash).value k = some row) (hperm : row.perm = perm o.permId) :
    k ∉ movedKeys hash before := by
  intro hmoved
  obtain ⟨o', ho', hperm'⟩ := perm_of_mem_moved hmoved hrow
  have hsame : o' = o := h.eq_of_perm (List.mem_append_left _ ho') (by simp) (by rw [← hperm', hperm])
  subst hsame
  exact h.id_not_mem.1 (List.mem_map_of_mem ho')

/-- What a sweep leaves under the id of an order. -/
theorem value_sync (h : Live (before ++ o :: after)) :
    (syncOrdersOpenFromIb clock (before ++ o :: after) hash).hash.value o.ibOrderId =
      if o.ibOrderId ∈ movedKeys hash after then none
      else if mergedRow (clock o) o (startRow hash before o) = startRow hash before o then
        if o.ibOrderId ∈ movedKeys hash before then none else hash.value o.ibOrderId
      else some (some (mergedRow (clock o) o (startRow hash before o))) := by
  have hids := h.id_not_mem
  have hseen : o.ibOrderId ∈ (run clock (movedFrom (readRows hash)) (before ++ o :: after)
      { existing := readRows hash, hash }).seen := by
    rw [mem_seen_run]
    simp
  rw [syncOrdersOpenFromIb_eq h, value_purge, if_neg fun hdrop => hdrop.2 hseen]
  have hsplit : run clock (movedFrom (readRows hash)) (before ++ o :: after)
        { existing := readRows hash, hash } =
      run clock (movedFrom (readRows hash)) after (syncOrder (clock o) (movedFrom (readRows hash) o)
        (run clock (movedFrom (readRows hash)) before { existing := readRows hash, hash }) o) := by
    unfold run
    rw [List.foldl_append, List.foldl_cons]
  rw [hsplit, value_run _ _ _ _ hids.2]
  refine if_congr Iff.rfl rfl ?_
  -- the step for the order itself
  have hhash := value_run clock (movedFrom (readRows hash)) before
    { existing := readRows hash, hash } hids.1
  have hexisting := value_existing_run clock (movedFrom (readRows hash)) before
    { existing := readRows hash, hash }
  cases hmoved : movedFrom (readRows hash) o with
  | none =>
    have hstart : startRow hash before o = leftRow hash before o := startRow_of_stays hmoved
    have hprev : ((run clock (movedFrom (readRows hash)) before
        { existing := readRows hash, hash }).existing.value o.ibOrderId).getD ∅ =
        leftRow hash before o := by
      rw [hexisting, leftRow, movedKeys]
      split <;> rfl
    rw [syncOrder, value_write, hprev, hstart]
    by_cases hsame : mergedRow (clock o) o (leftRow hash before o) = leftRow hash before o
    · rw [if_neg fun hw => hw.2 hsame, if_pos hsame]
      exact hhash
    · rw [if_pos ⟨rfl, hsame⟩, if_neg hsame]
  | some k =>
    obtain ⟨hold, -, hne⟩ := movedFrom_eq_some.mp hmoved
    obtain ⟨row, hrow, hperm⟩ := oldKey_some hold
    have hstart : startRow hash before o = row := startRow_of_moved hmoved hrow
    have hleft := (hexisting k).trans (if_neg (not_moved_of_perm h hrow hperm))
    have hprev : ((run clock (movedFrom (readRows hash)) before
        { existing := readRows hash, hash }).existing.value k).getD ∅ = row := by
      rw [hleft]
      dsimp only
      rw [hrow]
      rfl
    rw [syncOrder, value_write, hprev, hstart]
    by_cases hsame : mergedRow (clock o) o row = row
    · rw [if_neg fun hw => hw.2 hsame, if_pos hsame, Dict.value_erase, if_neg (Ne.symm hne)]
      exact hhash
    · rw [if_pos ⟨rfl, hsame⟩, if_neg hsame]

end Left

-- ============================================================================
-- The hash mirrors the orders
-- ============================================================================

/-- The row stored under the id of an order, where it is stored for no order. -/
def unownedRow (hash : OpenHash) (o : LiveOrder) : Row :=
  match hash.value o.ibOrderId with
  | some (some row) => if row.perm = none then row else ∅
  | _ => ∅

/-- The rows that an order may be mirrored over: those stored for its permId, or where
    there is none what is stored under its id for no permId. -/
inductive Own (hash : OpenHash) (o : LiveOrder) : Row → Prop
  | stored {k : String} {row : Row} : hash.value k = some (some row) → row.perm = perm o.permId →
      Own hash o row
  | unstored : (∀ k row, hash.value k = some (some row) → row.perm ≠ perm o.permId) →
      Own hash o (unownedRow hash o)

/-- A hash mirrors the orders: one row for each, under its id, over what was stored for
    it and over nothing that was stored for another. -/
structure Mirrors (clock : LiveOrder → Stamp) (orders : List LiveOrder) (hash out : OpenHash) :
    Prop where
  rows : ∀ o ∈ orders, ∃ prev, Own hash o prev ∧
    out.value o.ibOrderId = some (some (mergedRow (clock o) o prev))
  others : ∀ k, k ∉ orders.map (·.ibOrderId) → out.value k = none

/-- A sweep mirrors the orders, and a second one over the same orders does nothing. -/
structure Mirrored (clock : LiveOrder → Stamp) (orders : List LiveOrder) (hash : OpenHash) : Prop where
  mirrors : Mirrors clock orders hash (syncOrdersOpenFromIb clock orders hash).hash
  again : ∀ (clock' : LiveOrder → Stamp) (out : OpenHash),
    (∀ k, out.value k = (syncOrdersOpenFromIb clock orders hash).hash.value k) →
      (∀ k, (syncOrdersOpenFromIb clock' orders out).hash.value k = out.value k) ∧
        (syncOrdersOpenFromIb clock' orders out).upserts = 0 ∧
        (syncOrdersOpenFromIb clock' orders out).removals = 0

/-- The order of the steps leaves one live order its row. -/
structure InPlace (clock : LiveOrder → Stamp) (hash : OpenHash) (before : List LiveOrder)
    (o : LiveOrder) (after : List LiveOrder) : Prop where
  /-- No later order's row is moved from the id. -/
  kept : o.ibOrderId ∉ movedKeys hash after
  /-- An order without a row of its own does not take the id of a row of another
      permId, unless that row has been moved or has nothing that a new row would not
      have. -/
  foreign : oldKey (readRows hash) o = none → ∀ row, hash.value o.ibOrderId = some (some row) →
    row.perm ≠ none → o.ibOrderId ∈ movedKeys hash before ∨
      mergedRow (clock o) o row = mergedRow (clock o) o ∅
  /-- A row that is stored under another id does not have all IB reports already,
      unless the one under the current id is this order's and has it too. -/
  moved : ∀ k row, movedFrom (readRows hash) o = some k → hash.value k = some (some row) →
    mergedRow (clock o) o row = row → ∃ row', hash.value o.ibOrderId = some (some row') ∧
      row'.perm = perm o.permId ∧ mergedRow (clock o) o row' = row'
  /-- A row stored under the empty key has nothing that the one under the id has not. -/
  unkeyed : oldKey (readRows hash) o = some "" → ∃ k row, hash.value k = some (some row) ∧
    row.perm = perm o.permId ∧
      mergedRow (clock o) o (leftRow hash before o) = mergedRow (clock o) o row

section Mirror

variable {clock : LiveOrder → Stamp} {hash : OpenHash} {orders before after : List LiveOrder}
  {o : LiveOrder} {k : String}

/-- What is left under an id is a row that was read there, or nothing. -/
theorem leftRow_cases (hash : OpenHash) (before : List LiveOrder) (o : LiveOrder) :
    leftRow hash before o = ∅ ∨ o.ibOrderId ∉ movedKeys hash before ∧
      hash.value o.ibOrderId = some (some (leftRow hash before o)) := by
  unfold leftRow
  split
  case isTrue => exact .inl rfl
  case isFalse hstays =>
    rw [value_readRows]
    cases hv : hash.value o.ibOrderId with
    | none => exact .inl rfl
    | some v =>
      cases v with
      | none => exact .inl rfl
      | some row => exact .inr ⟨hstays, rfl⟩

theorem not_stored_of_oldKey_none (h : oldKey (readRows hash) o = none) (hp : perm o.permId ≠ none)
    {row : Row} (hrow : hash.value k = some (some row)) : row.perm ≠ perm o.permId :=
  oldKey_none h hp (value_readRows_of_stored hrow)

theorem stored_of_oldKey_some (h : oldKey (readRows hash) o = some k) (hp : perm o.permId ≠ none) :
    ∃ row, hash.value k = some (some row) ∧ row.perm = perm o.permId := by
  obtain ⟨row, hrow, hperm⟩ := oldKey_some h
  exact ⟨row, value_readRows_perm hrow (by rw [hperm]; exact hp), hperm⟩

/-- The row left under the id of an order without a row of its own merges as the one
    stored there for no order. -/
theorem merged_leftRow (hlive : Live (before ++ o :: after)) (h : InPlace clock hash before o after)
    (hold : oldKey (readRows hash) o = none) :
    mergedRow (clock o) o (leftRow hash before o) = mergedRow (clock o) o (unownedRow hash o) := by
  rcases leftRow_cases hash before o with hempty | ⟨hstays, hrow⟩
  · cases hv : hash.value o.ibOrderId with
    | none => rw [hempty, unownedRow, hv]
    | some v =>
      cases v with
      | none => rw [hempty, unownedRow, hv]
      | some row =>
        by_cases hperm : row.perm = none
        · -- a row that is stored for no order is not moved
          have hread : (readRows hash).value o.ibOrderId = some row := by
            rw [value_readRows, hv]
            rfl
          have hstays : o.ibOrderId ∉ movedKeys hash before := by
            intro hmoved
            obtain ⟨o', ho', hsame⟩ := perm_of_mem_moved hmoved hread
            exact hlive.perm_ne_none (List.mem_append_left _ ho') (hsame.symm.trans hperm)
          have hleft : leftRow hash before o = row := by
            rw [leftRow, if_neg hstays, hread]
            rfl
          simp only [unownedRow, hv, hperm, if_true, hleft]
        · simp only [unownedRow, hv, hperm, if_false, hempty]
  · by_cases hperm : (leftRow hash before o).perm = none
    · simp only [unownedRow, hrow, hperm, if_true]
    · have hforeign := (h.foreign hold _ hrow hperm).resolve_left hstays
      simp only [unownedRow, hrow, hperm, if_false, hforeign]

/-- The condition gives each order its row. -/
theorem mirrored_of_inPlace (hlive : Live (before ++ o :: after)) (h : InPlace clock hash before o after) :
    ∃ prev, Own hash o prev ∧
      (syncOrdersOpenFromIb clock (before ++ o :: after) hash).hash.value o.ibOrderId =
        some (some (mergedRow (clock o) o prev)) := by
  have hp : perm o.permId ≠ none := hlive.perm_ne_none (by simp)
  have hvalue := @value_sync clock hash before after o hlive
  rw [if_neg h.kept] at hvalue
  rw [hvalue]
  cases hold : oldKey (readRows hash) o with
  | none =>
    have hmoved : movedFrom (readRows hash) o = none := by rw [movedFrom, hold]; rfl
    have hstart : startRow hash before o = leftRow hash before o := startRow_of_stays hmoved
    have hne : mergedRow (clock o) o (leftRow hash before o) ≠ leftRow hash before o := by
      intro hsame
      have hperm : (leftRow hash before o).perm = perm o.permId := by
        rw [← hsame]
        exact mergedRow_perm hp _ _
      rcases leftRow_cases hash before o with hempty | ⟨-, hrow⟩
      · rw [hempty] at hperm
        exact hp hperm.symm
      · exact not_stored_of_oldKey_none hold hp hrow hperm
    refine ⟨unownedRow hash o, .unstored fun k row hrow => not_stored_of_oldKey_none hold hp hrow, ?_⟩
    rw [hstart, if_neg hne, merged_leftRow hlive h hold]
  | some k =>
    obtain ⟨row, hrow, hperm⟩ := stored_of_oldKey_some hold hp
    have hread : (readRows hash).value k = some row := value_readRows_of_stored hrow
    by_cases hk : k ≠ "" ∧ k ≠ o.ibOrderId
    · -- the row is moved
      have hmoved := movedFrom_eq_some.mpr ⟨hold, hk⟩
      have hstart : startRow hash before o = row := startRow_of_moved hmoved hread
      rw [hstart]
      by_cases hsame : mergedRow (clock o) o row = row
      · obtain ⟨row', hrow', hperm', hsame'⟩ := h.moved k row hmoved hrow hsame
        have hread' : (readRows hash).value o.ibOrderId = some row' := value_readRows_of_stored hrow'
        refine ⟨row', .stored hrow' hperm', ?_⟩
        rw [if_pos hsame, if_neg (not_moved_of_perm hlive hread' hperm'), hsame', hrow']
      · exact ⟨row, .stored hrow hperm, by rw [if_neg hsame]⟩
    · have hmoved := movedFrom_of_oldKey hold hk
      have hstart : startRow hash before o = leftRow hash before o := startRow_of_stays hmoved
      rw [hstart]
      -- what is left under the id merges as a row of the order
      have hown : ∃ k' row', hash.value k' = some (some row') ∧ row'.perm = perm o.permId ∧
          mergedRow (clock o) o (leftRow hash before o) = mergedRow (clock o) o row' := by
        by_cases hempty : k = ""
        · exact h.unkeyed (by rw [hold, hempty])
        · have hid : k = o.ibOrderId := not_not.mp fun hne => hk ⟨hempty, hne⟩
          subst hid
          have hleft : leftRow hash before o = row := by
            rw [leftRow, if_neg (not_moved_of_perm hlive hread hperm), hread]
            rfl
          exact ⟨_, row, hrow, hperm, by rw [hleft]⟩
      obtain ⟨k', row', hrow', hperm', hmerged⟩ := hown
      refine ⟨row', .stored hrow' hperm', ?_⟩
      split
      case isTrue hsame =>
        have hleftperm : (leftRow hash before o).perm = perm o.permId := by
          rw [← hsame]
          exact mergedRow_perm hp _ _
        rcases leftRow_cases hash before o with hnothing | ⟨hstays, hthere⟩
        · rw [hnothing] at hleftperm
          exact absurd hleftperm.symm hp
        · rw [if_neg hstays, hthere, ← hmerged, hsame]
      case isFalse => rw [hmerged]

/-- An order that has its row has the condition. -/
theorem inPlace_of_mirrored (hlive : Live (before ++ o :: after)) {prev : Row} (hown : Own hash o prev)
    (hrow : (syncOrdersOpenFromIb clock (before ++ o :: after) hash).hash.value o.ibOrderId =
      some (some (mergedRow (clock o) o prev))) : InPlace clock hash before o after := by
  have hp : perm o.permId ≠ none := hlive.perm_ne_none (by simp)
  have hsym : o.sym ≠ "" := hlive.sym_ne_empty (by simp)
  rw [value_sync hlive] at hrow
  have hkept : o.ibOrderId ∉ movedKeys hash after := by
    intro hmoved
    rw [if_pos hmoved] at hrow
    cases hrow
  rw [if_neg hkept] at hrow
  refine ⟨hkept, fun hold row hthere hperm => ?_, fun k row hmoved hthere hsame => ?_, fun hold => ?_⟩
  · -- without a stored row the order has what is stored for no order, here nothing
    have hnot := fun {k : String} {row : Row} (hr : hash.value k = some (some row)) =>
      not_stored_of_oldKey_none hold hp hr
    refine or_iff_not_imp_left.mpr fun hstays => ?_
    have hmoved : movedFrom (readRows hash) o = none := by rw [movedFrom, hold]; rfl
    have hstart : startRow hash before o = row := by
      rw [startRow, hmoved, leftRow, if_neg hstays, value_readRows, hthere]
      rfl
    have hne : mergedRow (clock o) o row ≠ row := by
      intro hsame
      apply hnot hthere
      rw [← hsame]
      exact mergedRow_perm hp _ _
    rw [hstart, if_neg hne, Option.some.injEq, Option.some.injEq] at hrow
    rw [hrow]
    cases hown with
    | stored hr hperm' => exact absurd hperm' (hnot hr)
    | unstored => simp only [unownedRow, hthere, hperm, if_false]
  · have hread : (readRows hash).value k = some row := value_readRows_of_stored hthere
    have hstart : startRow hash before o = row := startRow_of_moved hmoved hread
    rw [hstart, if_pos hsame] at hrow
    split at hrow
    case isTrue => cases hrow
    case isFalse =>
      exact ⟨_, hrow, mergedRow_perm hp _ _, mergedRow_again hsym _ _ _⟩
  · obtain ⟨row, hthere, hperm⟩ := stored_of_oldKey_some hold hp
    have hmoved : movedFrom (readRows hash) o = none :=
      movedFrom_of_oldKey hold fun hk => hk.1 rfl
    have hstart : startRow hash before o = leftRow hash before o := startRow_of_stays hmoved
    rw [hstart] at hrow
    cases hown with
    | unstored hnot => exact absurd hperm (hnot _ _ hthere)
    | @stored k' _ hr hperm' =>
      refine ⟨k', prev, hr, hperm', ?_⟩
      split at hrow
      case isFalse => simpa using hrow
      case isTrue hsame =>
        split at hrow
        case isTrue => cases hrow
        case isFalse hstays =>
          have hleft : leftRow hash before o = mergedRow (clock o) o prev := by
            rw [leftRow, if_neg hstays, value_readRows, hrow]
            rfl
          rw [hsame, hleft]

/-- In a hash that mirrors the orders the row of each is found under its id. -/
theorem Mirrors.oldKey_eq (hlive : Live orders) {out : OpenHash} (h : Mirrors clock orders hash out)
    (ho : o ∈ orders) : oldKey (readRows out) o = some o.ibOrderId := by
  have hp := hlive.perm_ne_none ho
  obtain ⟨prev, -, hrow⟩ := h.rows o ho
  cases hold : oldKey (readRows out) o with
  | none => exact absurd (mergedRow_perm hp _ _) (not_stored_of_oldKey_none hold hp hrow)
  | some k =>
    obtain ⟨row, hthere, hperm⟩ := stored_of_oldKey_some hold hp
    have hk : k ∈ orders.map (·.ibOrderId) := by
      by_contra hnot
      rw [h.others k hnot] at hthere
      cases hthere
    obtain ⟨o', ho', rfl⟩ := List.mem_map.mp hk
    obtain ⟨prev', -, hrow'⟩ := h.rows o' ho'
    rw [hthere, Option.some.injEq, Option.some.injEq] at hrow'
    have hsame : o' = o := by
      refine hlive.eq_of_perm ho' ho ?_
      rw [← hperm, hrow', mergedRow_perm (hlive.perm_ne_none ho')]
    rw [hsame]

/-- A sweep over a hash that mirrors the orders does nothing. -/
theorem sync_of_mirrors (hlive : Live orders) {out : OpenHash} (h : Mirrors clock orders hash out)
    (clock' : LiveOrder → Stamp) :
    (∀ k, (syncOrdersOpenFromIb clock' orders out).hash.value k = out.value k) ∧
      (syncOrdersOpenFromIb clock' orders out).upserts = 0 ∧
      (syncOrdersOpenFromIb clock' orders out).removals = 0 := by
  obtain ⟨seen, hrun⟩ := run_of_same clock' (movedFrom (readRows out)) orders
    { existing := readRows out, hash := out } fun o ho => by
      obtain ⟨prev, -, hrow⟩ := h.rows o ho
      refine ⟨movedFrom_of_oldKey (h.oldKey_eq hlive ho) fun hne => hne.2 rfl, ?_⟩
      dsimp only
      rw [value_readRows, hrow]
      exact mergedRow_again (hlive.sym_ne_empty ho) _ _ _
  have hseen : ∀ k ∈ (readRows out).items.map Prod.fst,
      k ∈ (run clock' (movedFrom (readRows out)) orders { existing := readRows out, hash := out }).seen := by
    intro k hk
    rw [mem_seen_run]
    refine .inl ?_
    by_contra hnot
    refine Dict.value_eq_none.mp ?_ hk
    rw [value_readRows, h.others k hnot]
    rfl
  have hsync : syncOrdersOpenFromIb clock' orders out =
      { existing := readRows out, hash := out, seen } := by
    rw [hrun] at hseen
    rw [syncOrdersOpenFromIb_eq hlive, hrun]
    exact purge_of_seen _ hseen
  rw [hsync]
  exact ⟨fun _ => rfl, rfl, rfl⟩

end Mirror

/-- A sweep mirrors the orders exactly where each of them is left its row. -/
theorem sync_mirrors_iff {clock : LiveOrder → Stamp} {orders : List LiveOrder} {hash : OpenHash}
    (hlive : Live orders) : Mirrored clock orders hash ↔
      ∀ before o after, orders = before ++ o :: after → InPlace clock hash before o after := by
  constructor
  · intro h before o after hsplit
    subst hsplit
    obtain ⟨prev, hown, hrow⟩ := h.mirrors.rows o (by simp)
    exact inPlace_of_mirrored hlive hown hrow
  · intro h
    have hmirrors : Mirrors clock orders hash (syncOrdersOpenFromIb clock orders hash).hash := by
      refine ⟨fun o ho => ?_, fun k hk => value_sync_other hlive hk⟩
      obtain ⟨before, after, rfl⟩ := List.append_of_mem ho
      exact mirrored_of_inPlace hlive (h before o after rfl)
    refine ⟨hmirrors, fun clock' out hout => ?_⟩
    have hsame : Mirrors clock orders hash out := by
      refine ⟨fun o ho => ?_, fun k hk => ?_⟩
      · rw [hout]
        exact hmirrors.rows o ho
      · rw [hout]
        exact hmirrors.others k hk
    exact sync_of_mirrors hlive hsame clock'

/-- A new order with the id that an order had before it. -/
def reusedOrders : List LiveOrder :=
  [{ ibOrderId := "5", permId := some 200, symbol := "SPY", side := "BUY", qty := "1", secType := "STK" },
    { ibOrderId := "6", permId := some 100, symbol := "QQQ", side := "BUY", qty := "1", secType := "STK" }]

/-- The row of the order that had it. -/
def reusedRow : Row :=
  { ibOrderId := some (some "5")
    symbol := some (some "QQQ")
    orderRef := some (some "IBT:console:QQQ:BUY:9")
    permId := some (some 100) }

def reusedHash : OpenHash := Dict.put ∅ "5" (some reusedRow)

theorem reusedOrders_live : Live reusedOrders where
  ids := by decide
  keyed := by decide
  perms := by decide
  permed o ho := by
    simp only [reusedOrders, List.mem_cons, List.not_mem_nil, or_false] at ho
    rcases ho with rfl | rfl
    · exact ⟨200, by decide, rfl⟩
    · exact ⟨100, by decide, rfl⟩
  named := by decide

theorem sync_mirrors_iff_reused : ¬Mirrored (fun _ => ⟨"now", by decide⟩) reusedOrders reusedHash := by
  intro h
  have hplace := (sync_mirrors_iff reusedOrders_live).mp h [] _ _ rfl
  exact hplace.kept (by decide +kernel)

/-- The new order's row is deleted when the row of the one before is moved. -/
theorem sync_mirrors_fails :
    ¬∀ clock orders hash, Live orders → Mirrored clock orders hash := by
  intro h
  obtain ⟨prev, -, hrow⟩ := (h (fun _ => ⟨"now", by decide⟩) reusedOrders reusedHash
    reusedOrders_live).mirrors.rows _ List.mem_cons_self
  have hgone : (syncOrdersOpenFromIb (fun _ => ⟨"now", by decide⟩) reusedOrders reusedHash).hash.value "5"
      = none := by decide +kernel
  exact absurd (hgone.symm.trans hrow) (Option.some_ne_none _).symm

end IbTrader.Engine.OpenOrders
