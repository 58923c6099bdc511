/-
  IbTrader.Engine.OrderMarkers

  What the execution markers say about the orders of a contract.

  A group holds the totals of its fills and the earliest of their times (`Totals`), which
  every fill that joins keeps.  The key of a group is that of one order (`gkey_eq_iff`), so a
  contract has a marker for each of its orders (`perOrder_bySymbol`), and what the marker of an
  order is does not depend on the order of the rows (`MarkerFor.unique`).
-/

import Mathlib.Algebra.Order.BigOperators.Group.List
import Mathlib.Data.Finset.Card
import Mathlib.Data.Set.List
import IbTrader.Engine.ExecMarkers

namespace IbTrader.Engine.ExecMarkers

open Lib Lib.IsoTime Data

-- ============================================================================
-- Orders
-- ============================================================================

/-- An order: its permanent id, or that of an execution where there is none. -/
inductive OrderId
  | perm (permId : ℤ)
  | exec (execId : String)
  deriving DecidableEq, Repr

def Fill.order (f : Fill) : OrderId := if f.permId ≠ 0 then .perm f.permId else .exec f.execId

/-- The text an order is known by. -/
def OrderId.key : OrderId → String
  | .perm permId => "p" ++ toString permId
  | .exec execId => "e" ++ execId

theorem key_injective : Function.Injective OrderId.key := by
  have hpe : ∀ s t : String, "p" ++ s ≠ "e" ++ t := fun s t h => by
    have hchars := congrArg String.toList h
    rw [String.toList_append, String.toList_append] at hchars
    exact absurd (List.cons.inj hchars).1 (by decide)
  intro o o' h
  cases o with
  | perm p =>
    cases o' with
    | perm p' => exact congrArg _ (toString_int_injective (String.append_right_inj _ |>.mp h))
    | exec e' => exact absurd h (hpe _ _)
  | exec e =>
    cases o' with
    | perm p' => exact absurd h.symm (hpe _ _)
    | exec e' => exact congrArg _ (String.append_right_inj _ |>.mp h)

theorem gkey_eq (f : Fill) : f.gkey = (f.sym, f.order.key) := by
  unfold Fill.gkey Fill.order
  split <;> rfl

/-- The key tells the orders of all contracts apart. -/
theorem gkey_eq_iff {f : Fill} {sym : String} {o : OrderId} :
    f.gkey = (sym, o.key) ↔ f.sym = sym ∧ f.order = o := by
  rw [gkey_eq, Prod.mk.injEq, key_injective.eq_iff]

/-- The fills of an order. -/
def ofOrder (fills : List Fill) (sym : String) (o : OrderId) : List Fill :=
  fills.filter fun f => f.sym = sym ∧ f.order = o

/-- The orders of a contract. -/
def ordersOf (fills : List Fill) (sym : String) : Finset OrderId :=
  ((fills.filter (·.sym = sym)).map Fill.order).toFinset

section Fills

variable {fills fills' fs : List Fill} {sym : String} {o : OrderId} {f : Fill} {g : Group} {m m' : Marker}

theorem mem_ofOrder : f ∈ ofOrder fills sym o ↔ f ∈ fills ∧ f.sym = sym ∧ f.order = o := by
  unfold ofOrder
  rw [List.mem_filter, decide_eq_true_iff]

theorem filter_gkey (fills : List Fill) (sym : String) (o : OrderId) :
    fills.filter (·.gkey = (sym, o.key)) = ofOrder fills sym o := by
  unfold ofOrder
  exact List.filter_congr fun f _ => decide_eq_decide.mpr gkey_eq_iff

theorem mem_ordersOf : o ∈ ordersOf fills sym ↔ ∃ f ∈ fills, f.sym = sym ∧ f.order = o := by
  unfold ordersOf
  simp [and_assoc]

/-- Fills of one order have one side. -/
def OneSide (fills : List Fill) : Prop :=
  ∀ f ∈ fills, ∀ f' ∈ fills, f.sym = f'.sym → f.order = f'.order → f.side = f'.side

theorem OneSide.perm (hperm : fills.Perm fills') (h : OneSide fills) : OneSide fills' :=
  fun f hf f' hf' => h f (hperm.mem_iff.mpr hf) f' (hperm.mem_iff.mpr hf')

theorem ordersOf_perm (hperm : fills.Perm fills') (sym : String) : ordersOf fills sym = ordersOf fills' sym :=
  List.toFinset_eq_of_perm _ _ ((hperm.filter _).map _)

theorem card_ordersOf_le (fills : List Fill) (sym : String) : (ordersOf fills sym).card ≤ fills.length :=
  (List.toFinset_card_le _).trans (by rw [List.length_map]; exact List.length_filter_le _ _)

instance (fills : List Fill) : Decidable (OneSide fills) :=
  inferInstanceAs (Decidable (∀ f ∈ fills, ∀ f' ∈ fills, f.sym = f'.sym → f.order = f'.order → f.side = f'.side))

-- ============================================================================
-- Totals
-- ============================================================================

/-- A group of these fills. -/
structure Totals (fs : List Fill) (g : Group) : Prop where
  first : ∃ f ∈ fs, g.sym = f.sym ∧ g.side = f.side
  qty : g.qty = (fs.map Fill.shares).sum
  notional : g.notional = (fs.map fun f => f.price * f.shares).sum
  earliest : IsLeast {t | ∃ f ∈ fs, f.time = t} g.time

theorem totals_newGroup (f : Fill) : Totals [f] (newGroup f) where
  first := ⟨f, List.mem_singleton_self f, rfl, rfl⟩
  qty := List.sum_singleton.symm
  notional := List.sum_singleton.symm
  earliest := by
    refine ⟨⟨f, List.mem_singleton_self f, rfl⟩, ?_⟩
    rintro t ⟨f', hf', rfl⟩
    rw [List.mem_singleton.mp hf']
    exact le_refl f.time

/-- A fill that joins is counted. -/
theorem Totals.join (h : Totals fs g) (f : Fill) : Totals (fs ++ [f]) (g.join f) where
  first := by
    obtain ⟨f', hf', heq⟩ := h.first
    exact ⟨f', List.mem_append_left _ hf', heq⟩
  qty := by
    rw [List.map_append, List.sum_append, List.map_singleton, List.sum_singleton, ← h.qty]
    rfl
  notional := by
    rw [List.map_append, List.sum_append, List.map_singleton, List.sum_singleton, ← h.notional]
    rfl
  earliest := by
    obtain ⟨⟨f', hf', hattained⟩, hleast⟩ := h.earliest
    have htime : (g.join f).time = if f.time < g.time then f.time else g.time := rfl
    constructor
    · rw [htime]
      split
      case isTrue => exact ⟨f, List.mem_append_right _ (List.mem_singleton_self f), rfl⟩
      case isFalse => exact ⟨f', List.mem_append_left _ hf', hattained⟩
    · rintro t ⟨f'', hf'', rfl⟩
      rw [htime]
      rcases List.mem_append.mp hf'' with hold | hnew
      · have hle : g.time ≤ f''.time := hleast ⟨f'', hold, rfl⟩
        split
        case isTrue hlt => exact hlt.le.trans hle
        case isFalse => exact hle
      · rw [List.mem_singleton.mp hnew]
        split
        case isTrue => exact le_refl f.time
        case isFalse hge => exact not_lt.mp hge

theorem totals_groupOf (h : groupOf newGroup Group.join fs = some g) : Totals fs g :=
  groupOf_induction totals_newGroup (fun _ _ f hg => hg.join f) h

theorem sum_shares_pos (hf : f ∈ fs) : 0 < (fs.map Fill.shares).sum := by
  refine List.sum_pos _ (fun q hq => ?_) (List.ne_nil_of_mem (List.mem_map_of_mem hf))
  obtain ⟨f', -, rfl⟩ := List.mem_map.mp hq
  exact f'.positive

theorem Totals.qty_pos (h : Totals fs g) : 0 < g.qty := by
  obtain ⟨f, hf, -⟩ := h.first
  rw [h.qty]
  exact sum_shares_pos hf

-- ============================================================================
-- The marker of an order
-- ============================================================================

/-- The marker of an order: its side, its quantity, its notional and its earliest time. -/
structure MarkerFor (fills : List Fill) (sym : String) (o : OrderId) (m : Marker) : Prop where
  side : ∀ f ∈ ofOrder fills sym o, m.side = f.side
  qty : m.qty = ((ofOrder fills sym o).map Fill.shares).sum
  notional : m.qty * m.price = ((ofOrder fills sym o).map fun f => f.price * f.shares).sum
  time : ∃ t, m.time = isoformat t ∧ IsLeast {t | ∃ f ∈ ofOrder fills sym o, f.time = t} t

theorem Totals.markerFor (h : Totals (ofOrder fills sym o) g) (hside : OneSide fills) :
    MarkerFor fills sym o g.marker where
  side f hf := by
    obtain ⟨f', hf', -, heq⟩ := h.first
    obtain ⟨hmem, hsym, horder⟩ := mem_ofOrder.mp hf
    obtain ⟨hmem', hsym', horder'⟩ := mem_ofOrder.mp hf'
    exact heq.trans (hside f' hmem' f hmem (hsym'.trans hsym.symm) (horder'.trans horder.symm))
  qty := h.qty
  notional := by
    have hne := h.qty_pos.ne'
    have hprice : g.marker.price = g.notional / g.qty := if_pos hne
    rw [hprice, ← h.notional]
    exact mul_div_cancel₀ g.notional hne
  time := ⟨g.time, rfl, h.earliest⟩

theorem MarkerFor.perm (hperm : fills.Perm fills') (h : MarkerFor fills sym o m) :
    MarkerFor fills' sym o m := by
  have hof : (ofOrder fills sym o).Perm (ofOrder fills' sym o) := hperm.filter _
  have htimes : {t | ∃ f ∈ ofOrder fills' sym o, f.time = t} = {t | ∃ f ∈ ofOrder fills sym o, f.time = t} := by
    simp only [hof.mem_iff]
  refine ⟨fun f hf => h.side f (hof.mem_iff.mpr hf), ?_, ?_, ?_⟩
  · rw [h.qty, (hof.map Fill.shares).sum_eq]
  · rw [h.notional, (hof.map _).sum_eq]
  · rw [htimes]
    exact h.time

/-- An order has one marker. -/
theorem MarkerFor.unique (h : MarkerFor fills sym o m) (h' : MarkerFor fills sym o m') : m = m' := by
  obtain ⟨t, htime, hleast⟩ := h.time
  obtain ⟨t', htime', hleast'⟩ := h'.time
  obtain ⟨f, hf, -⟩ := hleast.1
  have hqty : m.qty = m'.qty := h.qty.trans h'.qty.symm
  have hpositive : 0 < m.qty := by
    rw [h.qty]
    exact sum_shares_pos hf
  have hprice : m.price = m'.price := by
    have hnotional := h.notional.trans h'.notional.symm
    rw [← hqty] at hnotional
    exact mul_left_cancel₀ hpositive.ne' hnotional
  have hsame : m.time = m'.time := by rw [htime, htime', hleast.unique hleast']
  have hsides : m.side = m'.side := (h.side f hf).trans (h'.side f hf).symm
  cases m
  cases m'
  rw [Marker.mk.injEq]
  exact ⟨hsame, hsides, hqty, hprice⟩

end Fills

-- ============================================================================
-- The markers of a contract
-- ============================================================================

/-- One marker for each order of the contract. -/
def PerOrder (fills : List Fill) (sym : String) (ms : List Marker) : Prop :=
  ∃ os : List OrderId, os.Nodup ∧ os.toFinset = ordersOf fills sym ∧ List.Forall₂ (MarkerFor fills sym) os ms

/-- Two markers in the order of their times. -/
def Chronological (m m' : Marker) : Prop :=
  ∃ t t' : Moment, m.time = isoformat t ∧ m'.time = isoformat t' ∧ t ≤ t'

section Contracts

variable {fills fills' : List Fill} {sym : String} {o : OrderId} {ms ms' : List Marker}

theorem PerOrder.perm (h : PerOrder fills sym ms) (hperm : ms.Perm ms') : PerOrder fills sym ms' := by
  obtain ⟨os, hnodup, horders, hmarkers⟩ := h
  have hcomp : Relation.Comp (List.Forall₂ (MarkerFor fills sym)) List.Perm os ms' := ⟨ms, hmarkers, hperm⟩
  rw [List.forall₂_comp_perm_eq_perm_comp_forall₂] at hcomp
  obtain ⟨os', hos, hmarkers'⟩ := hcomp
  exact ⟨os', hos.nodup hnodup, (List.toFinset_eq_of_perm _ _ hos.symm).trans horders, hmarkers'⟩

theorem PerOrder.length_eq (h : PerOrder fills sym ms) : ms.length = (ordersOf fills sym).card := by
  obtain ⟨os, hnodup, horders, hmarkers⟩ := h
  rw [← horders, List.toFinset_card_of_nodup hnodup, hmarkers.length_eq]

/-- Rows in another order make the same markers. -/
theorem PerOrder.perm_of_perm (hperm : fills.Perm fills') (h : PerOrder fills sym ms)
    (h' : PerOrder fills' sym ms') : ms.Perm ms' := by
  obtain ⟨os, hnodup, horders, hmarkers⟩ := h
  obtain ⟨os', hnodup', horders', hmarkers'⟩ := h'
  have hsame := ordersOf_perm hperm sym
  have hos : os.Perm os' := by
    rw [List.perm_ext_iff_of_nodup hnodup hnodup']
    intro o
    rw [← List.mem_toFinset, horders, hsame, ← horders', List.mem_toFinset]
  have hmarkers'' : List.Forall₂ (MarkerFor fills sym) os' ms' :=
    hmarkers'.imp fun _ _ hm => hm.perm hperm.symm
  exact List.rel_perm_imp (fun _ _ _ hm hm' => hm.unique hm') hmarkers hmarkers'' hos

/-- The groups of these fills. -/
abbrev groupsOf (fills : List Fill) : Dict (String × String) Group := groups Fill.gkey newGroup Group.join fills

/-- A group is that of an order of its contract. -/
theorem exists_order {e : (String × String) × Group} (he : e ∈ (groupsOf fills).items) :
    ∃ o, e.1 = (e.2.sym, o.key) ∧ Totals (ofOrder fills e.2.sym o) e.2 := by
  have hgroup : groupOf newGroup Group.join (fills.filter (·.gkey = e.1)) = some e.2 := by
    rw [← value_groups]
    exact Dict.value_eq_some.mpr he
  have htotals := totals_groupOf hgroup
  obtain ⟨f, hf, hsym, -⟩ := htotals.first
  have hkey : f.gkey = e.1 := of_decide_eq_true (List.mem_filter.mp hf).2
  have hkey' : e.1 = (e.2.sym, f.order.key) := by rw [← hkey, gkey_eq, hsym]
  refine ⟨f.order, hkey', ?_⟩
  rwa [hkey', filter_gkey] at htotals

/-- An order has a group. -/
theorem exists_entry (ho : o ∈ ordersOf fills sym) :
    ∃ e ∈ (groupsOf fills).items, e.1 = (sym, o.key) := by
  obtain ⟨f, hf, horder⟩ := mem_ordersOf.mp ho
  have hin : (sym, o.key) ∈ (groupsOf fills).items.map Prod.fst :=
    mem_keys_groups.mpr ⟨f, hf, gkey_eq_iff.mpr horder⟩
  exact List.mem_map.mp hin

/-- The groups of a contract belong to its orders, one to each. -/
theorem exists_orders (fills : List Fill) (sym : String) :
    ∃ os : List OrderId, os.Nodup ∧ os.toFinset = ordersOf fills sym ∧
      List.Forall₂ (fun o g => Totals (ofOrder fills sym o) g) os
        (((groupsOf fills).items.map Prod.snd).filter (·.sym = sym)) := by
  rw [List.filter_map]
  generalize hentries : (groupsOf fills).items.filter ((fun g : Group => decide (g.sym = sym)) ∘ Prod.snd) = entries
  have hmem : ∀ {e}, e ∈ entries ↔ e ∈ (groupsOf fills).items ∧ e.2.sym = sym := fun {e} => by
    rw [← hentries, List.mem_filter, Function.comp_apply, decide_eq_true_iff]
  -- every entry has the key of an order
  have hkeys : entries.map Prod.fst ∈ Set.range (List.map fun o : OrderId => (sym, o.key)) := by
    rw [Set.range_list_map]
    intro k hk
    obtain ⟨e, he, rfl⟩ := List.mem_map.mp hk
    obtain ⟨hitem, rfl⟩ := hmem.mp he
    obtain ⟨o, hkey, -⟩ := exists_order hitem
    exact ⟨o, hkey.symm⟩
  obtain ⟨os, hos⟩ := hkeys
  refine ⟨os, ?_, ?_, ?_⟩
  · have hunique : (entries.map Prod.fst).Nodup := by
      rw [← hentries]
      exact (groupsOf fills).unique.sublist (List.filter_sublist.map Prod.fst)
    rw [← hos] at hunique
    exact hunique.of_map _
  · ext o
    have hkey : o ∈ os ↔ (sym, o.key) ∈ entries.map Prod.fst := by
      rw [← hos, List.mem_map_of_injective]
      exact fun _ _ h => key_injective (Prod.mk.inj h).2
    rw [List.mem_toFinset, hkey, List.mem_map]
    constructor
    · rintro ⟨e, he, heq⟩
      obtain ⟨hitem, rfl⟩ := hmem.mp he
      have hin := mem_keys_groups.mp (List.mem_map_of_mem hitem)
      rw [heq] at hin
      exact mem_ordersOf.mpr (by simpa only [gkey_eq_iff] using hin)
    · intro ho
      obtain ⟨e, hitem, heq⟩ := exists_entry ho
      obtain ⟨o', hkey', -⟩ := exists_order hitem
      exact ⟨e, hmem.mpr ⟨hitem, (Prod.mk.inj (hkey'.symm.trans heq)).1⟩, heq⟩
  · have hpairs : List.Forall₂ (fun e o => e.1 = (sym, OrderId.key o)) entries os := by
      have hsame : List.Forall₂ Eq (entries.map Prod.fst) (os.map fun o => (sym, o.key)) := by
        rw [hos, List.forall₂_eq_eq_eq]
      exact List.forall₂_map_right_iff.mp (List.forall₂_map_left_iff.mp hsame)
    rw [List.forall₂_map_right_iff]
    refine ((List.forall₂_and_left _ _).mpr ⟨fun e he => hmem.mp he, hpairs⟩).flip.imp ?_
    rintro o e ⟨⟨hitem, rfl⟩, hkey⟩
    obtain ⟨o', hkey', htotals⟩ := exists_order hitem
    rwa [key_injective (Prod.mk.inj (hkey.symm.trans hkey')).2]

/-- Collecting the fills makes a marker for each order. -/
theorem perOrder_bySymbol (hside : OneSide fills) (sym : String) :
    PerOrder fills sym (((bySymbol (groupsOf fills)).value sym).getD []) := by
  obtain ⟨os, hnodup, horders, htotals⟩ := exists_orders fills sym
  refine ⟨os, hnodup, horders, ?_⟩
  unfold bySymbol
  rw [value_groups_lists, List.forall₂_map_right_iff]
  exact htotals.imp fun _ _ h => h.markerFor hside

-- ============================================================================
-- The order of the markers
-- ============================================================================

theorem perm_newest (hcap : ms.length ≤ maxPerSymbol) : (newest ms).Perm ms := by
  have hsorted := List.perm_insertionSort (fun m m' : Marker => m.time ≤ m'.time) ms
  unfold newest
  dsimp only
  rw [if_neg (by rw [hsorted.length_eq]; omega)]
  exact hsorted

/-- Texts in order are times in order. -/
theorem PerOrder.chronological (h : PerOrder fills sym ms) (hsorted : ms.Pairwise (·.time ≤ ·.time)) :
    ms.Pairwise Chronological := by
  obtain ⟨os, -, -, hmarkers⟩ := h
  have htimes : ∀ m ∈ ms, ∃ t, m.time = isoformat t := by
    intro m hm
    obtain ⟨i, hi, rfl⟩ := List.mem_iff_getElem.mp hm
    obtain ⟨t, ht, -⟩ := (hmarkers.get (by rw [hmarkers.length_eq]; exact hi) hi).time
    exact ⟨t, ht⟩
  refine hsorted.imp_of_mem fun {m m'} hm hm' hle => ?_
  obtain ⟨t, ht⟩ := htimes m hm
  obtain ⟨t', ht'⟩ := htimes m' hm'
  rw [ht, ht', isoformat_strictMono.le_iff_le] at hle
  exact ⟨t, t', ht, ht', hle⟩

theorem chronological_newest (h : PerOrder fills sym ms) (hcap : ms.length ≤ maxPerSymbol) :
    (newest ms).Pairwise Chronological := by
  have hsorted : (newest ms).Pairwise (·.time ≤ ·.time) := by
    have hall := List.pairwise_insertionSort (fun m m' : Marker => m.time ≤ m'.time) ms
    unfold newest
    dsimp only
    split
    case isTrue => exact hall.sublist (List.drop_sublist _ _)
    case isFalse => exact hall
  exact (h.perm (perm_newest hcap).symm).chronological hsorted

end Contracts

-- ============================================================================
-- The whole computation
-- ============================================================================

section Compute

variable {py : Python} {fromisoformat : String → Option Datetime} {clock : Clock} {now : Aware}
  {executions executions' : List ExecRow} {out : Dict String (List Marker)} {sym : String}

/-- The rows that count. -/
def validFills (py : Python) (fromisoformat : String → Option Datetime) (clock : Clock)
    (executions : List ExecRow) : List Fill :=
  executions.filterMap fun ex => (readRow py fromisoformat clock ex).toOption.join

/-- No time leaves the calendar. -/
def InCalendar (py : Python) (fromisoformat : String → Option Datetime) (clock : Clock)
    (executions : List ExecRow) : Prop :=
  ∀ ex ∈ executions, ∃ r, readRow py fromisoformat clock ex = .ok r

instance : Decidable (InCalendar py fromisoformat clock executions) :=
  decidable_of_iff (∀ ex ∈ executions, (readRow py fromisoformat clock ex).isOk) <|
    forall₂_congr fun ex _ => by cases readRow py fromisoformat clock ex <;> simp [Except.isOk, Except.toBool]

/-- The loop collects the rows that count. -/
theorem foldlM_addRow (h : InCalendar py fromisoformat clock executions) (gs : Dict (String × String) Group) :
    executions.foldlM (addRow py fromisoformat clock) gs =
      .ok ((validFills py fromisoformat clock executions).foldl (collect Fill.gkey newGroup Group.join) gs) := by
  induction executions generalizing gs with
  | nil => rfl
  | cons ex executions ih =>
    obtain ⟨⟨r, hr⟩, hrest⟩ := List.forall_mem_cons.mp h
    unfold validFills
    rw [List.foldlM_cons, List.filterMap_cons]
    unfold addRow
    rw [hr]
    cases r with
    | none => exact ih hrest gs
    | some f => exact ih hrest (collect Fill.gkey newGroup Group.join gs f)

/-- The markers of a contract. -/
def markersOf (out : Dict String (List Marker)) (sym : String) : List Marker := (out.value sym).getD []

theorem computeExecMarkers_eq (hnow : clockAt now = .ok clock)
    (h : InCalendar py fromisoformat clock executions) :
    computeExecMarkers py fromisoformat executions now =
      .ok ((bySymbol (groupsOf (validFills py fromisoformat clock executions))).mapValues newest) := by
  unfold computeExecMarkers
  rw [hnow]
  show (executions.foldlM (addRow py fromisoformat clock) ∅ >>= _) = _
  rw [foldlM_addRow h]
  rfl

theorem markersOf_mapValues (d : Dict String (List Marker)) (sym : String) :
    markersOf (d.mapValues newest) sym = newest ((d.value sym).getD []) := by
  unfold markersOf
  rw [Dict.value_mapValues]
  cases d.value sym <;> rfl

/-- What comes out for a contract. -/
theorem perOrder_markersOf {fills : List Fill} (hside : OneSide fills)
    (hcap : ∀ sym, (ordersOf fills sym).card ≤ maxPerSymbol) (sym : String) :
    PerOrder fills sym (markersOf ((bySymbol (groupsOf fills)).mapValues newest) sym) ∧
      (markersOf ((bySymbol (groupsOf fills)).mapValues newest) sym).Pairwise Chronological := by
  have hall := perOrder_bySymbol hside sym
  have hlength := hall.length_eq.trans_le (hcap sym)
  rw [markersOf_mapValues]
  exact ⟨hall.perm (perm_newest hlength).symm, chronological_newest hall hlength⟩

/-- Per contract there is one marker for each order, with the order's side, quantity,
    notional and earliest time; the markers ascend in time, and rows in another order
    make the same markers. -/
theorem computeExecMarkers_perOrder (hnow : clockAt now = .ok clock)
    (hrows : InCalendar py fromisoformat clock executions)
    (hside : OneSide (validFills py fromisoformat clock executions))
    (hcap : ∀ sym, (ordersOf (validFills py fromisoformat clock executions) sym).card ≤ maxPerSymbol) :
    ∃ out, computeExecMarkers py fromisoformat executions now = .ok out ∧
      (∀ sym, PerOrder (validFills py fromisoformat clock executions) sym (markersOf out sym) ∧
        (markersOf out sym).Pairwise Chronological) ∧
      ∀ executions', executions'.Perm executions →
        ∃ out', computeExecMarkers py fromisoformat executions' now = .ok out' ∧
          ∀ sym, (markersOf out' sym).Perm (markersOf out sym) := by
  have hmarkers := perOrder_markersOf hside hcap
  refine ⟨_, computeExecMarkers_eq hnow hrows, hmarkers, fun executions' hperm => ?_⟩
  have hrows' : InCalendar py fromisoformat clock executions' :=
    fun ex hex => hrows ex (hperm.mem_iff.mp hex)
  have hfills : (validFills py fromisoformat clock executions).Perm
      (validFills py fromisoformat clock executions') := hperm.symm.filterMap _
  have hmarkers' := perOrder_markersOf (hside.perm hfills)
    (fun sym => (congrArg Finset.card (ordersOf_perm hfills sym)).symm.trans_le (hcap sym))
  refine ⟨_, computeExecMarkers_eq hnow hrows', fun sym => ?_⟩
  exact ((hmarkers sym).1.perm_of_perm hfills (hmarkers' sym).1).symm

end Compute

-- ============================================================================
-- Rows of one order, and rows of none
-- ============================================================================

/-- Ten in the morning, five hours behind UTC. -/
def morning : Aware := { wall := ⟨63923767200000000, by decide⟩, utcoffset := -18000000000 }

/-- Two fills of an order, one of them reported five hours late, a fill of another contract
    and a row without a time. -/
def partialFills : List ExecRow :=
  [{ localSymbol := "MESU6", execTime := .datetime (.naive ⟨63923803080000000, by decide⟩),
     shares := .number 2, price := .number 6501, permId := 7, execId := "0000e0d5.2", side := "BOT" },
   { localSymbol := "MESU6", execTime := .datetime (.aware ⟨⟨63923784630000000, by decide⟩, 0⟩),
     shares := .number 1, price := .number 6500, permId := 7, execId := "0000e0d5.1", side := "BOT" },
   { localSymbol := "MNQU6", execTime := .datetime (.naive ⟨63923785140000000, by decide⟩),
     shares := .number 1, price := .number 23000, execId := "0000e0d5.3", side := "SLD" },
   { localSymbol := "MNQU6", shares := .number 1, price := .number 23000, side := "SLD" }]

theorem computeExecMarkers_perOrder_partialFills :
    ∃ out, computeExecMarkers ascii (fun _ => none) partialFills morning = .ok out ∧
      (∀ sym, PerOrder (validFills ascii (fun _ => none)
          ⟨-18000000000, ⟨63923785320000000, by decide⟩⟩ partialFills) sym (markersOf out sym) ∧
        (markersOf out sym).Pairwise Chronological) ∧
      ∀ executions', executions'.Perm partialFills →
        ∃ out', computeExecMarkers ascii (fun _ => none) executions' morning = .ok out' ∧
          ∀ sym, (markersOf out' sym).Perm (markersOf out sym) :=
  computeExecMarkers_perOrder (by decide +kernel) (by decide +kernel) (by decide +kernel)
    fun sym => (card_ordersOf_le _ sym).trans (by decide +kernel)

/-- A buy and a sale, of one share each, without any id. -/
def unnumbered : List ExecRow :=
  [{ localSymbol := "MESU6", execTime := .datetime (.naive ⟨63923784630000000, by decide⟩),
     shares := .number 1, price := .number 6500, side := "BOT" },
   { localSymbol := "MESU6", execTime := .datetime (.naive ⟨63923785140000000, by decide⟩),
     shares := .number 1, price := .number 6500, side := "SLD" }]

/-- A fill at the end of the calendar, seen two hours ahead of UTC. -/
def lastEvening : List ExecRow :=
  [{ localSymbol := "MESU6", execTime := .datetime (.naive ⟨315537895800000000, by decide⟩),
     shares := .number 1, price := .number 6500, permId := 7, side := "BOT" }]

/-- Rows without an id make one marker, with the side of the row that comes first; and a
    correction that leaves the calendar raises. -/
theorem computeExecMarkers_perOrder_fails :
    (∀ ex ∈ unnumbered, ex.permId = 0) ∧
      (computeExecMarkers ascii (fun _ => none) unnumbered morning).toOption.map (markersOf · "MESU6") =
        some [⟨"2026-08-31T14:50:30+00:00", .B, 2, 6500⟩] ∧
      (computeExecMarkers ascii (fun _ => none) unnumbered.reverse morning).toOption.map (markersOf · "MESU6") =
        some [⟨"2026-08-31T14:50:30+00:00", .S, 2, 6500⟩] ∧
      (computeExecMarkers ascii (fun _ => none) lastEvening { morning with utcoffset := 7200000000 }).toOption = none :=
  ⟨by decide, by decide +kernel, by decide +kernel, by decide +kernel⟩

end IbTrader.Engine.ExecMarkers
