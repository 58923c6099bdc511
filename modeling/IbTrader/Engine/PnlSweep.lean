/-
  IbTrader.Engine.PnlSweep

  The pass of `_pnl_rollup_loop` in `ib_trader/engine/main.py`: what IB reports is merged
  into the stored executions, those of each future are matched LIFO (`compute_lifo`), and
  the rollup is made of both.

  Every stored execution is in the last day, so where a future is matched, the figure of the
  day and the value of the open lots are together what the lots before were worth and the
  executions have brought in (`day_accounted`).

  The warnings of a fallback and the markers that the pass also publishes are left out.
-/

import Mathlib.Data.Rat.Floor
import IbTrader.Engine.ExecAccumulator
import IbTrader.Engine.PnlRollup

namespace IbTrader.Engine.LifoPnl

-- ============================================================================
-- The sum of what is realized
-- ============================================================================

section Realized

variable {mult : ℚ} {realized : AList fun _ : String => ℚ} {lots : List Lot} {fills : List Fill}

theorem lookup_realizeAll_of_not_mem {id : String} (h : id ∉ fills.map Fill.execId) :
    (realizeAll mult realized lots fills).1.lookup id = realized.lookup id := by
  induction fills generalizing realized lots with
  | nil => rfl
  | cons f fills ih =>
    rw [List.map_cons, List.mem_cons, not_or] at h
    unfold realizeAll
    dsimp only
    rw [ih h.2]
    cases (realizeLifo lots f.signedQty f.price f.commission mult).1 with
    | none => rfl
    | some v => exact AList.lookup_insert_ne h.1

/-- Where no id comes twice, the realized figures of the fills add up to the run's. -/
theorem sum_realizeAll (hids : (fills.map Fill.execId).Nodup)
    (hnew : ∀ f ∈ fills, realized.lookup f.execId = none) :
    (fills.map fun f => ((realizeAll mult realized lots fills).1.lookup f.execId).getD 0).sum =
      (runLifo mult lots fills).1 := by
  induction fills generalizing realized lots with
  | nil => rfl
  | cons f fills ih =>
    rw [List.map_cons, List.nodup_cons] at hids
    have hfirst : (realizeAll mult realized lots (f :: fills)).1.lookup f.execId =
        (realizeLifo lots f.signedQty f.price f.commission mult).1 := by
      unfold realizeAll
      dsimp only
      rw [lookup_realizeAll_of_not_mem hids.1]
      cases (realizeLifo lots f.signedQty f.price f.commission mult).1 with
      | none => exact hnew f List.mem_cons_self
      | some v => exact AList.lookup_insert realized
    have hrest := @ih ((realizeLifo lots f.signedQty f.price f.commission mult).1.elim realized (realized.insert f.execId ·))
      (realizeLifo lots f.signedQty f.price f.commission mult).2 hids.2 fun g hg => by
        have hne : g.execId ≠ f.execId := fun heq => hids.1 (heq ▸ List.mem_map_of_mem hg)
        cases (realizeLifo lots f.signedQty f.price f.commission mult).1 with
        | none => exact hnew g (List.mem_cons_of_mem f hg)
        | some v => exact (AList.lookup_insert_ne hne).trans (hnew g (List.mem_cons_of_mem f hg))
    rw [List.map_cons, List.sum_cons, hfirst]
    exact congrArg (_ + ·) hrest

end Realized

-- ============================================================================
-- The matching of a contract
-- ============================================================================

section Matching

variable {upper : String → String} {rows : List ExecRow} {position : Option HeldPosition}

theorem fillOf_execId {r : ExecRow} {f : Fill} (h : fillOf upper r = some f) :
    f.execId = r.execId ∧ f.signedQty ≠ 0 := by
  unfold fillOf at h
  split at h
  case h_2 => cases h
  case h_1 sq price hsq _ =>
    obtain rfl := Option.some.inj h
    refine ⟨rfl, ?_⟩
    unfold signedQty at hsq
    split at hsq
    case h_1 => cases hsq
    case h_2 shares _ =>
      split at hsq
      case isTrue => cases hsq
      case isFalse hpositive =>
        have hne : shares ≠ 0 := fun hzero => hpositive hzero.le
        split at hsq
        case isTrue => exact Option.some.inj hsq ▸ hne
        case isFalse =>
          split at hsq
          case isTrue => exact Option.some.inj hsq ▸ neg_ne_zero.mpr hne
          case isFalse => cases hsq

theorem map_execId_fillsOf (h : ∀ r ∈ rows, (fillOf upper r).isSome) :
    (fillsOf upper rows).map Fill.execId = rows.map ExecRow.execId := by
  induction rows with
  | nil => rfl
  | cons r rows ih =>
    obtain ⟨f, hf⟩ := Option.isSome_iff_exists.mp (h r List.mem_cons_self)
    rw [fillsOf, List.filterMap_cons, hf, List.map_cons, List.map_cons, (fillOf_execId hf).1]
    exact congrArg _ (ih fun r hr => h r (List.mem_cons_of_mem _ hr))

variable {mult : ℚ} {seed : List Lot}

/-- What is realized and what is open make up the seed and what the fills have brought in. -/
theorem Matched.value (h : Matched upper rows position mult seed) (hids : (rows.map ExecRow.execId).Nodup) (m : ℚ) :
    (rows.map fun r => ((computeOne upper rows position).realizedByExec.lookup r.execId).getD 0).sum +
        openValue mult m (computeOne upper rows position).lots =
      openValue mult m seed + fillsValue mult m (fillsOf upper rows) := by
  have hperm := List.mergeSort_perm rows rowLe
  have hmap := map_execId_fillsOf fun r hr => h.complete r (hperm.mem_iff.mp hr)
  have hvalue := runLifo_value h.positive.ne' m (fillsOf upper (rows.mergeSort rowLe)) seed fun f hf => by
    obtain ⟨r, -, hr⟩ := List.mem_filterMap.mp hf
    exact (fillOf_execId hr).2
  have hsum := @sum_realizeAll mult ∅ seed (fillsOf upper (rows.mergeSort rowLe))
    (hmap ▸ ((hperm.map _).nodup_iff.mpr hids)) fun f _ => AList.lookup_empty f.execId
  have hrows (figure : String → ℚ) : (rows.map fun r => figure r.execId).sum =
      ((fillsOf upper (rows.mergeSort rowLe)).map fun f => figure f.execId).sum := by
    have hsides : ((rows.map ExecRow.execId).map figure).sum =
        (((fillsOf upper (rows.mergeSort rowLe)).map Fill.execId).map figure).sum := by
      rw [hmap]
      exact ((hperm.symm.map ExecRow.execId).map figure).sum_eq
    rw [List.map_map, List.map_map] at hsides
    exact hsides
  have hfigures := (hrows fun id =>
    ((realizeAll mult ∅ seed (fillsOf upper (rows.mergeSort rowLe))).1.lookup id).getD 0).trans hsum
  have hfills : fillsValue mult m (fillsOf upper (rows.mergeSort rowLe)) = fillsValue mult m (fillsOf upper rows) :=
    ((hperm.filterMap (fillOf upper)).map _).sum_eq
  rw [h.realized, h.lots, hfigures, ← hfills]
  exact hvalue

/-- Where the fills leave what is held there was no seed. -/
theorem Matched.seed_eq_nil (h : Matched upper rows position mult seed)
    (hfresh : (position.bind (·.quantity)).getD 0 = netQty (fillsOf upper rows)) : seed = [] := by
  obtain ⟨d, hd, hside⟩ := h.sided
  have hheld := h.held
  exact hside.eq_nil hd (by linarith)

theorem Matched.openQty_lots (h : Matched upper rows position mult seed) :
    openQty (computeOne upper rows position).lots = (position.bind (·.quantity)).getD 0 := by
  rw [h.lots, runLifo_qty, netQty_sorted, h.held]

end Matching

end IbTrader.Engine.LifoPnl

namespace IbTrader.Engine.PnlRollup

open Lib Data LifoPnl ExecAccumulator

-- ============================================================================
-- The pass
-- ============================================================================

section Pass

variable (py : Python) (dec : String → Option ℚ) (positions : String → Option HeldPosition)

/-- A time on the host's wall clock. -/
def wallClock (w : Sweep) (t : ℚ) : ℤ := ⌊(t + w.hostOffset) * 1000000⌋

/-- `records_to_execs`, as the rollup reads a record. -/
def accountExec (w : Sweep) (r : ExecRecord) : AccountExec :=
  ⟨some r.localSymbol, some r.secType, r.realizedPnl, some r.execId, some (wallClock w r.execTime)⟩

/-- And as the matching reads it; `dec` reads the text of a number. -/
def lifoRow (r : ExecRecord) : ExecRow where
  execId := r.execId
  execTime := r.execTime
  side := r.side
  shares := r.shares
  price := r.price
  commission := r.commission
  realizedPnl := r.realizedPnl
  multiplier := r.multiplier.bind dec

/-- The contract of a record. -/
def contractOf (r : ExecRecord) : String := strip py r.localSymbol

/-- `by_sym`. -/
def bySym (records : List ExecRecord) : Dict String (List ExecRow) :=
  groups (contractOf py) (fun r => [lifoRow dec r]) (fun rows r => rows ++ [lifoRow dec r])
    (records.filter fun r => py.upper r.secType = "FUT" ∧ contractOf py r ≠ "")

/-- `compute_lifo`. -/
def computeLifo (records : List ExecRecord) (symbol : String) : Option LifoResult :=
  ((bySym py dec records).value symbol).map fun rows => computeOne py.upper rows (positions symbol)

/-- The rollup that a pass of `_pnl_rollup_loop` publishes. -/
def pnlRollupPass (sessionStartHour : Fin 24) (stored : Store) (w : Sweep) : Dict String PnlSlot :=
  let records := (mergeExecutions 86400 stored w).items
  computePnlRollup py (records.map (accountExec w)) (wallClock w w.now) sessionStartHour
    (computeLifo py dec positions records)

end Pass

-- ============================================================================
-- The day of a contract
-- ============================================================================

section Day

variable {py : Python} {dec : String → Option ℚ} {positions : String → Option HeldPosition} {records : List ExecRecord}
variable {lifo : String → Option LifoResult} {res : LifoResult} {w : Sweep} {symbol : String} {mult : ℚ}

/-- The rows of a contract. -/
def rowsOf (py : Python) (dec : String → Option ℚ) (records : List ExecRecord) (symbol : String) : List ExecRow :=
  (records.filter (contractOf py · = symbol)).map (lifoRow dec)

/-- All of the contract's records are a future's, and there is one. -/
structure TradedFuture (py : Python) (records : List ExecRecord) (symbol : String) : Prop where
  named : symbol ≠ ""
  traded : ∃ r ∈ records, contractOf py r = symbol
  future : ∀ r ∈ records, contractOf py r = symbol → py.upper r.secType = "FUT"

theorem computeLifo_eq (h : TradedFuture py records symbol) :
    computeLifo py dec positions records symbol =
      some (computeOne py.upper (rowsOf py dec records symbol) (positions symbol)) := by
  have hfilter : (records.filter fun r => py.upper r.secType = "FUT" ∧ contractOf py r ≠ "").filter
      (contractOf py · = symbol) = records.filter (contractOf py · = symbol) := by
    rw [List.filter_filter]
    refine List.filter_congr fun r hr => ?_
    by_cases hsymbol : contractOf py r = symbol
    · simp [hsymbol, h.named, h.future r hr hsymbol]
    · simp [hsymbol]
  have hrows := value_groups_lists (contractOf py) (lifoRow dec)
    (records.filter fun r => py.upper r.secType = "FUT" ∧ contractOf py r ≠ "") symbol
  rw [hfilter] at hrows
  unfold computeLifo bySym
  cases hvalue : (groups (contractOf py) (fun r => [lifoRow dec r]) (fun rows r => rows ++ [lifoRow dec r])
      (records.filter fun r => py.upper r.secType = "FUT" ∧ contractOf py r ≠ "")).value symbol with
  | none =>
    obtain ⟨r, hr, hsymbol⟩ := h.traded
    rw [value_groups, groupOf_eq_none, hfilter, List.filter_eq_nil_iff] at hvalue
    exact absurd (decide_eq_true hsymbol) (hvalue r hr)
  | some rows =>
    rw [hvalue, Option.getD_some] at hrows
    rw [Option.map_some, hrows]
    rfl

/-- The figures of a record on the LIFO basis. -/
theorem realizedOf_record {r : ExecRecord} (hnamed : symbol ≠ "") (hlifo : lifo symbol = some res)
    (hmethod : res.method = .lifo) (hcontract : contractOf py r = symbol) (hfuture : py.upper r.secType = "FUT") :
    realizedOf py lifo (accountExec w r) =
      if res.realizedByExec.lookup r.execId = none ∧ r.realizedPnl = none then none
      else some ⟨symbol, "FUT", wallClock w r.execTime, true, res.realizedByExec.lookup r.execId, r.realizedPnl⟩ := by
  unfold contractOf at hcontract
  unfold realizedOf accountExec
  simp [hcontract, hnamed, hfuture, hlifo, hmethod, Option.filter]

theorem symbol_of_realizedOf {r : ExecRecord} {x : Realized} (h : realizedOf py lifo (accountExec w r) = some x) :
    x.symbol = contractOf py r := by
  unfold realizedOf accountExec at h
  rw [Option.bind_some] at h
  dsimp only at h
  rw [Option.ite_none_left_eq_some, Option.ite_none_left_eq_some] at h
  obtain ⟨-, -, h⟩ := h
  rw [← Option.some.inj h]
  rfl

/-- What the executions of a contract realize in the day, where all are in it. -/
theorem total_realizedIn (hnamed : symbol ≠ "") (hlifo : lifo symbol = some res) (hmethod : res.method = .lifo)
    (hfuture : ∀ r ∈ records, contractOf py r = symbol → py.upper r.secType = "FUT")
    (hday : ∀ r ∈ records, wallClock w w.now - dayMicros ≤ wallClock w r.execTime) :
    total (inDay (wallClock w w.now)) Realized.pnl (realizedIn py lifo (records.map (accountExec w)) symbol) =
      ((records.filter (contractOf py · = symbol)).map fun r => (res.realizedByExec.lookup r.execId).getD 0).sum := by
  induction records with
  | nil => rfl
  | cons r records ih =>
    have hrest := ih (fun r hr => hfuture r (List.mem_cons_of_mem _ hr)) fun r hr => hday r (List.mem_cons_of_mem _ hr)
    have hsplit : realizedIn py lifo ((r :: records).map (accountExec w)) symbol =
        realizedIn py lifo [accountExec w r] symbol ++ realizedIn py lifo (records.map (accountExec w)) symbol := by
      unfold realizedIn
      rw [← List.filter_append, ← List.filterMap_append]
      rfl
    rw [hsplit, total_append, hrest]
    by_cases hcontract : contractOf py r = symbol
    · have hrecord : total (inDay (wallClock w w.now)) Realized.pnl (realizedIn py lifo [accountExec w r] symbol) =
          (res.realizedByExec.lookup r.execId).getD 0 := by
        have hin := hday r List.mem_cons_self
        unfold realizedIn
        rw [List.filterMap_cons, realizedOf_record hnamed hlifo hmethod hcontract (hfuture r List.mem_cons_self hcontract)]
        cases hfigure : res.realizedByExec.lookup r.execId <;> cases hib : r.realizedPnl <;>
          simp [total, inDay, hin]
      rw [hrecord, List.filter_cons, if_pos (decide_eq_true hcontract), List.map_cons, List.sum_cons]
    · have hnothing : realizedIn py lifo [accountExec w r] symbol = [] := by
        refine List.filter_eq_nil_iff.mpr fun x hx hsymbol => hcontract ?_
        obtain ⟨ex, hex, hx⟩ := List.mem_filterMap.mp hx
        rw [List.mem_singleton] at hex
        rw [← symbol_of_realizedOf (hex ▸ hx)]
        exact of_decide_eq_true hsymbol
      rw [hnothing, List.filter_cons, if_neg (by simpa using hcontract)]
      exact zero_add _

/-- The figure of the day, which is zero where there is no row. -/
def dayFigure (row : Option PnlSlot) : ℚ := row.elim 0 PnlSlot.pnl24h

theorem dayFigure_eq {executions : List AccountExec} {now : ℤ} {sessionStartHour : Fin 24} :
    dayFigure ((computePnlRollup py executions now sessionStartHour lifo).value symbol) =
      total (inDay now) Realized.pnl (realizedIn py lifo executions symbol) := by
  cases hvalue : (computePnlRollup py executions now sessionStartHour lifo).value symbol with
  | none => exact (value_eq_none_iff.mp hvalue).pnl24h.symm
  | some slot => exact (totals_of_value hvalue).pnl24h

/-- A stored execution is in the day of the pass. -/
theorem inDay_of_stored {stored : Store} {r : ExecRecord} (h : r ∈ (mergeExecutions 86400 stored w).items) :
    wallClock w w.now - dayMicros ≤ wallClock w r.execTime := by
  have hkept : w.now - 86400 ≤ r.execTime := of_decide_eq_true (List.mem_filter.mp h).2
  have hnow := Int.floor_le ((w.now + w.hostOffset) * 1000000)
  unfold wallClock dayMicros
  rw [Int.le_floor]
  push_cast
  linarith

/-- What the figure of the day says of a contract with a multiplier: `seed` are the lots
    held before its first fill, and `lots` those held now. -/
structure Accounted (mult figure held : ℚ) (seed lots : List Lot) (fills : List Fill) : Prop where
  positive : 0 < mult
  before : openQty seed + netQty fills = held
  fresh : held = netQty fills → seed = []
  left : openQty lots = held
  /-- At any mark, the figure and the lots are worth what the lots before were and the
      fills have brought in, less commission. -/
  marked : ∀ m, figure + openValue mult m lots =
    openValue mult m seed + (mult * (m * netQty fills + netCash fills) - commissions fills)

/-- The day of a future is accounted for where its basis is LIFO: at its multiplier, and
    from the lots that the pass took to be held before. -/
theorem day_accounted {sessionStartHour : Fin 24} {stored : Store}
    (hfuture : TradedFuture py (mergeExecutions 86400 stored w).items symbol)
    (hmethod : (computeLifo py dec positions (mergeExecutions 86400 stored w).items symbol).map LifoResult.method =
      some .lifo) :
    ∃ mult, contractMultiplier (rowsOf py dec (mergeExecutions 86400 stored w).items symbol) (positions symbol) =
        some mult ∧
      Accounted mult (dayFigure ((pnlRollupPass py dec positions sessionStartHour stored w).value symbol))
        (((positions symbol).bind (·.quantity)).getD 0)
        (seedLots py.upper mult (rowsOf py dec (mergeExecutions 86400 stored w).items symbol) (positions symbol))
        ((computeLifo py dec positions (mergeExecutions 86400 stored w).items symbol).elim [] LifoResult.lots)
        (fillsOf py.upper (rowsOf py dec (mergeExecutions 86400 stored w).items symbol)) := by
  have hlifo := @computeLifo_eq py dec positions _ symbol hfuture
  rw [hlifo, Option.map_some] at hmethod
  obtain ⟨mult, seed, hmatched⟩ := computeOne_lifo (Option.some.inj hmethod)
  have hids : ((rowsOf py dec (mergeExecutions 86400 stored w).items symbol).map ExecRow.execId).Nodup := by
    unfold rowsOf
    rw [List.map_map]
    exact (mergeExecutions 86400 stored w).unique.sublist (List.filter_sublist.map _)
  have hfigure : dayFigure ((pnlRollupPass py dec positions sessionStartHour stored w).value symbol) =
      ((rowsOf py dec (mergeExecutions 86400 stored w).items symbol).map fun r =>
        ((computeOne py.upper (rowsOf py dec (mergeExecutions 86400 stored w).items symbol)
          (positions symbol)).realizedByExec.lookup r.execId).getD 0).sum := by
    unfold pnlRollupPass
    dsimp only
    rw [dayFigure_eq, total_realizedIn hfuture.named hlifo (Option.some.inj hmethod) hfuture.future fun r hr =>
      inDay_of_stored hr]
    conv_rhs => rw [rowsOf, List.map_map]
    rfl
  obtain rfl := hmatched.seeded
  rw [hlifo]
  exact ⟨mult, hmatched.multiplier,
    { positive := hmatched.positive
      before := hmatched.held
      fresh := hmatched.seed_eq_nil
      left := hmatched.openQty_lots
      marked := fun m => by
        rw [hfigure, ← fillsValue_eq]
        exact hmatched.value hids m }⟩

/-- A contract bought and sold a minute later. -/
def roundTrip : Sweep where
  fresh :=
    [{ execId := "a", localSymbol := "MESM6", secType := "FUT", multiplier := some "5", side := "BOT", execTime := some 99000
       price := some 5000, shares := some 1, commission := some 1 },
      { execId := "b", localSymbol := "MESM6", secType := "FUT", multiplier := some "5", side := "SLD", execTime := some 99060
        realizedPnl := some 40, price := some 5010, shares := some 1, commission := some 1 }]
  now := 100000
  hostOffset := 0

/-- What the text of its multiplier reads as. -/
def five (s : String) : Option ℚ := if s = "5" then some 5 else none

theorem roundTrip_future : TradedFuture ascii (mergeExecutions 86400 ∅ roundTrip).items "MESM6" where
  named := by decide
  traded := by decide +kernel
  future := by decide +kernel

theorem roundTrip_lifo : (computeLifo ascii five (fun _ => none) (mergeExecutions 86400 ∅ roundTrip).items "MESM6").map
    LifoResult.method = some .lifo := by
  have hsorted : (rowsOf ascii five (mergeExecutions 86400 ∅ roundTrip).items "MESM6").mergeSort rowLe =
      rowsOf ascii five (mergeExecutions 86400 ∅ roundTrip).items "MESM6" :=
    List.mergeSort_of_pairwise (by decide +kernel)
  rw [computeLifo_eq roundTrip_future, Option.map_some]
  unfold computeOne
  dsimp only
  rw [hsorted]
  decide +kernel

theorem day_accounted_roundTrip :
    ∃ mult, contractMultiplier (rowsOf ascii five (mergeExecutions 86400 ∅ roundTrip).items "MESM6") none = some mult ∧
      Accounted mult (dayFigure ((pnlRollupPass ascii five (fun _ => none) 15 ∅ roundTrip).value "MESM6")) 0
        (seedLots ascii.upper mult (rowsOf ascii five (mergeExecutions 86400 ∅ roundTrip).items "MESM6") none)
        ((computeLifo ascii five (fun _ => none) (mergeExecutions 86400 ∅ roundTrip).items "MESM6").elim [] LifoResult.lots)
        (fillsOf ascii.upper (rowsOf ascii five (mergeExecutions 86400 ∅ roundTrip).items "MESM6")) :=
  @day_accounted ascii five (fun _ => none) roundTrip "MESM6" 15 ∅ roundTrip_future roundTrip_lifo

end Day

end IbTrader.Engine.PnlRollup
