/-
  IbTrader.Engine.ExecAccumulator

  The store of executions behind the rollup (`ib_trader/engine/exec_accumulator.py`).

  Times are readings of one clock in seconds; the texts the source stores and compares
  are UTC times in ISO 8601, which sort as they do.  `Decimal` texts are rationals.

  A sweep acts on each execution by itself (`get_mergeExecutions`): the rows of its
  id are merged into its record one after the other, and the record is pruned by its
  time.  The first row makes the record and corrects its time against the clock of
  that sweep; the rows after it patch realised profit and commission.
-/

import Mathlib.Algebra.Order.Ring.Rat
import Mathlib.Data.List.Induction
import IbTrader.Lib.KeyedFold
import IbTrader.Lib.KeyedList

namespace IbTrader.Engine.ExecAccumulator

open Lib

-- ============================================================================
-- Executions and records
-- ============================================================================

/-- An execution as `req_recent_executions` reports it; a missing text is empty. -/
structure RawExec where
  execId : String := ""
  localSymbol : String := ""
  symbol : String := ""
  secType : String := ""
  multiplier : Option String := none
  side : String := ""
  permId : ℤ := 0
  execTime : Option ℚ := none
  realizedPnl : Option ℚ := none
  price : Option ℚ := none
  shares : Option ℚ := none
  commission : Option ℚ := none
  deriving DecidableEq, Repr

/-- A record of the store. -/
structure ExecRecord where
  localSymbol : String
  symbol : String
  secType : String
  multiplier : Option String
  side : String
  execId : String
  permId : ℤ
  execTime : ℚ
  realizedPnl : Option ℚ
  price : Option ℚ
  shares : Option ℚ
  commission : Option ℚ
  deriving DecidableEq, Repr

/-- `_to_record`. -/
def toRecord (ex : RawExec) : Option ExecRecord :=
  match ex.execTime with
  | none => none
  | some ts =>
    if ex.execId = "" ∨ ex.localSymbol = "" then none
    else some
      { localSymbol := ex.localSymbol
        symbol := ex.symbol
        secType := ex.secType
        multiplier := ex.multiplier.filter (· ≠ "")
        side := ex.side
        execId := ex.execId
        permId := ex.permId
        execTime := ts
        realizedPnl := ex.realizedPnl
        price := ex.price
        shares := ex.shares
        commission := ex.commission }

/-- `_is_zero`. -/
def isZero (v : Option ℚ) : Bool := v = none || v = some 0

-- ============================================================================
-- Merging
-- ============================================================================

/-- One sweep: what IB reports, the clock, and the host's offset from UTC. -/
structure Sweep where
  fresh : List RawExec
  now : ℚ
  hostOffset : ℚ
  deriving Repr

/-- `_FUTURE_GRACE`. -/
def futureGrace : ℚ := 120

/-- `_deshift_time`: a time in the future is rolled back by the host's offset. -/
def deshiftTime (w : Sweep) (t : ℚ) : ℚ :=
  if w.now + futureGrace < t then t + w.hostOffset else t

/-- The record of an execution not seen before. -/
def firstSeen (w : Sweep) (rec : ExecRecord) : ExecRecord :=
  { rec with execTime := deshiftTime w rec.execTime }

/-- The stored record with what a later report adds. -/
def patched (prev rec : ExecRecord) : ExecRecord :=
  if prev.realizedPnl = none ∧ rec.realizedPnl ≠ none then
    { prev with
      realizedPnl := rec.realizedPnl
      commission := if rec.commission ≠ none then rec.commission else prev.commission }
  else
    { prev with
      commission :=
        if isZero prev.commission ∧ ¬isZero rec.commission then rec.commission
        else prev.commission
      multiplier :=
        if prev.multiplier = none ∧ rec.multiplier ≠ none then rec.multiplier
        else prev.multiplier }

/-- What a report makes of the record stored under its id. -/
def upsert (w : Sweep) (prev : Option ExecRecord) (rec : ExecRecord) : ExecRecord :=
  match prev with
  | none => firstSeen w rec
  | some prev => patched prev rec

/-- `stored`: the records by execution id. -/
abbrev Store := KeyedList ExecRecord.execId

/-- The reports of a sweep that can be stored. -/
def reports (w : Sweep) : List ExecRecord := w.fresh.filterMap toRecord

/-- The start of the window. -/
def cutoff (window : ℚ) (w : Sweep) : ℚ := w.now - window

/-- `merge_executions`. -/
def mergeExecutions (window : ℚ) (stored : Store) (w : Sweep) : Store :=
  ((reports w).foldl (fun out rec => out.set (upsert w (out.get rec.execId) rec)) stored).filter
    fun r => cutoff window w ≤ r.execTime

/-- The store after some sweeps. -/
def sweepAll (window : ℚ) (sweeps : List Sweep) : Store :=
  sweeps.foldl (mergeExecutions window) ∅

-- ============================================================================
-- Each execution by itself
-- ============================================================================

@[simp] theorem firstSeen_execId (w : Sweep) (rec : ExecRecord) :
    (firstSeen w rec).execId = rec.execId := rfl

@[simp] theorem patched_execId (prev rec : ExecRecord) : (patched prev rec).execId = prev.execId := by
  unfold patched
  split <;> rfl

@[simp] theorem patched_execTime (prev rec : ExecRecord) :
    (patched prev rec).execTime = prev.execTime := by
  unfold patched
  split <;> rfl

/-- The reports of one execution. -/
def reportsOf (id : String) (w : Sweep) : List ExecRecord := (reports w).filter (·.execId = id)

/-- What a sweep makes of the record of one execution, before it is pruned. -/
def mergeOne (id : String) (w : Sweep) (prev : Option ExecRecord) : Option ExecRecord :=
  (reportsOf id w).foldl (fun prev rec => some (upsert w prev rec)) prev

/-- What a sweep leaves of the record of one execution. -/
def sweepOne (window : ℚ) (id : String) (prev : Option ExecRecord) (w : Sweep) : Option ExecRecord :=
  (mergeOne id w prev).filter fun r => cutoff window w ≤ r.execTime

/-- A report is stored under its own id. -/
theorem upsert_execId (w : Sweep) (s : Store) (rec : ExecRecord) :
    (upsert w (s.get rec.execId) rec).execId = rec.execId := by
  cases hget : s.get rec.execId with
  | none => rfl
  | some prev =>
    change (patched prev rec).execId = rec.execId
    rw [patched_execId]
    exact (KeyedList.get_eq_some.mp hget).2

theorem keyedStep_upsert (w : Sweep) :
    KeyedStep (fun (s : Store) id => s.get id) ExecRecord.execId
      (fun rec prev => some (upsert w prev rec))
      (fun out rec => out.set (upsert w (out.get rec.execId) rec)) where
  own s rec := by
    have hkey := upsert_execId w s rec
    have hget := KeyedList.get_set_self s (upsert w (s.get rec.execId) rec)
    rw [hkey] at hget
    exact hget
  other s rec id hid := KeyedList.get_set_ne (by rw [upsert_execId]; exact hid)

/-- A sweep acts on each execution by itself. -/
theorem get_mergeExecutions (window : ℚ) (s : Store) (w : Sweep) (id : String) :
    (mergeExecutions window s w).get id = sweepOne window id (s.get id) w := by
  rw [mergeExecutions, KeyedList.get_filter, sweepOne, mergeOne, reportsOf]
  congr 1
  exact (keyedStep_upsert w).view_foldl_filter (reports w) s

theorem get_sweepAll (window : ℚ) (sweeps : List Sweep) (id : String) :
    (sweepAll window sweeps).get id = sweeps.foldl (sweepOne window id) none := by
  induction sweeps using List.reverseRecOn with
  | nil => rfl
  | append_singleton sweeps w ih =>
    rw [sweepAll, List.foldl_append, List.foldl_append, ← ih]
    exact get_mergeExecutions window _ w id

end IbTrader.Engine.ExecAccumulator
