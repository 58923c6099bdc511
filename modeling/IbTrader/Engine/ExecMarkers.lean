/-
  IbTrader.Engine.ExecMarkers

  The execution markers of the charts (`ib_trader/engine/exec_markers.py`).

  The rows are those of `req_recent_executions`, with any of their fields missing.  A time
  is a datetime or a text, for which `datetime.fromisoformat` is a parameter; a datetime
  is a moment of the calendar that the clock on the wall shows, and arithmetic that leaves
  the calendar raises.  Figures are exact: a figure that reads as NaN or as infinite is
  left out, and so is the rounding of `Decimal` and `float`.

  The rows of an order are collected into one group, under a key of two texts, and each
  group becomes a marker of its contract.
-/

import Mathlib.Algebra.Order.Field.Rat
import Mathlib.Data.List.Sort
import IbTrader.Data.Python
import IbTrader.Lib.Grouping
import IbTrader.Lib.IsoTime

namespace IbTrader.Engine.ExecMarkers

open Lib Lib.IsoTime Data

-- ============================================================================
-- Times
-- ============================================================================

/-- What a step raises. -/
inductive Raised
  | overflowError
  deriving DecidableEq, Repr

/-- A datetime with an offset from UTC, in microseconds. -/
structure Aware where
  wall : Moment
  utcoffset : ℤ
  deriving DecidableEq, Repr

inductive Datetime
  | naive (wall : Moment)
  | aware (d : Aware)
  deriving DecidableEq, Repr

/-- The `exec_time` of a row. -/
inductive ExecTime
  | datetime (d : Datetime)
  | text (s : String)
  | other
  deriving DecidableEq, Repr

/-- `datetime + timedelta`. -/
def add (t : Moment) (delta : ℤ) : Except Raised Moment :=
  match t.shift delta with
  | some t => .ok t
  | none => .error .overflowError

/-- `astimezone(timezone.utc)`. -/
def astimezone (d : Aware) : Except Raised Moment := add d.wall (-d.utcoffset)

/-- A datetime in UTC. -/
def Datetime.utc : Datetime → Except Raised Moment
  | .naive wall => .ok wall
  | .aware d => astimezone d

/-- `_to_utc`. -/
def toUtc (fromisoformat : String → Option Datetime) : ExecTime → Except Raised (Option Moment)
  | .datetime d => some <$> d.utc
  | .text s =>
    match fromisoformat s with
    | none => .ok none
    | some d => some <$> d.utc
  | .other => .ok none

-- ============================================================================
-- Rows
-- ============================================================================

/-- A figure of a row: nothing, what `Decimal` refuses, or a number. -/
inductive Figure
  | missing
  | refused
  | number (q : ℚ)
  deriving DecidableEq, Repr

/-- A row of `req_recent_executions`; a missing text is empty, a missing `perm_id` is 0. -/
structure ExecRow where
  localSymbol : String := ""
  execTime : ExecTime := .other
  shares : Figure := .missing
  price : Figure := .missing
  permId : ℤ := 0
  execId : String := ""
  side : String := ""
  deriving DecidableEq, Repr

/-- The side of a marker. -/
inductive Side
  | B
  | S
  deriving DecidableEq, Repr

/-- A row that counts, at its corrected time. -/
structure Fill where
  sym : String
  time : Moment
  shares : ℚ
  positive : 0 < shares
  price : ℚ
  permId : ℤ
  execId : String
  side : Side
  deriving DecidableEq

/-- How far in the future a fill may be, in microseconds. -/
def futureGrace : ℤ := 120000000

/-- What the clock says: the host's offset from UTC, and the last time that is not corrected. -/
structure Clock where
  hostOffset : ℤ
  futureCutoff : Moment
  deriving DecidableEq, Repr

def clockAt (now : Aware) : Except Raised Clock := do
  let nowUtc ← astimezone now
  let futureCutoff ← add nowUtc futureGrace
  pure { hostOffset := now.utcoffset, futureCutoff }

/-- A time in the future is off by the host's offset. -/
def correct (clock : Clock) (t : Moment) : Except Raised Moment :=
  if clock.futureCutoff < t then add t clock.hostOffset else pure t

section Reading

variable (py : Python) (fromisoformat : String → Option Datetime)

def sideOf (side : String) : Side :=
  if py.upper side ∈ ["BOT", "BUY", "B"] then .B else .S

/-- What the loop reads from a row: nothing where the row is skipped. -/
def readRow (clock : Clock) (ex : ExecRow) : Except Raised (Option Fill) := do
  match ← toUtc fromisoformat ex.execTime with
  | none => pure none
  | some t =>
    if ex.localSymbol = "" ∨ ex.shares = .missing ∨ ex.price = .missing then pure none
    else
      let t ← correct clock t
      match ex.shares, ex.price with
      | .number shares, .number price =>
        if h : shares ≤ 0 then pure none
        else pure (some
          { sym := ex.localSymbol
            time := t
            shares
            positive := not_le.mp h
            price
            permId := ex.permId
            execId := ex.execId
            side := sideOf py ex.side })
      | _, _ => pure none

end Reading

-- ============================================================================
-- Groups
-- ============================================================================

/-- The fills of an order added up. -/
structure Group where
  sym : String
  side : Side
  qty : ℚ
  notional : ℚ
  time : Moment
  deriving DecidableEq, Repr

/-- The key of the group of a fill. -/
def Fill.gkey (f : Fill) : String × String :=
  if f.permId ≠ 0 then (f.sym, "p" ++ toString f.permId) else (f.sym, "e" ++ f.execId)

/-- The group of a first fill. -/
def newGroup (f : Fill) : Group where
  sym := f.sym
  side := f.side
  qty := f.shares
  notional := f.price * f.shares
  time := f.time

/-- A fill joins its group. -/
def Group.join (g : Group) (f : Fill) : Group :=
  { g with
    qty := g.qty + f.shares
    notional := g.notional + f.price * f.shares
    time := if f.time < g.time then f.time else g.time }

-- ============================================================================
-- Markers
-- ============================================================================

structure Marker where
  time : String
  side : Side
  qty : ℚ
  price : ℚ
  deriving DecidableEq, Repr

def Group.marker (g : Group) : Marker where
  time := isoformat g.time
  side := g.side
  qty := g.qty
  price := if g.qty ≠ 0 then g.notional / g.qty else 0

/-- How many markers a contract keeps. -/
def maxPerSymbol : ℕ := 300

/-- The newest markers, in the order of their times. -/
def newest (ms : List Marker) : List Marker :=
  let sorted := ms.insertionSort fun m m' => m.time ≤ m'.time
  if maxPerSymbol < sorted.length then sorted.drop (sorted.length - maxPerSymbol) else sorted

/-- The markers of each contract. -/
def bySymbol (gs : Dict (String × String) Group) : Dict String (List Marker) :=
  groups Group.sym (fun g => [g.marker]) (fun ms g => ms ++ [g.marker]) (gs.items.map Prod.snd)

section Compute

variable (py : Python) (fromisoformat : String → Option Datetime)

/-- One turn of the loop over the rows. -/
def addRow (clock : Clock) (gs : Dict (String × String) Group) (ex : ExecRow) :
    Except Raised (Dict (String × String) Group) := do
  match ← readRow py fromisoformat clock ex with
  | none => pure gs
  | some f => pure (collect Fill.gkey newGroup Group.join gs f)

/-- `compute_exec_markers`. -/
def computeExecMarkers (executions : List ExecRow) (now : Aware) :
    Except Raised (Dict String (List Marker)) := do
  let clock ← clockAt now
  let gs ← executions.foldlM (addRow py fromisoformat clock) ∅
  pure ((bySymbol gs).mapValues newest)

end Compute

end IbTrader.Engine.ExecMarkers
