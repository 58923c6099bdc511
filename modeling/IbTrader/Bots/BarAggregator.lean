/-
  IbTrader.Bots.BarAggregator

  The aggregation of 5-second bars into bars of a target size
  (`ib_trader/bots/bar_aggregator.py`), with the state it saves to a file.

  A datetime is the instant it names, in microseconds since the epoch; the naive
  ones are read as UTC throughout.  Prices are rationals and volumes integers,
  which `json` writes and reads exactly.  The target size is a field that can
  only be positive.
-/

import Mathlib.Data.PNat.Defs
import Mathlib.Algebra.Order.Ring.Rat

namespace IbTrader.Bots

-- ============================================================================
-- Bars
-- ============================================================================

/-- Microseconds since the epoch. -/
abbrev Datetime := ℤ

/-- The `timestamp_utc` of a bar: a datetime, or a text that
    `datetime.fromisoformat` reads as one (`isoformat()` and `str` both write such
    texts).  A text never equals a datetime. -/
inductive Timestamp where
  | datetime (t : Datetime)
  | text (t : Datetime)
  deriving DecidableEq, Repr

/-- The datetime itself, or what `datetime.fromisoformat` reads. -/
def Timestamp.time : Timestamp → Datetime
  | .datetime t | .text t => t

/-- What `json.dumps(default=str)` writes and `json.loads` reads back. -/
def Timestamp.dumped (stamp : Timestamp) : Timestamp := .text stamp.time

@[simp] theorem Timestamp.dumped_time (stamp : Timestamp) : stamp.dumped.time = stamp.time := rfl

structure Bar where
  timestampUtc : Timestamp
  open_ : ℚ
  high : ℚ
  low : ℚ
  close : ℚ
  volume : ℤ
  deriving DecidableEq, Repr

def Bar.time (bar : Bar) : Datetime := bar.timestampUtc.time

def Bar.dumped (bar : Bar) : Bar := { bar with timestampUtc := bar.timestampUtc.dumped }

@[simp] theorem Bar.dumped_time (bar : Bar) : bar.dumped.time = bar.time := rfl

/-- The bar with its timestamp read. -/
def Bar.read (bar : Bar) : Bar := { bar with timestampUtc := .datetime bar.time }

-- ============================================================================
-- The aggregator
-- ============================================================================

/-- `BarAggregator`. -/
structure BarAggregator where
  targetSeconds : ℕ+
  lookbackBars : ℕ
  /-- The ring buffer of completed bars. -/
  completed : List Bar := []
  current : Option Bar := none
  ticksInCurrent : ℕ := 0
  lastSeenTs : Option Datetime := none
  totalBarCount : ℕ := 0
  deriving DecidableEq

/-- `deque(maxlen=maxlen).append`. -/
def appendBounded {α : Type*} (maxlen : ℕ) (xs : List α) (x : α) : List α :=
  (xs ++ [x]).drop ((xs ++ [x]).length - maxlen)

/-- `_slot_start`: `int(ts.timestamp())` drops the fraction of a second. -/
def slotStart (targetSeconds : ℕ+) (ts : Datetime) : Datetime :=
  let epochSec := ts.tdiv 1000000
  let slotSec := epochSec / targetSeconds * targetSeconds
  slotSec * 1000000

/-- The bar a slot starts with. -/
def Bar.start (slot : Datetime) (bar : Bar) : Bar := { bar with timestampUtc := .datetime slot }

/-- A further 5-second bar of the slot. -/
def Bar.extend (current bar : Bar) : Bar :=
  { current with
    high := max current.high bar.high
    low := min current.low bar.low
    close := bar.close
    volume := current.volume + bar.volume }

namespace BarAggregator

/-- The bar being built, if it is not of this slot. -/
def rolled (a : BarAggregator) (slot : Datetime) : Option Bar :=
  a.current.filter (·.timestampUtc ≠ .datetime slot)

/-- The bar being built is finalized. -/
def finalize (a : BarAggregator) (current : Bar) : BarAggregator :=
  { a with
    completed := appendBounded a.lookbackBars a.completed current
    totalBarCount := a.totalBarCount + 1
    current := none
    ticksInCurrent := 0 }

/-- The bar of the slot is started or extended. -/
def build (a : BarAggregator) (slot : Datetime) (bar : Bar) : BarAggregator :=
  match a.current with
  | none => { a with current := some (bar.start slot), ticksInCurrent := 1 }
  | some current =>
    { a with current := some (current.extend bar), ticksInCurrent := a.ticksInCurrent + 1 }

/-- Is the bar one that has been seen? -/
def seen (a : BarAggregator) (bar : Bar) : Prop := ∃ ts ∈ a.lastSeenTs, bar.time ≤ ts

instance (a : BarAggregator) (bar : Bar) : Decidable (a.seen bar) := by
  unfold seen
  cases h : a.lastSeenTs with
  | none => exact isFalse (by simp)
  | some ts => exact decidable_of_iff (bar.time ≤ ts) (by simp)

/-- One bar of `add_bars`. -/
def addBar (a : BarAggregator) (bar : Bar) : BarAggregator × List Bar :=
  if a.seen bar then (a, [])
  else
    let a := { a with lastSeenTs := some bar.time }
    let slot := slotStart a.targetSeconds bar.time
    match a.rolled slot with
    | some current => ((a.finalize current).build slot bar, [current])
    | none => (a.build slot bar, [])

/-- `add_bars`: the bars it completes. -/
def addBars (a : BarAggregator) : List Bar → BarAggregator × List Bar
  | [] => (a, [])
  | bar :: bars =>
    let (next, done) := a.addBar bar
    let (last, rest) := next.addBars bars
    (last, done ++ rest)

/-- `get_bar_window`. -/
def getBarWindow (a : BarAggregator) : Option (List Bar) :=
  if a.completed.length < a.lookbackBars then none else some a.completed

-- ============================================================================
-- The saved state
-- ============================================================================

/-- The dictionary of `to_state_dict`. -/
structure StateDict where
  completed : List Bar
  current : Option Bar
  ticksInCurrent : ℕ
  /-- An `isoformat()` text. -/
  lastSeenTs : Option Timestamp
  totalBarCount : ℕ
  targetSeconds : ℕ+
  lookbackBars : ℕ
  deriving DecidableEq

/-- `to_state_dict`. -/
def toStateDict (a : BarAggregator) : StateDict where
  completed := a.completed
  current := a.current
  ticksInCurrent := a.ticksInCurrent
  lastSeenTs := a.lastSeenTs.map Timestamp.text
  totalBarCount := a.totalBarCount
  targetSeconds := a.targetSeconds
  lookbackBars := a.lookbackBars

/-- What `flush_state_to_file` writes and `load_state_from_file` reads back. -/
def StateDict.dumped (data : StateDict) : StateDict :=
  { data with
    completed := data.completed.map Bar.dumped
    current := data.current.map Bar.dumped
    lastSeenTs := data.lastSeenTs.map Timestamp.dumped }

/-- `from_state_dict`. -/
def fromStateDict (data : StateDict) (lookbackBarsOverride : Option ℕ := none) : BarAggregator :=
  let lookbackBars := lookbackBarsOverride.getD data.lookbackBars
  { targetSeconds := data.targetSeconds
    lookbackBars
    completed := data.completed.foldl (appendBounded lookbackBars) []
    current := data.current
    ticksInCurrent := data.ticksInCurrent
    lastSeenTs := data.lastSeenTs.map Timestamp.time
    totalBarCount := data.totalBarCount }

/-- Save, stop, start and load. -/
def restart (a : BarAggregator) : BarAggregator := fromStateDict a.toStateDict.dumped

-- ============================================================================
-- What adding bars does
-- ============================================================================

@[simp] theorem addBars_nil (a : BarAggregator) : a.addBars [] = (a, []) := rfl

theorem addBars_cons (a : BarAggregator) (bar : Bar) (bars : List Bar) :
    a.addBars (bar :: bars) =
      (((a.addBar bar).1.addBars bars).1,
        (a.addBar bar).2 ++ ((a.addBar bar).1.addBars bars).2) := rfl

/-- Bars may be added in two calls. -/
theorem addBars_append (a : BarAggregator) (bars more : List Bar) :
    a.addBars (bars ++ more) =
      (((a.addBars bars).1.addBars more).1,
        (a.addBars bars).2 ++ ((a.addBars bars).1.addBars more).2) := by
  induction bars generalizing a with
  | nil => rfl
  | cons bar bars ih =>
    rw [List.cons_append, addBars_cons, addBars_cons, ih]
    simp only [List.append_assoc]

theorem addBar_seen {a : BarAggregator} {bar : Bar} (h : a.seen bar) : a.addBar bar = (a, []) :=
  if_pos h

/-- A new bar of another slot completes the bar being built. -/
theorem addBar_roll {a : BarAggregator} {bar current : Bar} (h : ¬ a.seen bar)
    (hcurrent : a.current = some current)
    (hslot : current.timestampUtc ≠ .datetime (slotStart a.targetSeconds bar.time)) :
    (a.addBar bar).2 = [current] ∧
      (a.addBar bar).1.current = some (bar.start (slotStart a.targetSeconds bar.time)) := by
  have hrolled : ({ a with lastSeenTs := some bar.time } : BarAggregator).rolled
      (slotStart a.targetSeconds bar.time) = some current := by
    simp [rolled, hcurrent, hslot]
  rw [addBar, if_neg h]
  dsimp only
  rw [hrolled]
  exact ⟨rfl, rfl⟩

/-- A new bar of the same slot extends it. -/
theorem addBar_extend {a : BarAggregator} {bar current : Bar} (h : ¬ a.seen bar)
    (hcurrent : a.current = some current)
    (hslot : current.timestampUtc = .datetime (slotStart a.targetSeconds bar.time)) :
    (a.addBar bar).2 = [] ∧ (a.addBar bar).1.current = some (current.extend bar) := by
  have hrolled : ({ a with lastSeenTs := some bar.time } : BarAggregator).rolled
      (slotStart a.targetSeconds bar.time) = none := by
    simp [rolled, hcurrent, hslot]
  rw [addBar, if_neg h]
  dsimp only
  rw [hrolled]
  simp [build, hcurrent]

/-- The first bar starts its slot. -/
theorem addBar_first {a : BarAggregator} {bar : Bar} (h : ¬ a.seen bar) (hcurrent : a.current = none) :
    (a.addBar bar).2 = [] ∧
      (a.addBar bar).1.current = some (bar.start (slotStart a.targetSeconds bar.time)) := by
  have hrolled : ({ a with lastSeenTs := some bar.time } : BarAggregator).rolled
      (slotStart a.targetSeconds bar.time) = none := by
    simp [rolled, hcurrent]
  rw [addBar, if_neg h]
  dsimp only
  rw [hrolled]
  simp [build, hcurrent]

@[simp] theorem build_targetSeconds (a : BarAggregator) (slot : Datetime) (bar : Bar) :
    (a.build slot bar).targetSeconds = a.targetSeconds := by unfold build; split <;> rfl

@[simp] theorem build_lastSeenTs (a : BarAggregator) (slot : Datetime) (bar : Bar) :
    (a.build slot bar).lastSeenTs = a.lastSeenTs := by unfold build; split <;> rfl

@[simp] theorem addBar_targetSeconds (a : BarAggregator) (bar : Bar) :
    (a.addBar bar).1.targetSeconds = a.targetSeconds := by
  unfold addBar
  split
  · rfl
  · dsimp only
    split
    · exact build_targetSeconds _ _ _
    · exact build_targetSeconds _ _ _

/-- A new bar is remembered as the last seen. -/
theorem addBar_lastSeenTs {a : BarAggregator} {bar : Bar} (h : ¬ a.seen bar) :
    (a.addBar bar).1.lastSeenTs = some bar.time := by
  rw [addBar, if_neg h]
  dsimp only
  split
  · exact build_lastSeenTs _ _ _
  · exact build_lastSeenTs _ _ _

end BarAggregator

end IbTrader.Bots
