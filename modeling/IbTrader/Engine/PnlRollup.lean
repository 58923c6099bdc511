/-
  IbTrader.Engine.PnlRollup

  The realized P&L of each contract for the chart panes (`ib_trader/engine/pnl_rollup.py`),
  over exact arithmetic.

  The figures of a contract are the sums over its executions in the last day and, of a
  future, since its session began, on the LIFO basis where there is one and as IB reports
  them (`rollup_totals`).  So they do not depend on the order of the executions
  (`rollup_perm`).

  Times are microseconds on the wall clock that the session hour is of.
-/

import IbTrader.Data.Python
import IbTrader.Engine.SeedCost
import IbTrader.Lib.Grouping

namespace IbTrader.Engine.PnlRollup

open Lib Data LifoPnl

-- ============================================================================
-- Windows
-- ============================================================================

def dayMicros : ℤ := 24 * 3600 * 1000000

/-- `session_start`. -/
def sessionStart (now : ℤ) (sessionStartHour : Fin 24) : ℤ :=
  let anchor := now - now % dayMicros + sessionStartHour * (3600 * 1000000)
  if now < anchor then anchor - dayMicros else anchor

/-- It is the last time that the clock showed the hour. -/
theorem sessionStart_last (now : ℤ) (sessionStartHour : Fin 24) :
    sessionStart now sessionStartHour ≤ now ∧ now < sessionStart now sessionStartHour + dayMicros ∧
      sessionStart now sessionStartHour % dayMicros = sessionStartHour * (3600 * 1000000) := by
  have hhour := sessionStartHour.isLt
  unfold sessionStart dayMicros
  dsimp only
  split <;> omega

-- ============================================================================
-- Executions
-- ============================================================================

/-- An execution; the time is missing where it is not a `datetime`. -/
structure AccountExec where
  localSymbol : Option String
  secType : Option String
  realizedPnl : Option ℚ
  execId : Option String
  execTime : Option ℤ
  deriving DecidableEq, Repr

/-- What an execution adds: the figures of both bases, one of which may be missing. -/
structure Realized where
  symbol : String
  secType : String
  time : ℤ
  /-- `use_lifo`. -/
  lifo : Bool
  pnl : Option ℚ
  ibPnl : Option ℚ
  deriving DecidableEq, Repr

/-- The figures of an execution; none where it has no time, symbol or realized P&L. -/
def realizedOf (py : Python) (lifo : String → Option LifoResult) (ex : AccountExec) : Option Realized :=
  ex.execTime.bind fun time =>
    let symbol := strip py (ex.localSymbol.getD "")
    let secType := py.upper (ex.secType.getD "")
    let basis := (if secType = "FUT" then lifo symbol else none).filter fun res => res.method = .lifo
    let pnl := basis.elim ex.realizedPnl fun res => res.realizedByExec.lookup (ex.execId.getD "")
    if symbol = "" then none
    else if pnl = none ∧ ex.realizedPnl = none then none
    else some { symbol, secType, time, lifo := basis.isSome, pnl, ibPnl := ex.realizedPnl }

-- ============================================================================
-- The rollup
-- ============================================================================

/-- `slot`. -/
structure PnlSlot where
  pnl24h : ℚ := 0
  pnlSession : Option ℚ := none
  ibPnl24h : ℚ := 0
  ibPnlSession : Option ℚ := none
  /-- `method` is `"lifo"`. -/
  lifo : Bool
  secType : String
  deriving DecidableEq, Repr

section Rollup

variable (now sessStart : ℤ)

def inDay (r : Realized) : Bool := now - dayMicros ≤ r.time

def inSession (r : Realized) : Bool := r.secType = "FUT" ∧ sessStart ≤ r.time

/-- A figure added to a total of the last day. -/
def addDay (r : Realized) (figure : Option ℚ) (total : ℚ) : ℚ :=
  figure.elim total fun v => if inDay now r then total + v else total

/-- A figure added to a total of the session. -/
def addSession (r : Realized) (figure : Option ℚ) (total : Option ℚ) : Option ℚ :=
  figure.elim total fun v => if inSession sessStart r then some (total.getD 0 + v) else total

/-- The figures of an execution go into the slot. -/
def PnlSlot.add (slot : PnlSlot) (r : Realized) : PnlSlot :=
  let pnlSession := addSession sessStart r r.pnl slot.pnlSession
  { slot with
    pnl24h := addDay now r r.pnl slot.pnl24h
    pnlSession := if inSession sessStart r ∧ pnlSession = none then some 0 else pnlSession
    ibPnl24h := addDay now r r.ibPnl slot.ibPnl24h
    ibPnlSession := addSession sessStart r r.ibPnl slot.ibPnlSession }

/-- The slot of a contract that has none yet. -/
def PnlSlot.first (r : Realized) : PnlSlot := PnlSlot.add now sessStart { lifo := r.lifo, secType := r.secType } r

/-- The slot says something. -/
def PnlSlot.kept (slot : PnlSlot) : Bool := slot.pnl24h ≠ 0 ∨ slot.pnlSession ≠ none ∨ slot.ibPnl24h ≠ 0

end Rollup

/-- `compute_pnl_rollup`. -/
def computePnlRollup (py : Python) (executions : List AccountExec) (now : ℤ) (sessionStartHour : Fin 24)
    (lifo : String → Option LifoResult) : Dict String PnlSlot :=
  let sessStart := sessionStart now sessionStartHour
  (groups Realized.symbol (PnlSlot.first now sessStart) (PnlSlot.add now sessStart)
    (executions.filterMap (realizedOf py lifo))).filter fun entry => entry.2.kept

-- ============================================================================
-- Totals
-- ============================================================================

section Totals

variable (now sessStart : ℤ)

/-- The sum of a figure over the executions of a window. -/
def total (window : Realized → Bool) (figure : Realized → Option ℚ) (rs : List Realized) : ℚ :=
  ((rs.filter window).filterMap figure).sum

/-- A sum that is there where one of the executions is. -/
def totalWhere (p : Realized → Bool) (figure : Realized → Option ℚ) (rs : List Realized) : Option ℚ :=
  if rs.any p then some (total (inSession sessStart) figure rs) else none

/-- The slot holds the sums over the executions. -/
structure PnlSlot.Totals (rs : List Realized) (slot : PnlSlot) : Prop where
  pnl24h : slot.pnl24h = total (inDay now) Realized.pnl rs
  ibPnl24h : slot.ibPnl24h = total (inDay now) Realized.ibPnl rs
  pnlSession : slot.pnlSession = totalWhere sessStart (inSession sessStart) Realized.pnl rs
  ibPnlSession : slot.ibPnlSession =
    totalWhere sessStart (fun r => inSession sessStart r && r.ibPnl.isSome) Realized.ibPnl rs

variable {now sessStart} {rs : List Realized} {r : Realized} {slot : PnlSlot}

theorem total_append (window : Realized → Bool) (figure : Realized → Option ℚ) (rs rs' : List Realized) :
    total window figure (rs ++ rs') = total window figure rs + total window figure rs' := by
  unfold total
  rw [List.filter_append, List.filterMap_append, List.sum_append]

theorem total_concat (window : Realized → Bool) (figure : Realized → Option ℚ) :
    total window figure (rs ++ [r]) = total window figure rs + if window r then (figure r).getD 0 else 0 := by
  rw [total_append]
  unfold total
  cases hwindow : window r with
  | false => simp [hwindow]
  | true => cases hfigure : figure r <;> simp [hwindow, hfigure]

theorem total_perm {rs' : List Realized} (h : rs.Perm rs') (window : Realized → Bool) (figure : Realized → Option ℚ) :
    total window figure rs = total window figure rs' :=
  ((h.filter window).filterMap figure).sum_eq

/-- Where there is no figure the total is zero. -/
theorem total_eq_zero {window : Realized → Bool} {figure : Realized → Option ℚ}
    (h : rs.any (fun r => window r && (figure r).isSome) = false) : total window figure rs = 0 := by
  unfold total
  rw [List.filterMap_eq_nil_iff.mpr, List.sum_nil]
  intro r hr
  obtain ⟨hmem, hwindow⟩ := List.mem_filter.mp hr
  have hnone := List.any_eq_false.mp h r hmem
  rw [hwindow, Bool.true_and, Bool.not_eq_true, Option.isSome_eq_false_iff, Option.isNone_iff_eq_none] at hnone
  exact hnone

theorem addDay_total (figure : Realized → Option ℚ) :
    addDay now r (figure r) (total (inDay now) figure rs) = total (inDay now) figure (rs ++ [r]) := by
  rw [total_concat]
  unfold addDay
  cases figure r with
  | none => simp
  | some v => cases hday : inDay now r <;> simp

/-- One more execution. -/
theorem PnlSlot.Totals.add (h : slot.Totals now sessStart rs) :
    (slot.add now sessStart r).Totals now sessStart (rs ++ [r]) where
  pnl24h := (congrArg (addDay now r r.pnl) h.pnl24h).trans (addDay_total Realized.pnl)
  ibPnl24h := (congrArg (addDay now r r.ibPnl) h.ibPnl24h).trans (addDay_total Realized.ibPnl)
  pnlSession := by
    unfold PnlSlot.add addSession
    rw [h.pnlSession, totalWhere, totalWhere, List.any_append, total_concat]
    dsimp only
    cases hsession : inSession sessStart r with
    | false => cases r.pnl <;> simp [hsession]
    | true =>
      have hzero : rs.any (inSession sessStart) = false → total (inSession sessStart) Realized.pnl rs = 0 := fun hnone =>
        total_eq_zero (List.any_eq_false.mpr fun r hr => by simp [List.any_eq_false.mp hnone r hr])
      cases hany : rs.any (inSession sessStart) with
      | false => cases r.pnl <;> simp [hsession, hzero hany]
      | true => cases r.pnl <;> simp [hsession]
  ibPnlSession := by
    unfold PnlSlot.add addSession
    dsimp only
    rw [h.ibPnlSession, totalWhere, totalWhere, List.any_append, total_concat]
    cases hsession : inSession sessStart r with
    | false => cases hfigure : r.ibPnl <;> simp [hsession]
    | true =>
      cases hany : rs.any (fun r => inSession sessStart r && r.ibPnl.isSome) with
      | false => cases hfigure : r.ibPnl <;> simp [hsession, hfigure, total_eq_zero hany]
      | true => cases hfigure : r.ibPnl <;> simp [hsession, hfigure]

theorem PnlSlot.totals_nil {lifo : Bool} {secType : String} :
    PnlSlot.Totals now sessStart [] { lifo, secType } where
  pnl24h := rfl
  ibPnl24h := rfl
  pnlSession := rfl
  ibPnlSession := rfl

theorem totals_of_group (h : groupOf (PnlSlot.first now sessStart) (PnlSlot.add now sessStart) rs = some slot) :
    slot.Totals now sessStart rs :=
  groupOf_induction (fun _ => PnlSlot.totals_nil.add) (fun _ _ _ hslot => hslot.add) h

end Totals

-- ============================================================================
-- The rollup of a contract
-- ============================================================================

section Contract

variable (py : Python) (lifo : String → Option LifoResult) (executions : List AccountExec)

/-- What the executions of a contract add. -/
def realizedIn (symbol : String) : List Realized := (executions.filterMap (realizedOf py lifo)).filter (·.symbol = symbol)

variable {py lifo executions} {now : ℤ} {sessionStartHour : Fin 24} {symbol : String}

theorem value_computePnlRollup : (computePnlRollup py executions now sessionStartHour lifo).value symbol =
    (groupOf (PnlSlot.first now (sessionStart now sessionStartHour)) (PnlSlot.add now (sessionStart now sessionStartHour))
      (realizedIn py lifo executions symbol)).filter PnlSlot.kept := by
  unfold computePnlRollup Dict.value
  dsimp only
  rw [KeyedList.get_filter, realizedIn, ← value_groups, Dict.value]
  cases (groups Realized.symbol (PnlSlot.first now (sessionStart now sessionStartHour))
      (PnlSlot.add now (sessionStart now sessionStartHour)) (executions.filterMap (realizedOf py lifo))).get symbol with
  | none => rfl
  | some entry => cases hkept : entry.2.kept <;> simp [Option.filter, hkept]

/-- No figure of the contract says anything. -/
structure Silent (now sessStart : ℤ) (rs : List Realized) : Prop where
  pnl24h : total (inDay now) Realized.pnl rs = 0
  ibPnl24h : total (inDay now) Realized.ibPnl rs = 0
  session : ∀ r ∈ rs, inSession sessStart r = false

theorem PnlSlot.Totals.kept_iff {sessStart : ℤ} {rs : List Realized} {slot : PnlSlot} (h : slot.Totals now sessStart rs) :
    slot.kept = false ↔ Silent now sessStart rs := by
  have hsession : slot.pnlSession = none ↔ ∀ r ∈ rs, inSession sessStart r = false := by
    rw [h.pnlSession, totalWhere]
    cases hany : rs.any (inSession sessStart) with
    | false =>
      rw [if_neg Bool.false_ne_true]
      exact iff_of_true rfl fun r hr => Bool.eq_false_iff.mpr (List.any_eq_false.mp hany r hr)
    | true =>
      obtain ⟨r, hr, hin⟩ := List.any_eq_true.mp hany
      rw [if_pos rfl]
      exact iff_of_false (Option.some_ne_none _) fun hnone => Bool.false_ne_true ((hnone r hr).symm.trans hin)
  unfold PnlSlot.kept
  rw [decide_eq_false_iff_not, not_or, not_or, not_not, not_not, not_not, h.pnl24h, h.ibPnl24h, hsession]
  exact ⟨fun ⟨hpnl, hin, hib⟩ => ⟨hpnl, hib, hin⟩, fun hsilent => ⟨hsilent.pnl24h, hsilent.session, hsilent.ibPnl24h⟩⟩

theorem totals_of_value {slot : PnlSlot}
    (h : (computePnlRollup py executions now sessionStartHour lifo).value symbol = some slot) :
    slot.Totals now (sessionStart now sessionStartHour) (realizedIn py lifo executions symbol) := by
  rw [value_computePnlRollup] at h
  exact totals_of_group (Option.eq_some_of_filter_eq_some h)

theorem value_eq_none_iff : (computePnlRollup py executions now sessionStartHour lifo).value symbol = none ↔
    Silent now (sessionStart now sessionStartHour) (realizedIn py lifo executions symbol) := by
  rw [value_computePnlRollup]
  cases hgroup : groupOf (PnlSlot.first now (sessionStart now sessionStartHour))
      (PnlSlot.add now (sessionStart now sessionStartHour)) (realizedIn py lifo executions symbol) with
  | none =>
    rw [groupOf_eq_none] at hgroup
    rw [hgroup]
    exact iff_of_true rfl ⟨rfl, rfl, fun r hr => absurd hr List.not_mem_nil⟩
  | some slot =>
    rw [← (totals_of_group hgroup).kept_iff]
    cases hkept : slot.kept <;> simp [Option.filter, hkept]

/-- The row of a contract holds the sums over its executions in the two windows, and there
    is none exactly where they say nothing. -/
theorem rollup_totals (py : Python) (lifo : String → Option LifoResult) (executions : List AccountExec) (now : ℤ)
    (sessionStartHour : Fin 24) (symbol : String) :
    (∀ slot ∈ (computePnlRollup py executions now sessionStartHour lifo).value symbol,
        slot.Totals now (sessionStart now sessionStartHour) (realizedIn py lifo executions symbol)) ∧
      ((computePnlRollup py executions now sessionStartHour lifo).value symbol = none ↔
        Silent now (sessionStart now sessionStartHour) (realizedIn py lifo executions symbol)) ∧
      sessionStart now sessionStartHour ≤ now ∧ now < sessionStart now sessionStartHour + dayMicros ∧
      sessionStart now sessionStartHour % dayMicros = sessionStartHour * (3600 * 1000000) :=
  ⟨fun _ hslot => totals_of_value hslot, value_eq_none_iff, sessionStart_last now sessionStartHour⟩

/-- The figures of a row. -/
def PnlSlot.figures (slot : PnlSlot) : ℚ × Option ℚ × ℚ × Option ℚ :=
  (slot.pnl24h, slot.pnlSession, slot.ibPnl24h, slot.ibPnlSession)

theorem any_perm {rs rs' : List Realized} (h : rs.Perm rs') (p : Realized → Bool) : rs.any p = rs'.any p := by
  rw [Bool.eq_iff_iff, List.any_eq_true, List.any_eq_true]
  exact exists_congr fun r => and_congr_left fun _ => h.mem_iff

theorem Silent.of_perm {sessStart : ℤ} {rs rs' : List Realized} (h : Silent now sessStart rs) (hperm : rs.Perm rs') :
    Silent now sessStart rs' where
  pnl24h := (total_perm hperm _ _).symm.trans h.pnl24h
  ibPnl24h := (total_perm hperm _ _).symm.trans h.ibPnl24h
  session r hr := h.session r (hperm.mem_iff.mpr hr)

theorem PnlSlot.Totals.figures_eq {sessStart : ℤ} {rs rs' : List Realized} {slot slot' : PnlSlot}
    (h : slot.Totals now sessStart rs) (h' : slot'.Totals now sessStart rs') (hperm : rs.Perm rs') :
    slot.figures = slot'.figures := by
  unfold PnlSlot.figures
  rw [h.pnl24h, h.pnlSession, h.ibPnl24h, h.ibPnlSession, h'.pnl24h, h'.pnlSession, h'.ibPnl24h, h'.ibPnlSession]
  unfold totalWhere
  simp only [total_perm hperm, any_perm hperm]

/-- The order in which IB lists the executions does not matter to the figures. -/
theorem rollup_perm {executions' : List AccountExec} (h : executions.Perm executions') :
    ((computePnlRollup py executions now sessionStartHour lifo).value symbol).map PnlSlot.figures =
      ((computePnlRollup py executions' now sessionStartHour lifo).value symbol).map PnlSlot.figures := by
  have hperm : (realizedIn py lifo executions symbol).Perm (realizedIn py lifo executions' symbol) :=
    (h.filterMap (realizedOf py lifo)).filter _
  cases hvalue : (computePnlRollup py executions now sessionStartHour lifo).value symbol with
  | none =>
    have hnone := value_eq_none_iff.mpr ((value_eq_none_iff.mp hvalue).of_perm hperm)
    rw [hnone]
  | some slot =>
    cases hvalue' : (computePnlRollup py executions' now sessionStartHour lifo).value symbol with
    | none =>
      have hnone := value_eq_none_iff.mpr ((value_eq_none_iff.mp hvalue').of_perm hperm.symm)
      exact absurd (hnone.symm.trans hvalue) (Option.some_ne_none slot).symm
    | some slot' => exact congrArg some ((totals_of_value hvalue).figures_eq (totals_of_value hvalue') hperm)

/-- A close of a future, on the LIFO basis and as IB has it, and one of a stock. -/
def closedToday : List AccountExec :=
  [⟨some "MESM6", some "FUT", some 12, some "a", some (20 * 3600 * 1000000)⟩,
    ⟨some "AAPL", some "STK", some 7, some "b", some (3 * 3600 * 1000000)⟩]

theorem rollup_perm_closed :
    ((computePnlRollup ascii closedToday (21 * 3600 * 1000000) 15 fun _ => none).value "MESM6").map PnlSlot.figures =
      ((computePnlRollup ascii closedToday.reverse (21 * 3600 * 1000000) 15 fun _ => none).value "MESM6").map
        PnlSlot.figures :=
  rollup_perm closedToday.reverse_perm.symm

example : ((computePnlRollup ascii closedToday (21 * 3600 * 1000000) 15 fun _ => none).items.map
    fun entry => (entry.1, entry.2.pnl24h, entry.2.pnlSession)) = [("MESM6", 12, some 12), ("AAPL", 7, none)] := by
  decide +kernel

end Contract

end IbTrader.Engine.PnlRollup
