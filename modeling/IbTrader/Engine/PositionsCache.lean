/-
  IbTrader.Engine.PositionsCache

  The positions that the engine serves from memory (`_handle_position_event` and
  `_refresh_positions_cache` in `ib_trader/engine/main.py`).

  Every report of IB starts a task that replaces the row of its contract, and a refresh
  replaces all rows by what the wrapper holds.  Both wait between what they read and what
  they write, up to five of the first at a time, and nothing orders their writes.  So the
  row of a contract is what IB had said when the last task that wrote it read
  (`positions_follow`), and with the tasks done it is what IB says now in every run in which
  no task is overtaken: writes after one that read later.

  A contract id names one contract, held in one account: a row is replaced by the contract
  alone, whatever its account.  The market price of a row, its texts for the display, and what
  else a report sets off are left out.
-/

import IbTrader.Lib.KeyedList
import IbTrader.Lib.Run
import Mathlib.Algebra.Order.Field.Rat
import Mathlib.Data.List.Induction
import Mathlib.Logic.Function.Basic

namespace IbTrader.Engine

open Lib

-- ============================================================================
-- Reports and rows
-- ============================================================================

structure ContractKey where
  symbol : String
  secType : String
  conId : ℤ
  deriving DecidableEq, Repr

/-- A position as IB reports it. -/
structure Reported where
  account : String
  contract : ContractKey
  /-- What the text of the multiplier reads, none where it is missing or no decimal. -/
  multiplier : Option ℚ
  position : ℚ
  avgCost : ℚ
  deriving DecidableEq, Repr

/-- A row of `positions_cache`. -/
structure PositionRow where
  accountId : String
  contract : ContractKey
  quantity : ℚ
  avgCost : ℚ
  deriving DecidableEq, Repr

/-- The average cost of one unit: that of a future includes the multiplier.  A division by
    zero raises, and leaves the cost as it is. -/
def unitCost (p : Reported) : ℚ :=
  match p.multiplier with
  | some m => if p.contract.secType = "FUT" ∧ m ≠ 0 then p.avgCost / m else p.avgCost
  | none => p.avgCost

def rowOf (p : Reported) : PositionRow where
  accountId := p.account
  contract := p.contract
  quantity := p.position
  avgCost := unitCost p

/-- Where the wrapper keeps a position. -/
def slot (p : Reported) : String × ℤ := (p.account, p.contract.conId)

/-- What the wrapper holds after some reports: a position that is zero is dropped. -/
def held (reports : List Reported) : KeyedList slot :=
  reports.foldl (fun d p => if p.position = 0 then d.filter (slot · ≠ slot p) else d.set p) ∅

-- ============================================================================
-- The tasks
-- ============================================================================

structure Positions where
  /-- What IB has reported. -/
  reports : List Reported := []
  /-- The tasks of reports that are not done, as numbers of their reports, in the order in
      which they came. -/
  handlers : List ℕ := []
  /-- The refreshes that have read and not written, as how much had been reported then. -/
  refreshes : List ℕ := []
  /-- `ctx.positions_cache`. -/
  cache : List PositionRow := []
  /-- How much had been reported when the last task that wrote a contract read. -/
  asOf : ContractKey → ℕ := fun _ => 0

inductive PositionStep
  | report (p : Reported)
  /-- The task writes that is so many behind the oldest that is not done. -/
  | handled (i : ℕ)
  | refreshReads
  | refreshSwaps (i : ℕ)
  deriving DecidableEq, Repr

namespace Positions

/-- The permits of `_position_sem`: they go to the tasks in the order in which they came. -/
def permits : ℕ := 5

/-- The report of a task that holds a permit, and its number. -/
def running (s : Positions) (i : ℕ) : Option (ℕ × Reported) :=
  if i < permits then (s.handlers[i]?).bind fun k => (s.reports[k]?).map (k, ·) else none

def step (s : Positions) : PositionStep → Positions
  | .report p => { s with reports := s.reports ++ [p], handlers := s.handlers ++ [s.reports.length] }
  | .handled i =>
    match s.running i with
    | none => s
    | some (k, p) =>
      let rest := s.cache.filter fun row => row.contract ≠ p.contract
      { s with handlers := s.handlers.eraseIdx i,
               cache := if p.position = 0 then rest else rest ++ [rowOf p],
               asOf := Function.update s.asOf p.contract (k + 1) }
  | .refreshReads => { s with refreshes := s.refreshes ++ [s.reports.length] }
  | .refreshSwaps i =>
    match s.refreshes[i]? with
    | none => s
    | some n =>
      { s with refreshes := s.refreshes.eraseIdx i,
               cache := ((held (s.reports.take n)).items.filter fun p => p.position ≠ 0).map rowOf,
               asOf := fun _ => n }

def run (s : Positions) (steps : List PositionStep) : Positions := steps.foldl step s

/-- The rows of a contract. -/
def rowsOf (s : Positions) (c : ContractKey) : List PositionRow := s.cache.filter fun row => row.contract = c

end Positions

/-- What IB said of a contract last, where that is not that nothing is held. -/
def lastHeld (reports : List Reported) (c : ContractKey) : List Reported :=
  ((reports.filter fun p => p.contract = c).getLast?.filter fun p => p.position ≠ 0).toList

/-- The contract id of the contract names no other, and one account alone holds it. -/
def Named (c : ContractKey) (account : String) (p : Reported) : Prop :=
  p.contract.conId = c.conId → p.contract = c ∧ p.account = account

/-- The reports of a step. -/
def PositionStep.reported : PositionStep → List Reported
  | .report p => [p]
  | .handled _ | .refreshReads | .refreshSwaps _ => []

/-- No task that read later has written the contract before. -/
def NotOvertaken (c : ContractKey) (s : Positions) : PositionStep → Prop
  | .handled i => ∀ task ∈ s.running i, task.2.contract = c → s.asOf c ≤ task.1 + 1
  | .refreshSwaps i => ∀ n ∈ s.refreshes[i]?, s.asOf c ≤ n
  | .report _ | .refreshReads => True

instance (c : ContractKey) (s : Positions) (e : PositionStep) : Decidable (NotOvertaken c s e) :=
  match e with
  | .handled i => inferInstanceAs (Decidable (∀ task ∈ s.running i, _ → _))
  | .refreshSwaps i => inferInstanceAs (Decidable (∀ n ∈ s.refreshes[i]?, _))
  | .report _ | .refreshReads => isTrue trivial

-- ============================================================================
-- What the wrapper holds
-- ============================================================================

section Held

variable {c : ContractKey} {account : String} {reports : List Reported}

theorem get_held (reports : List Reported) (k : String × ℤ) :
    (held reports).get k = (reports.filter fun p => slot p = k).getLast?.filter fun p => p.position ≠ 0 := by
  induction reports using List.reverseRecOn with
  | nil => rfl
  | append_singleton reports p ih =>
    unfold held at ih ⊢
    rw [List.foldl_concat, List.filter_append]
    by_cases hk : slot p = k
    · subst hk
      rw [List.filter_cons_of_pos (by simp), List.filter_nil, List.getLast?_concat]
      split
      case isTrue hzero =>
        rw [KeyedList.get_filter]
        cases hget : KeyedList.get _ (slot p) with
        | none => simp [Option.filter, hzero]
        | some q => simp [Option.filter, hzero, (KeyedList.get_eq_some.mp hget).2]
      case isFalse hne => rw [KeyedList.get_set_self, Option.filter_some, if_pos (by simpa using hne)]
    · rw [List.filter_cons_of_neg (by simpa using hk), List.filter_nil, List.append_nil, ← ih]
      split
      case isTrue =>
        rw [KeyedList.get_filter]
        cases hget : KeyedList.get _ k with
        | none => rfl
        | some q => simp [Option.filter, (KeyedList.get_eq_some.mp hget).2, Ne.symm hk]
      case isFalse => rw [KeyedList.get_set_ne (Ne.symm hk)]

theorem mem_held {p : Reported} (h : p ∈ (held reports).items) : p ∈ reports := by
  have hget := (KeyedList.get_eq_some (k := slot p)).mpr ⟨h, rfl⟩
  rw [get_held, Option.filter_eq_some_iff] at hget
  exact List.mem_of_mem_filter (List.mem_of_getLast? hget.1)

theorem contract_iff_slot {p : Reported} (h : Named c account p) : p.contract = c ↔ slot p = (account, c.conId) := by
  constructor
  · intro hc
    have hconId := congrArg ContractKey.conId hc
    exact Prod.ext (h hconId).2 hconId
  · intro hslot
    exact (h (congrArg Prod.snd hslot)).1

/-- The row of a contract after a refresh. -/
theorem rows_held (h : ∀ p ∈ reports, Named c account p) :
    (((held reports).items.filter fun p => p.position ≠ 0).map rowOf).filter (fun row => row.contract = c) =
      (lastHeld reports c).map rowOf := by
  have hreports : (reports.filter fun p => p.contract = c) = reports.filter fun p => slot p = (account, c.conId) :=
    List.filter_congr fun p hp => decide_eq_decide.mpr (contract_iff_slot (h p hp))
  have hitems : ((held reports).items.filter fun p => p.contract = c) =
      (held reports).items.filter fun p => slot p = (account, c.conId) :=
    List.filter_congr fun p hp => decide_eq_decide.mpr (contract_iff_slot (h p (mem_held hp)))
  have hcomm : (((held reports).items.filter fun p => p.position ≠ 0).map rowOf).filter (fun row => row.contract = c) =
      (((held reports).items.filter fun p => p.contract = c).filter fun p => p.position ≠ 0).map rowOf := by
    rw [List.filter_map, List.filter_comm]
    rfl
  rw [hcomm, hitems, KeyedList.filter_key, get_held, lastHeld, hreports]
  congr 1
  cases (reports.filter fun p => slot p = (account, c.conId)).getLast? with
  | none => rfl
  | some p => by_cases hp : p.position = 0 <;> simp [Option.filter, hp]

theorem lastHeld_concat (reports : List Reported) (p : Reported) :
    lastHeld (reports ++ [p]) p.contract = if p.position = 0 then [] else [p] := by
  unfold lastHeld
  rw [List.filter_append, List.filter_cons_of_pos (by simp), List.filter_nil, List.getLast?_concat]
  split
  case isTrue hzero => simp [Option.filter, hzero]
  case isFalse hne => simp [Option.filter, hne]

/-- Reports of other contracts say nothing of this one. -/
theorem lastHeld_append {later : List Reported} (h : ∀ p ∈ later, p.contract ≠ c) :
    lastHeld (reports ++ later) c = lastHeld reports c := by
  have hlater : (later.filter fun p => p.contract = c) = [] :=
    List.filter_eq_nil_iff.mpr fun p hp hc => h p hp (of_decide_eq_true hc)
  unfold lastHeld
  rw [List.filter_append, hlater, List.append_nil]

end Held

-- ============================================================================
-- Whatever writes when
-- ============================================================================

/-- The row of a contract is what IB had said when the last task that wrote it read. -/
structure FollowsReports (c : ContractKey) (account : String) (s : Positions) : Prop where
  rows : s.rowsOf c = (lastHeld (s.reports.take (s.asOf c)) c).map rowOf
  asOf_le : s.asOf c ≤ s.reports.length
  refreshes_le : ∀ n ∈ s.refreshes, n ≤ s.reports.length
  named : ∀ p ∈ s.reports, Named c account p

section Steps

variable {c : ContractKey} {account : String} {s : Positions}

theorem running_eq_some {i : ℕ} {task : ℕ × Reported} (h : s.running i = some task) :
    s.handlers[i]? = some task.1 ∧ s.reports[task.1]? = some task.2 := by
  unfold Positions.running at h
  split at h
  case isFalse => cases h
  case isTrue =>
    obtain ⟨k, hk, hmap⟩ := Option.bind_eq_some_iff.mp h
    obtain ⟨p, hp, rfl⟩ := Option.map_eq_some_iff.mp hmap
    exact ⟨hk, hp⟩

theorem take_succ_eq {reports : List Reported} {k : ℕ} {p : Reported} (h : reports[k]? = some p) :
    reports.take (k + 1) = reports.take k ++ [p] := by
  rw [List.take_add_one, h]
  rfl

theorem follows_step (h : FollowsReports c account s) (e : PositionStep) (hnamed : ∀ p ∈ e.reported, Named c account p) :
    FollowsReports c account (s.step e) := by
  cases e with
  | report p =>
    refine ⟨?_, ?_, fun n hn => ?_, fun q hq => ?_⟩
    · show s.rowsOf c = (lastHeld ((s.reports ++ [p]).take (s.asOf c)) c).map rowOf
      rw [List.take_append_of_le_length h.asOf_le, h.rows]
    · exact h.asOf_le.trans (by simp [Positions.step])
    · exact (h.refreshes_le n hn).trans (by simp [Positions.step])
    · rcases List.mem_append.mp hq with hq | hq
      · exact h.named q hq
      · exact hnamed q hq
  | handled i =>
    cases htask : s.running i with
    | none =>
      simp only [Positions.step, htask]
      exact h
    | some task =>
      obtain ⟨k, p⟩ := task
      obtain ⟨-, hreport⟩ := running_eq_some htask
      have hk : k < s.reports.length := (List.getElem?_eq_some_iff.mp hreport).1
      simp only [Positions.step, htask]
      by_cases hc : p.contract = c
      · subst hc
        refine ⟨?_, ?_, h.refreshes_le, h.named⟩
        · have hrest : (s.cache.filter fun row => row.contract ≠ p.contract).filter (fun row => row.contract = p.contract) = [] :=
            List.filter_eq_nil_iff.mpr fun row hrow hkey =>
              of_decide_eq_true (List.mem_filter.mp hrow).2 (of_decide_eq_true hkey)
          simp only [Positions.rowsOf, Function.update_self, take_succ_eq hreport, lastHeld_concat]
          split
          · rw [hrest, List.map_nil]
          · rw [List.filter_append, hrest]
            simp [rowOf]
        · simpa using Nat.succ_le_of_lt hk
      · have hkeep : (s.cache.filter fun row => row.contract ≠ p.contract).filter (fun row => row.contract = c) =
            s.cache.filter fun row => row.contract = c := by
          rw [List.filter_filter]
          refine List.filter_congr fun row _ => ?_
          by_cases hrow : row.contract = c
          · simp [hrow, Ne.symm hc]
          · simp [hrow]
        refine ⟨?_, ?_, h.refreshes_le, h.named⟩
        · simp only [Positions.rowsOf, Function.update_of_ne (Ne.symm hc)]
          rw [← h.rows, Positions.rowsOf]
          split
          · exact hkeep
          · rw [List.filter_append, hkeep]
            simp [rowOf, hc]
        · simpa only [Function.update_of_ne (Ne.symm hc)] using h.asOf_le
  | refreshReads =>
    refine ⟨h.rows, h.asOf_le, fun n hn => ?_, h.named⟩
    rcases List.mem_append.mp hn with hn | hn
    · exact h.refreshes_le n hn
    · exact (List.mem_singleton.mp hn).le
  | refreshSwaps i =>
    cases hn : s.refreshes[i]? with
    | none =>
      simp only [Positions.step, hn]
      exact h
    | some n =>
      simp only [Positions.step, hn]
      refine ⟨?_, ?_, fun m hm => h.refreshes_le m (List.mem_of_mem_eraseIdx hm), h.named⟩
      · exact rows_held fun p hp => h.named p (List.mem_of_mem_take hp)
      · exact h.refreshes_le n (List.mem_of_getElem? hn)

/-- Every report of the contract has been read by a task that wrote it, or its own task is to come. -/
structure Caught (c : ContractKey) (s : Positions) : Prop where
  pending : ∀ k p, s.reports[k]? = some p → p.contract = c → k < s.asOf c ∨ k ∈ s.handlers
  handlers_lt : ∀ k ∈ s.handlers, k < s.reports.length
  nodup : s.handlers.Nodup

theorem caught_step (h : Caught c s) (e : PositionStep) (hstep : NotOvertaken c s e) : Caught c (s.step e) := by
  cases e with
  | report p =>
    refine ⟨fun k q hq hc => ?_, fun k hk => ?_, ?_⟩
    · rcases lt_trichotomy k s.reports.length with hlt | rfl | hgt
      · have hold : s.reports[k]? = some q := by
          rw [← hq]
          exact (List.getElem?_append_left hlt).symm
        exact (h.pending k q hold hc).imp_right fun hmem => List.mem_append_left _ hmem
      · exact .inr (List.mem_append_right _ (List.mem_singleton_self _))
      · have hnone : (s.reports ++ [p])[k]? = none := List.getElem?_eq_none (by simpa using Nat.succ_le_of_lt hgt)
        cases hnone.symm.trans hq
    · show k < (s.reports ++ [p]).length
      rw [List.length_append, List.length_singleton]
      rcases List.mem_append.mp hk with hk | hk
      · exact Nat.lt_succ_of_lt (h.handlers_lt k hk)
      · exact Nat.lt_succ_of_le (List.mem_singleton.mp hk).le
    · refine List.nodup_append.mpr ⟨h.nodup, List.nodup_singleton _, fun k hk k' hk' => ?_⟩
      rw [List.mem_singleton.mp hk']
      exact (h.handlers_lt k hk).ne
  | handled i =>
    cases htask : s.running i with
    | none =>
      simp only [Positions.step, htask]
      exact h
    | some task =>
      obtain ⟨k, p⟩ := task
      obtain ⟨hhandler, hreport⟩ := running_eq_some htask
      have hstays {k' : ℕ} (hmem : k' ∈ s.handlers) (hne : k' ≠ k) : k' ∈ s.handlers.eraseIdx i := by
        obtain ⟨j, hj⟩ := List.mem_iff_getElem?.mp hmem
        refine List.mem_eraseIdx_iff_getElem?.mpr ⟨j, fun hij => hne ?_, hj⟩
        rw [hij, hhandler] at hj
        exact (Option.some.inj hj).symm
      simp only [Positions.step, htask]
      refine ⟨fun k' q hq hc => ?_, fun k' hk' => h.handlers_lt k' (List.mem_of_mem_eraseIdx hk'),
        h.nodup.sublist (List.eraseIdx_sublist _ _)⟩
      dsimp only at hq ⊢
      by_cases hp : p.contract = c
      · have hle : s.asOf c ≤ k + 1 := hstep (k, p) htask hp
        rw [← hp, Function.update_self]
        by_cases hkk : k' = k
        · exact .inl (hkk ▸ Nat.lt_succ_self k)
        · exact (h.pending k' q hq hc).imp (fun hlt => hlt.trans_le hle) fun hmem => hstays hmem hkk
      · rw [Function.update_of_ne (Ne.symm hp)]
        refine (h.pending k' q hq hc).imp_right fun hmem => hstays hmem ?_
        rintro rfl
        have hqp : q = p := Option.some.inj (hq.symm.trans hreport)
        exact hp (hqp ▸ hc)
  | refreshReads => exact ⟨h.pending, h.handlers_lt, h.nodup⟩
  | refreshSwaps i =>
    cases hn : s.refreshes[i]? with
    | none =>
      simp only [Positions.step, hn]
      exact h
    | some n =>
      simp only [Positions.step, hn]
      refine ⟨fun k q hq hc => ?_, h.handlers_lt, h.nodup⟩
      exact (h.pending k q hq hc).imp_left fun hlt => hlt.trans_le (hstep n hn)

end Steps

-- ============================================================================
-- Runs
-- ============================================================================

/-- The row of a contract is what IB had said when the last task that wrote it read, which
    is what IB says now unless it has spoken since.  With its tasks done the row is what IB
    says now in every run in which no task that read later wrote it before. -/
theorem positions_follow (c : ContractKey) (account : String) (steps : List PositionStep)
    (hnamed : ∀ e ∈ steps, ∀ p ∈ e.reported, Named c account p) :
    (Positions.run {} steps).rowsOf c =
        (lastHeld ((Positions.run {} steps).reports.take ((Positions.run {} steps).asOf c)) c).map rowOf ∧
      ((∀ p ∈ (Positions.run {} steps).reports.drop ((Positions.run {} steps).asOf c), p.contract ≠ c) →
        (Positions.run {} steps).rowsOf c = (lastHeld (Positions.run {} steps).reports c).map rowOf) ∧
      (Along Positions.step (NotOvertaken c) {} steps →
        (∀ k ∈ (Positions.run {} steps).handlers, ∀ p ∈ (Positions.run {} steps).reports[k]?, p.contract ≠ c) →
          (Positions.run {} steps).rowsOf c = (lastHeld (Positions.run {} steps).reports c).map rowOf) := by
  have hfollows : FollowsReports c account (Positions.run {} steps) := by
    refine Along.invariant (I := FollowsReports c account) (fun s e h hnamed => follows_step h e hnamed) steps
      ⟨rfl, le_rfl, fun n hn => absurd hn List.not_mem_nil, fun p hp => absurd hp List.not_mem_nil⟩ ?_
    exact Along.of_forall (R := fun e => ∀ p ∈ e.reported, Named c account p) steps hnamed
  have hquiet : (∀ p ∈ (Positions.run {} steps).reports.drop ((Positions.run {} steps).asOf c), p.contract ≠ c) →
      (Positions.run {} steps).rowsOf c = (lastHeld (Positions.run {} steps).reports c).map rowOf := by
    intro hsince
    rw [hfollows.rows, ← lastHeld_append hsince, List.take_append_drop]
  refine ⟨hfollows.rows, hquiet, fun halong hdone => hquiet fun p hp hc => ?_⟩
  have hcaught : Caught c (Positions.run {} steps) :=
    Along.invariant (I := Caught c) (fun s e h hstep => caught_step h e hstep) steps
      ⟨fun k p hp => absurd hp (by simp), fun k hk => absurd hk List.not_mem_nil, List.nodup_nil⟩ halong
  obtain ⟨j, hj⟩ := List.mem_iff_getElem?.mp hp
  rw [List.getElem?_drop] at hj
  rcases hcaught.pending _ p hj hc with hlt | hmem
  · exact absurd hlt (by omega)
  · exact hdone _ hmem p hj hc

section Example

def qqq : ContractKey := { symbol := "QQQ", secType := "STK", conId := 320227571 }

def bought : Reported := { account := "U1", contract := qqq, multiplier := none, position := 100, avgCost := 480 }

def sold : Reported := { bought with position := 0 }

/-- A refresh that reads before a position is closed and writes before the close is handled. -/
theorem positions_follow_closed :
    (Positions.run {} [.report bought, .refreshReads, .report sold, .handled 0, .refreshSwaps 0, .handled 0]).rowsOf qqq = [] :=
  (positions_follow qqq "U1" [.report bought, .refreshReads, .report sold, .handled 0, .refreshSwaps 0, .handled 0]
    (by unfold Named; decide)).2.2 (by decide) (by decide)

/-- One that writes after it leaves the closed position there. -/
example : (Positions.run {} [.report bought, .refreshReads, .report sold, .handled 0, .handled 0, .refreshSwaps 0]).rowsOf qqq =
    [rowOf bought] := by decide

end Example

end IbTrader.Engine
