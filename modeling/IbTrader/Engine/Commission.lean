/-
  IbTrader.Engine.Commission

  How the commission of one order gets into its FILLED / PARTIAL_FILL rows.

  It takes two routes.  The coroutine that executes the order reads a commission
  when the fill is in, by the rule of its path (`SeedRule`), raises it after the
  cancel of a partial (`settleStatus`) and writes the row with it.  Independently
  every commission report starts an `on_commission` callback that adds its amount
  to the rows there are, trying again for a while when there are none.

  A report that is in the seed of the row and has a callback still trying is
  counted twice; one that is in neither is lost.  The row has to carry what has
  been given up before it was there, and nothing else (`uncovered`).
-/

import Mathlib.Algebra.BigOperators.Group.List.Basic
import Mathlib.Algebra.Order.Ring.Rat
import Mathlib.Tactic.Linarith
import Mathlib.Tactic.Ring
import IbTrader.Lib.Run

namespace IbTrader.Engine.Commission

open Lib

-- ============================================================================
-- The order
-- ============================================================================

/-- An `on_commission` callback in flight. -/
structure Callback where
  commission : ℚ
  attemptsLeft : ℕ
  deriving DecidableEq, Repr

/-- The length of `[0.0, *delays]`. -/
def attempts : ℕ := 7

/-- Which commission a coroutine takes when it reads the status of its order. -/
inductive SeedRule where
  /-- `_execute_market_order`, `_execute_bid_ask_order` and `execute_close`: what the
      fill callbacks add up to, if that is positive. -/
  | summed
  /-- `_execute_mid_order` and `_execute_smart_market_order`: that of the last fill
      callback, if there was one. -/
  | last
  /-- Limit and stop orders, `_cancel_and_await_resolution` and what reads its answer:
      that of the status. -/
  | status
  deriving DecidableEq, Repr

/-- What the engine and the client hold about one order. -/
structure OrderCommission where
  /-- `_fill_commission` of a fill callback that adds up, and of one that overwrites. -/
  fillCommission : ℚ := 0
  lastCommission : Option ℚ := none
  /-- The reports on `trade.fills`, by execution id. -/
  reports : List (String × ℚ) := []
  /-- The callbacks of the order, which its lock runs one after the other. -/
  callbacks : List Callback := []
  /-- The commissions of the COMMISSION_UNMATCHED warnings. -/
  unmatched : List ℚ := []
  /-- The `commission` local of the order's coroutine. -/
  seed : ℚ := 0
  /-- The `commission` column of the order's FILLED / PARTIAL_FILL rows. -/
  rows : List ℚ := []
  deriving DecidableEq, Repr

/-- Sum of the commissions reported so far. -/
def reported (s : OrderCommission) : ℚ := (s.reports.map Prod.snd).sum

/-- Sum of the commissions whose callback is still trying. -/
def pending (s : OrderCommission) : ℚ := (s.callbacks.map Callback.commission).sum

/-- `_on_exec_details` and the order's `on_fill`. -/
def execDetails (s : OrderCommission) (commission : ℚ) : OrderCommission :=
  { s with
    fillCommission := s.fillCommission + commission
    lastCommission := some commission }

/-- `_on_commission_report`: a report seen before is dropped, a new one starts
    `on_commission`, which returns at once when there is nothing to add. -/
def commissionReport (s : OrderCommission) (execId : String) (commission : ℚ) :
    OrderCommission :=
  if execId ≠ "" ∧ execId ∈ s.reports.map Prod.fst then s
  else
    let s := { s with reports := s.reports ++ [(execId, commission)] }
    if commission = 0 then s
    else { s with callbacks := s.callbacks ++ [{ commission := commission, attemptsLeft := attempts }] }

/-- `add_commission`: every filled row of the order gets the delta. -/
def addCommission (rows : List ℚ) (delta : ℚ) : List ℚ := rows.map (· + delta)

/-- One attempt of the callback that holds the order's lock. -/
def attempt (s : OrderCommission) : OrderCommission :=
  match s.callbacks with
  | [] => s
  | c :: rest =>
    if s.rows = [] then
      -- no row updated: try again, or give up with COMMISSION_UNMATCHED
      if c.attemptsLeft ≤ 1 then
        { s with callbacks := rest, unmatched := s.unmatched ++ [c.commission] }
      else { s with callbacks := { c with attemptsLeft := c.attemptsLeft - 1 } :: rest }
    else { s with callbacks := rest, rows := addCommission s.rows c.commission }

/-- The commission read once the order has filled.  `get_order_status` adds up the
    reports it has. -/
def readStatus (s : OrderCommission) (rule : SeedRule) : OrderCommission :=
  { s with
    seed := match rule with
      | .summed => if 0 < s.fillCommission then s.fillCommission else reported s
      | .last => s.lastCommission.getD (reported s)
      | .status => reported s }

/-- A mid order that is filled while it settles takes the status, and keeps it as if
    a fill callback had brought it. -/
def readPresubmitted (s : OrderCommission) : OrderCommission :=
  { s with lastCommission := some (reported s), seed := reported s }

/-- `execute_close` reads once more when the status had no fill yet. -/
def readAgain (s : OrderCommission) : OrderCommission :=
  if s.seed = 0 then readStatus s .summed else s

/-- The commission after the cancel of a partial: the larger of the two. -/
def settle (s : OrderCommission) (commission : ℚ) : OrderCommission :=
  { s with seed := if s.seed < commission then commission else s.seed }

/-- It is read from the status of the order that was cancelled. -/
def settleStatus (s : OrderCommission) : OrderCommission := settle s (reported s)

/-- The commission of another order that goes into the same row: of the two orders of
    a smart market order only one has a row. -/
def addOther (s : OrderCommission) (commission : ℚ) : OrderCommission :=
  { s with seed := s.seed + commission }

/-- `_handle_fill`, `_handle_partial` and their like for a close write the row. -/
def writeRow (s : OrderCommission) : OrderCommission := { s with rows := s.rows ++ [s.seed] }

/-- `handle_autonomous_close_fill`, from the fill callback of a profit taker or a stop
    loss, writes a row unless there is one. -/
def autonomousFill (s : OrderCommission) (commission : ℚ) : OrderCommission :=
  if s.rows = [] then { s with rows := [commission] } else s

/-- What can happen to the order. -/
inductive Event where
  | execDetails (commission : ℚ)
  | commissionReport (execId : String) (commission : ℚ)
  | attempt
  | readStatus (rule : SeedRule)
  | readPresubmitted
  | readAgain
  | settleStatus
  | addOther (commission : ℚ)
  /-- The order cancelled was the other one. -/
  | settleOther (commission : ℚ)
  | writeRow
  | autonomousFill (commission : ℚ)
  deriving DecidableEq, Repr

/-- One event. -/
def step (s : OrderCommission) : Event → OrderCommission
  | .execDetails c => execDetails s c
  | .commissionReport execId c => commissionReport s execId c
  | .attempt => attempt s
  | .readStatus rule => readStatus s rule
  | .readPresubmitted => readPresubmitted s
  | .readAgain => readAgain s
  | .settleStatus => settleStatus s
  | .addOther c => addOther s c
  | .settleOther c => settle s c
  | .writeRow => writeRow s
  | .autonomousFill c => autonomousFill s c

/-- A run of an order that has just been placed. -/
def run (events : List Event) : OrderCommission := events.foldl step {}

-- ============================================================================
-- Conservation
-- ============================================================================

/-- Once the order has a row, its rows carry what has been reported and is not
    pending. -/
def Balanced (s : OrderCommission) : Prop :=
  s.rows ≠ [] → s.rows.sum + pending s = reported s

/-- What a new row has to carry: the reports that were given up while there was no row
    to add them to. -/
def uncovered (s : OrderCommission) : ℚ := if s.rows = [] then s.unmatched.sum else 0

/-- When a step keeps the balance.  The first row is written with the commission of
    the reports that have been given up, a further one without any; a callback finds
    no more than one row. -/
def Settled (s : OrderCommission) : Event → Prop
  | .writeRow => s.seed = uncovered s
  | .autonomousFill c => s.rows = [] → c = uncovered s
  | .attempt => s.callbacks = [] ∨ s.rows.length ≤ 1
  | _ => True

instance (s : OrderCommission) (e : Event) : Decidable (Settled s e) := by
  cases e <;> unfold Settled <;> infer_instance

/-- A new report adds as much to what is pending as to what is reported. -/
theorem commissionReport_balance (s : OrderCommission) (execId : String) (commission : ℚ) :
    (commissionReport s execId commission).rows = s.rows ∧
      (commissionReport s execId commission).unmatched = s.unmatched ∧
      reported (commissionReport s execId commission) - pending (commissionReport s execId commission) =
        reported s - pending s := by
  unfold commissionReport
  split
  · exact ⟨rfl, rfl, rfl⟩
  · dsimp only
    split
    case isTrue hzero =>
      refine ⟨rfl, rfl, ?_⟩
      simp [reported, pending, hzero]
    case isFalse =>
      refine ⟨rfl, rfl, ?_⟩
      simp only [reported, pending, List.map_append, List.map_cons, List.map_nil,
        List.sum_append, List.sum_cons, List.sum_nil]
      ring

theorem addCommission_sum (rows : List ℚ) (delta : ℚ) :
    (addCommission rows delta).sum = rows.sum + rows.length * delta := by
  induction rows with
  | nil => simp [addCommission]
  | cons row rows ih =>
    rw [addCommission] at ih ⊢
    rw [List.map_cons, List.sum_cons, ih, List.sum_cons, List.length_cons]
    push_cast
    ring

/-- Reading again changes the local only. -/
theorem readAgain_eq (s : OrderCommission) :
    readAgain s = { s with seed := (readAgain s).seed } := by
  unfold readAgain
  split <;> rfl

/-- An attempt without a callback to run. -/
theorem attempt_of_done {s : OrderCommission} (hc : s.callbacks = []) : attempt s = s := by
  rw [attempt, hc]

/-- An attempt that finds no row writes none: what is no longer pending is unmatched. -/
theorem attempt_of_no_rows {s : OrderCommission} (hrows : s.rows = []) :
    (attempt s).rows = [] ∧ reported (attempt s) = reported s ∧
      pending (attempt s) + (attempt s).unmatched.sum = pending s + s.unmatched.sum := by
  cases hc : s.callbacks with
  | nil =>
    rw [attempt_of_done hc]
    exact ⟨hrows, rfl, rfl⟩
  | cons c rest =>
    unfold attempt
    rw [hc]
    dsimp only
    rw [if_pos hrows]
    split
    · refine ⟨hrows, rfl, ?_⟩
      simp only [pending, hc, List.map_cons, List.sum_cons, List.sum_append, List.sum_nil]
      ring
    · refine ⟨hrows, rfl, ?_⟩
      simp only [pending, hc, List.map_cons, List.sum_cons]

/-- An attempt that finds rows adds its commission to each of them and is done. -/
theorem attempt_of_rows {s : OrderCommission} {c : Callback} {rest : List Callback}
    (hc : s.callbacks = c :: rest) (hrows : s.rows ≠ []) :
    attempt s = { s with callbacks := rest, rows := addCommission s.rows c.commission } := by
  unfold attempt
  rw [hc]
  dsimp only
  rw [if_neg hrows]

/-- It moves one commission from what is pending to the rows, and adds one more for
    every further row. -/
theorem attempt_sum {s : OrderCommission} {c : Callback} {rest : List Callback}
    (hc : s.callbacks = c :: rest) (hrows : s.rows ≠ []) :
    (attempt s).rows.sum + pending (attempt s) =
      s.rows.sum + pending s + ((s.rows.length : ℚ) - 1) * c.commission := by
  rw [attempt_of_rows hc hrows]
  simp only [pending, hc, List.map_cons, List.sum_cons, addCommission_sum]
  ring

/-- What every run keeps: a callback in flight has something to add, and while there
    is no row a report is pending or has been given up. -/
structure Traced (s : OrderCommission) : Prop where
  nonzero : ∀ c ∈ s.callbacks, c.commission ≠ 0
  noRow : s.rows = [] → reported s = pending s + s.unmatched.sum

theorem Traced.commissionReport {s : OrderCommission} (h : Traced s) (execId : String)
    (commission : ℚ) : Traced (commissionReport s execId commission) := by
  refine ⟨?_, fun hrows => ?_⟩
  · unfold Commission.commissionReport
    split
    · exact h.nonzero
    · dsimp only
      split
      · exact h.nonzero
      case isFalse hne =>
        intro cb hcb
        rcases List.mem_append.mp hcb with hcb | hcb
        · exact h.nonzero cb hcb
        · rw [List.mem_singleton.mp hcb]
          exact hne
  · obtain ⟨hsame, hunmatched, hbalance⟩ := commissionReport_balance s execId commission
    have hbefore := h.noRow (hsame ▸ hrows)
    rw [hunmatched]
    linarith

theorem Traced.attempt {s : OrderCommission} (h : Traced s) : Traced (attempt s) := by
  by_cases hrows : s.rows = []
  · obtain ⟨hnone, hreported, hsum⟩ := attempt_of_no_rows hrows
    refine ⟨?_, fun _ => by rw [hreported, hsum, h.noRow hrows]⟩
    unfold Commission.attempt
    cases hc : s.callbacks with
    | nil => exact h.nonzero
    | cons c rest =>
      have hrest : ∀ cb ∈ rest, cb.commission ≠ 0 :=
        fun cb hcb => h.nonzero cb (hc ▸ List.mem_cons_of_mem c hcb)
      dsimp only
      rw [if_pos hrows]
      split
      · exact hrest
      · intro cb hcb
        rcases List.mem_cons.mp hcb with rfl | hcb
        · exact h.nonzero c (hc ▸ List.mem_cons_self)
        · exact hrest cb hcb
  · cases hc : s.callbacks with
    | nil =>
      rw [attempt_of_done hc]
      exact h
    | cons c rest =>
      rw [attempt_of_rows hc hrows]
      refine ⟨fun cb hcb => h.nonzero cb (hc ▸ List.mem_cons_of_mem c hcb), fun hnone => ?_⟩
      exact absurd (List.map_eq_nil_iff.mp hnone) hrows

theorem Traced.step {s : OrderCommission} (h : Traced s) (e : Event) : Traced (step s e) := by
  cases e with
  | execDetails c | readStatus rule | readPresubmitted | settleStatus | addOther c | settleOther c =>
    exact ⟨h.nonzero, h.noRow⟩
  | readAgain =>
    show Traced (readAgain s)
    rw [readAgain_eq]
    exact ⟨h.nonzero, h.noRow⟩
  | commissionReport execId c => exact h.commissionReport execId c
  | attempt => exact h.attempt
  | writeRow => exact ⟨h.nonzero, fun hnone => absurd hnone (List.concat_ne_nil _ _)⟩
  | autonomousFill c =>
    show Traced (autonomousFill s c)
    unfold autonomousFill
    split
    · exact ⟨h.nonzero, fun hnone => absurd hnone (List.cons_ne_nil _ _)⟩
    · exact h

/-- With a row of `uncovered` the balance is kept. -/
theorem Traced.uncovered_eq {s : OrderCommission} (h : Traced s) (hbal : Balanced s) :
    s.rows.sum + uncovered s + pending s = reported s := by
  unfold uncovered
  split
  case isTrue hrows =>
    rw [hrows, List.sum_nil, zero_add, h.noRow hrows, add_comm]
  case isFalse hrows => rw [add_zero, hbal hrows]

/-- An attempt keeps the balance exactly when it finds no more than one row. -/
theorem attempt_balanced_iff {s : OrderCommission} (hne : ∀ c ∈ s.callbacks, c.commission ≠ 0)
    (h : Balanced s) :
    Balanced (attempt s) ↔ s.callbacks = [] ∨ s.rows.length ≤ 1 := by
  by_cases hrows : s.rows = []
  · refine ⟨fun _ => .inr (by rw [hrows]; exact Nat.zero_le 1), fun _ hsome => ?_⟩
    exact absurd (attempt_of_no_rows hrows).1 hsome
  cases hc : s.callbacks with
  | nil =>
    rw [attempt_of_done hc]
    exact ⟨fun _ => .inl rfl, fun _ => h⟩
  | cons c rest =>
    have hc0 : c.commission ≠ 0 := hne c (hc ▸ List.mem_cons_self)
    have hlen : 1 ≤ s.rows.length := List.length_pos_iff.mpr hrows
    have hadded : (attempt s).rows ≠ [] := by
      rw [attempt_of_rows hc hrows]
      simpa [addCommission] using hrows
    have hreported : reported (attempt s) = reported s := by rw [attempt_of_rows hc hrows]; rfl
    have hexcess : Balanced (attempt s) ↔ ((s.rows.length : ℚ) - 1) * c.commission = 0 := by
      rw [Balanced, attempt_sum hc hrows, hreported, h hrows, add_eq_left]
      exact ⟨fun hbal => hbal hadded, fun hzero _ => hzero⟩
    rw [hexcess, mul_eq_zero, or_iff_left hc0, sub_eq_zero]
    constructor
    · intro hone
      have hcast : s.rows.length = 1 := by exact_mod_cast hone
      exact .inr hcast.le
    · rintro (hnil | hle)
      · cases hnil
      · have hone : s.rows.length = 1 := by omega
        rw [hone, Nat.cast_one]

/-- A row that is written keeps the balance exactly when it carries `uncovered`. -/
theorem balanced_row_iff {s s' : OrderCommission} (hs : Traced s) (h : Balanced s) (row : ℚ)
    (hrows : s'.rows = s.rows ++ [row]) (hpending : pending s' = pending s)
    (hreported : reported s' = reported s) : Balanced s' ↔ row = uncovered s := by
  have hcovered := hs.uncovered_eq h
  have hwritten : s'.rows ≠ [] := hrows ▸ List.concat_ne_nil _ _
  have hsum : s'.rows.sum = s.rows.sum + row := by rw [hrows]; simp
  rw [Balanced, imp_iff_right hwritten, hsum, hpending, hreported]
  constructor
  · intro hafter
    linarith
  · rintro rfl
    exact hcovered

/-- A step keeps the balance exactly when it is settled. -/
theorem balanced_step_iff {s : OrderCommission} (hs : Traced s) (h : Balanced s) (e : Event) :
    Balanced (step s e) ↔ Settled s e := by
  cases e with
  | execDetails c | readStatus rule | readPresubmitted | settleStatus | addOther c | settleOther c =>
    exact ⟨fun _ => trivial, fun _ => h⟩
  | readAgain =>
    show Balanced (readAgain s) ↔ _
    rw [readAgain_eq]
    exact ⟨fun _ => trivial, fun _ => h⟩
  | commissionReport execId c =>
    refine ⟨fun _ => trivial, fun _ hrows => ?_⟩
    obtain ⟨hsame, -, hbalance⟩ := commissionReport_balance s execId c
    have hbal := h (hsame ▸ hrows)
    show (commissionReport s execId c).rows.sum + pending (commissionReport s execId c) =
      reported (commissionReport s execId c)
    rw [hsame]
    linarith
  | attempt => exact attempt_balanced_iff hs.nonzero h
  | writeRow => exact balanced_row_iff hs h s.seed rfl rfl rfl
  | autonomousFill c =>
    show Balanced (autonomousFill s c) ↔ (s.rows = [] → c = uncovered s)
    unfold autonomousFill
    split
    case isTrue hrows =>
      rw [imp_iff_right hrows]
      refine balanced_row_iff hs h c ?_ rfl rfl
      rw [hrows, List.nil_append]
    case isFalse hrows => exact ⟨fun _ hnone => absurd hnone hrows, fun _ => h⟩

/-- Commission is conserved in every run of settled steps: once the order has a
    row and no callback is trying, its rows carry what was reported. -/
theorem commission_conserved {events : List Event} (h : Along step Settled {} events)
    (hrow : (run events).rows ≠ []) (hdone : (run events).callbacks = []) :
    (run events).rows.sum = reported (run events) := by
  have hinv : Traced (run events) ∧ Balanced (run events) := by
    refine Along.invariant (I := fun s => Traced s ∧ Balanced s) ?_ events ?_ h
    · intro s e hs he
      exact ⟨hs.1.step e, (balanced_step_iff hs.1 hs.2 e).mpr he⟩
    · refine ⟨⟨fun c hc => absurd hc List.not_mem_nil, fun _ => ?_⟩, ?_⟩
      · simp [reported, pending]
      · exact fun hrows => absurd rfl hrows
  have hpending : pending (run events) = 0 := by simp [pending, hdone]
  have hbalance := hinv.2 hrow
  rw [hpending, add_zero] at hbalance
  exact hbalance

/-- One report whose callback gives up before the row is written, and one that
    arrives between the status read and the row. -/
def reportsAroundRow : List Event :=
  [.execDetails 0, .commissionReport "e1" 1, .attempt, .attempt, .attempt, .attempt, .attempt,
    .attempt, .attempt, .readStatus .summed, .commissionReport "e2" 2, .attempt, .writeRow, .attempt]

theorem commission_conserved_around :
    (run reportsAroundRow).rows.sum = reported (run reportsAroundRow) :=
  commission_conserved (by decide +kernel) (by decide +kernel) (by decide +kernel)

/-- Commission is not always conserved: a report that is in the status when the
    row is written and whose callback is still trying is counted twice. -/
theorem commission_conserved_fails :
    ¬∀ events : List Event, (run events).rows ≠ [] → (run events).callbacks = [] →
      (run events).rows.sum = reported (run events) := by
  intro hall
  have h := hall
    [.execDetails 0, .commissionReport "e1" 2, .attempt, .readStatus .summed, .writeRow, .attempt]
    (by decide +kernel) (by decide +kernel)
  exact absurd h (by decide +kernel)

end IbTrader.Engine.Commission
