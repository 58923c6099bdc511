/-
  IbTrader.Engine.Recovery

  Crash recovery of trade groups at startup (`ib_trader/engine/recovery.py`).

  Both passes read the OPEN groups once and close some of them, each by its own rows;
  over groups with distinct ids that is one update of each (`closeAll_groups`), and a
  second pass finds none of them open (`closeAll_again`).  What the passes look at is
  not whether a trade ever filled: `recoverInFlightOrders` asks for a placement
  nothing confirms, `closeOrphanedTradeGroups` for the last row of each order, which
  hides a fill that a later row follows.  They keep their hands off trades with fills
  exactly when neither test is met by one (`recovery_sound_iff`).
-/

import IbTrader.Data.Ledger

namespace IbTrader.Engine.Recovery

open Data Lib

-- ============================================================================
-- Trade groups
-- ============================================================================

/-- A row of the `trade_groups` table. -/
structure TradeGroup where
  id : String
  serialNumber : ℤ
  symbol : String
  status : TradeStatus := .opened
  closedAt : Option ℚ := none
  deriving DecidableEq, Repr

/-- The table; `id` is its primary key. -/
@[ext] structure TradeTable where
  groups : List TradeGroup
  unique : (groups.map (·.id)).Nodup
  deriving DecidableEq

/-- The group as `update_status` leaves it. -/
def TradeGroup.withStatus (g : TradeGroup) (status : TradeStatus) (now : ℚ) : TradeGroup :=
  { g with status := status, closedAt := if status = .closed then some now else g.closedAt }

@[simp] theorem withStatus_id (g : TradeGroup) (status : TradeStatus) (now : ℚ) :
    (g.withStatus status now).id = g.id := rfl

/-- `get_open`. -/
def getOpen (trades : TradeTable) : List TradeGroup :=
  trades.groups.filter (·.status = .opened)

/-- `update_status`. -/
def updateStatus (trades : TradeTable) (id : String) (status : TradeStatus) (now : ℚ) :
    TradeTable where
  groups := trades.groups.map fun g => if g.id = id then g.withStatus status now else g
  unique := by
    have hids : (trades.groups.map fun g => if g.id = id then g.withStatus status now else g).map
        (·.id) = trades.groups.map (·.id) := by
      rw [List.map_map]
      refine List.map_congr_left fun g _ => ?_
      simp only [Function.comp_apply]
      split <;> rfl
    rw [hids]
    exact trades.unique

-- ============================================================================
-- The passes
-- ============================================================================

/-- The loop of both passes: of the groups that were open, those the test picks are
    closed, each at the clock's reading of that moment. -/
def closeAll (test : String → Bool) (clock : String → ℚ) (trades : TradeTable) : TradeTable :=
  (getOpen trades).foldl
    (fun acc g => if test g.id then updateStatus acc g.id .closed (clock g.id) else acc) trades

/-- An abandoned trade, for display. -/
structure Abandoned where
  tradeId : String
  serialNumber : ℤ
  symbol : String
  deriving DecidableEq, Repr

/-- `recover_in_flight_orders`. -/
def recoverInFlightOrders (rows : List LedgerRow) (clock : String → ℚ) (trades : TradeTable) :
    TradeTable × List Abandoned :=
  (closeAll (hasUnconfirmedPlacements rows) clock trades,
    ((getOpen trades).filter fun g => hasUnconfirmedPlacements rows g.id).map
      fun g => ⟨g.id, g.serialNumber, g.symbol⟩)

/-- The test of `close_orphaned_trade_groups`. -/
def orphaned (rows : List LedgerRow) (tradeId : String) : Bool :=
  let legs := tradeLegSummary rows tradeId
  if legs = [] then true
  else
    let allTerminal := legs.all (·.isTerminal)
    let hasFill := legs.any (·.isFill)
    allTerminal && !hasFill

/-- `close_orphaned_trade_groups`, with the number of groups it closes. -/
def closeOrphanedTradeGroups (rows : List LedgerRow) (clock : String → ℚ) (trades : TradeTable) :
    TradeTable × ℕ :=
  (closeAll (orphaned rows) clock trades, (getOpen trades).countP fun g => orphaned rows g.id)

/-- Both passes, as the REPL runs them on startup. -/
def recoverAll (rows : List LedgerRow) (clock : String → ℚ) (trades : TradeTable) : TradeTable :=
  (closeOrphanedTradeGroups rows clock (recoverInFlightOrders rows clock trades).1).1

-- ============================================================================
-- What a pass does to each group
-- ============================================================================

section CloseAll

variable {test : String → Bool} {clock : String → ℚ} {trades : TradeTable}

/-- The group after the pass. -/
def closeOne (test : String → Bool) (clock : String → ℚ) (g : TradeGroup) : TradeGroup :=
  if g.status = .opened ∧ test g.id = true then g.withStatus .closed (clock g.id) else g

theorem foldl_groups (is : List TradeGroup) :
    ∀ acc : TradeTable,
      (is.foldl (fun acc g => if test g.id then updateStatus acc g.id .closed (clock g.id) else acc)
          acc).groups =
        acc.groups.map fun g =>
          if g.id ∈ is.map (·.id) ∧ test g.id = true then g.withStatus .closed (clock g.id) else g := by
  induction is with
  | nil => intro acc; simp
  | cons i is ih =>
    intro acc
    rw [List.foldl_cons, ih]
    by_cases htest : test i.id = true
    · rw [if_pos htest, updateStatus, List.map_map]
      refine List.map_congr_left fun g _ => ?_
      by_cases hid : g.id = i.id
      · simp [hid, htest, TradeGroup.withStatus]
      · simp [hid]
    · rw [if_neg htest]
      refine List.map_congr_left fun g _ => ?_
      by_cases hid : g.id = i.id
      · simp [hid, htest]
      · simp [hid]

/-- A group is among the open ones when it is open: its id is no other group's. -/
theorem id_mem_getOpen {g : TradeGroup} (hg : g ∈ trades.groups) :
    g.id ∈ (getOpen trades).map (·.id) ↔ g.status = .opened := by
  constructor
  · intro hmem
    obtain ⟨u, hu, hid⟩ := List.mem_map.mp hmem
    obtain ⟨huin, hopen⟩ := List.mem_filter.mp hu
    have hsame : u = g := List.inj_on_of_nodup_map trades.unique huin hg hid
    rw [← hsame]
    exact of_decide_eq_true hopen
  · intro hopen
    exact List.mem_map_of_mem (List.mem_filter.mpr ⟨hg, decide_eq_true hopen⟩)

/-- A pass updates each group once. -/
theorem closeAll_groups :
    (closeAll test clock trades).groups = trades.groups.map (closeOne test clock) := by
  rw [closeAll, foldl_groups]
  refine List.map_congr_left fun g hg => ?_
  rw [closeOne]
  simp only [id_mem_getOpen hg]

@[simp] theorem closeOne_id (g : TradeGroup) : (closeOne test clock g).id = g.id := by
  unfold closeOne
  split <;> rfl

theorem closeOne_of_not {g : TradeGroup} (h : ¬(g.status = .opened ∧ test g.id = true)) :
    closeOne test clock g = g := if_neg h

theorem closeOne_status {g : TradeGroup} (h : g.status = .opened ∧ test g.id = true) :
    (closeOne test clock g).status = .closed := by
  rw [closeOne, if_pos h]
  rfl

/-- What is left open is left by the test. -/
theorem closeOne_again (clock' : String → ℚ) (g : TradeGroup) :
    closeOne test clock' (closeOne test clock g) = closeOne test clock g := by
  by_cases h : g.status = .opened ∧ test g.id = true
  · refine closeOne_of_not fun hagain => ?_
    rw [closeOne_status h] at hagain
    cases hagain.1
  · rw [closeOne_of_not h, closeOne_of_not h]

/-- The group with an id after a pass. -/
theorem closeAll_unique {g u : TradeGroup} (hg : g ∈ trades.groups)
    (hu : u ∈ (closeAll test clock trades).groups) (hid : u.id = g.id) :
    u = closeOne test clock g := by
  rw [closeAll_groups] at hu
  obtain ⟨v, hv, rfl⟩ := List.mem_map.mp hu
  rw [closeOne_id] at hid
  rw [List.inj_on_of_nodup_map trades.unique hv hg hid]

theorem mem_closeAll {g : TradeGroup} (hg : g ∈ trades.groups) :
    closeOne test clock g ∈ (closeAll test clock trades).groups := by
  rw [closeAll_groups]
  exact List.mem_map_of_mem hg

end CloseAll

/-- Running both passes again changes nothing. -/
theorem recoverAll_again (rows : List LedgerRow) (clock clock' : String → ℚ) (trades : TradeTable) :
    recoverAll rows clock' (recoverAll rows clock trades) = recoverAll rows clock trades := by
  refine TradeTable.ext ?_
  change (closeAll _ clock' (closeAll _ clock' (closeAll _ clock (closeAll _ clock trades)))).groups =
    (closeAll _ clock (closeAll _ clock trades)).groups
  simp only [closeAll_groups, List.map_map]
  refine List.map_congr_left fun g _ => ?_
  simp only [Function.comp_apply]
  -- a group the first test leaves after the second pass it has left before
  by_cases hfirst : g.status = .opened ∧ hasUnconfirmedPlacements rows g.id = true
  · have hclosed : (closeOne (hasUnconfirmedPlacements rows) clock g).status = .closed :=
      closeOne_status hfirst
    have hdone : ∀ (test : String → Bool) (clock : String → ℚ) (u : TradeGroup),
        u.status = .closed → closeOne test clock u = u := by
      intro test clock u hu
      refine closeOne_of_not fun h => ?_
      rw [hu] at h
      cases h.1
    simp only [hdone _ _ _ hclosed]
  · rw [closeOne_of_not hfirst]
    have hkept : closeOne (hasUnconfirmedPlacements rows) clock' (closeOne (orphaned rows) clock g) =
        closeOne (orphaned rows) clock g := by
      by_cases hsecond : g.status = .opened ∧ orphaned rows g.id = true
      · refine closeOne_of_not fun h => ?_
        rw [closeOne_status hsecond] at h
        cases h.1
      · rw [closeOne_of_not hsecond, closeOne_of_not hfirst]
    rw [hkept, closeOne_again]

-- ============================================================================
-- Trades with fills
-- ============================================================================

/-- The trade has a FILLED or PARTIAL_FILL row, on whichever leg. -/
def HasFill (rows : List LedgerRow) (tradeId : String) : Prop :=
  ∃ t ∈ ofTrade rows tradeId, t.isFill = true

instance (rows : List LedgerRow) (tradeId : String) : Decidable (HasFill rows tradeId) := by
  unfold HasFill; infer_instance

/-- Every order of the trade has a terminal last row, and nothing was filled. -/
def Failed (rows : List LedgerRow) (tradeId : String) : Prop :=
  (∀ leg ∈ tradeLegSummary rows tradeId, leg.isTerminal = true) ∧ ¬HasFill rows tradeId

instance (rows : List LedgerRow) (tradeId : String) : Decidable (Failed rows tradeId) := by
  unfold Failed; infer_instance

theorem orphaned_iff {rows : List LedgerRow} {tradeId : String} :
    orphaned rows tradeId = true ↔
      ∀ leg ∈ tradeLegSummary rows tradeId, leg.isTerminal = true ∧ leg.isFill = false := by
  unfold orphaned
  dsimp only
  split
  case isTrue hnone => simp [hnone]
  case isFalse =>
    rw [Bool.and_eq_true, List.all_eq_true, Bool.not_eq_true', List.any_eq_false, ← forall₂_and]
    simp only [Bool.not_eq_true]

/-- The rows the test sees are rows of the trade. -/
theorem orphaned_of_failed {rows : List LedgerRow} {tradeId : String} (h : Failed rows tradeId) :
    orphaned rows tradeId = true := by
  refine orphaned_iff.mpr fun leg hleg => ⟨h.1 leg hleg, ?_⟩
  by_contra hfill
  exact h.2 ⟨leg, (latest_sublist _ _).subset hleg, by simpa using hfill⟩

/-- What the recovery is to guarantee on a database, whatever the clock reads. -/
structure Sound (rows : List LedgerRow) (trades : TradeTable) : Prop where
  recover_keeps : ∀ clock, ∀ g ∈ trades.groups, g.status ≠ .closed → HasFill rows g.id →
    ∀ u ∈ (recoverInFlightOrders rows clock trades).1.groups, u.id = g.id → u.status ≠ .closed
  orphans_keeps : ∀ clock, ∀ g ∈ trades.groups, g.status ≠ .closed → HasFill rows g.id →
    ∀ u ∈ (closeOrphanedTradeGroups rows clock trades).1.groups, u.id = g.id → u.status ≠ .closed
  orphans_closes : ∀ clock, ∀ g ∈ trades.groups, g.status = .opened → Failed rows g.id →
    ∀ u ∈ (closeOrphanedTradeGroups rows clock trades).1.groups, u.id = g.id → u.status = .closed
  orphans_leaves : ∀ clock, ∀ g ∈ trades.groups, ¬(g.status = .opened ∧ Failed rows g.id) →
    g ∈ (closeOrphanedTradeGroups rows clock trades).1.groups
  again : ∀ clock clock',
    recoverAll rows clock' (recoverAll rows clock trades) = recoverAll rows clock trades

/-- A trade with fills that either pass leaves alone: no placement of it is
    unconfirmed, and the last row of one of its orders is open or a fill. -/
def LeftAlone (rows : List LedgerRow) (tradeId : String) : Prop :=
  hasUnconfirmedPlacements rows tradeId = false ∧
    ∃ leg ∈ tradeLegSummary rows tradeId, leg.isTerminal = false ∨ leg.isFill = true

theorem orphaned_eq_false_iff {rows : List LedgerRow} {tradeId : String} :
    orphaned rows tradeId = false ↔
      ∃ leg ∈ tradeLegSummary rows tradeId, leg.isTerminal = false ∨ leg.isFill = true := by
  rw [← Bool.not_eq_true, orphaned_iff]
  push Not
  refine exists_congr fun leg => and_congr_right fun _ => ?_
  cases leg.isTerminal <;> simp

/-- The recovery is sound exactly where both passes leave the open trades with fills
    alone. -/
theorem recovery_sound_iff (rows : List LedgerRow) (trades : TradeTable) :
    Sound rows trades ↔
      ∀ g ∈ trades.groups, g.status = .opened → HasFill rows g.id → LeftAlone rows g.id := by
  constructor
  · intro h g hg hopen hfill
    have hnot : g.status ≠ .closed := by
      rw [hopen]
      decide
    constructor
    · by_contra htest
      rw [Bool.not_eq_false] at htest
      exact h.recover_keeps (fun _ => 0) g hg hnot hfill _ (mem_closeAll hg) (closeOne_id g)
        (closeOne_status ⟨hopen, htest⟩)
    · rw [← orphaned_eq_false_iff]
      by_contra htest
      rw [Bool.not_eq_false] at htest
      exact h.orphans_keeps (fun _ => 0) g hg hnot hfill _ (mem_closeAll hg) (closeOne_id g)
        (closeOne_status ⟨hopen, htest⟩)
  · intro h
    constructor
    case recover_keeps =>
      intro clock g hg hnot hfill u hu hid
      rw [closeAll_unique hg hu hid, closeOne_of_not]
      · exact hnot
      · rintro ⟨hopen, htest⟩
        rw [(h g hg hopen hfill).1] at htest
        cases htest
    case orphans_keeps =>
      intro clock g hg hnot hfill u hu hid
      rw [closeAll_unique hg hu hid, closeOne_of_not]
      · exact hnot
      · rintro ⟨hopen, htest⟩
        rw [orphaned_eq_false_iff.mpr (h g hg hopen hfill).2] at htest
        cases htest
    case orphans_closes =>
      intro clock g hg hopen hfailed u hu hid
      rw [closeAll_unique hg hu hid]
      exact closeOne_status ⟨hopen, orphaned_of_failed hfailed⟩
    case orphans_leaves =>
      intro clock g hg hother
      have hsame : closeOne (orphaned rows) clock g = g := by
        refine closeOne_of_not fun ⟨hopen, htest⟩ => hother ⟨hopen, ?_, ?_⟩
        · exact fun leg hleg => (orphaned_iff.mp htest leg hleg).1
        · intro hfill
          rw [orphaned_eq_false_iff.mpr (h g hg hopen hfill).2] at htest
          cases htest
      rw [← hsame]
      exact mem_closeAll hg
    case again => exact fun clock clock' => recoverAll_again rows clock clock' trades

-- ============================================================================
-- A fill that a later row hides
-- ============================================================================

/-- An entry of which four of ten filled before it was cancelled. -/
def cancelledEntry : List LedgerRow :=
  [{ ibOrderId := some 101, action := .placeAccepted, tradeId := some "trade",
     legType := some .entry, quantity := 10, requestedAt := 0, correlationId := some "c" },
   { ibOrderId := some 101, action := .partialFill, tradeId := some "trade",
     legType := some .entry, quantity := 10, ibFilledQty := some 4, requestedAt := 1,
     correlationId := some "c" },
   { ibOrderId := some 101, action := .cancelled, tradeId := some "trade",
     legType := some .entry, quantity := 10, requestedAt := 2, isTerminal := true,
     correlationId := some "c" }]

/-- Its trade group, still open. -/
def openTrade : TradeTable where
  groups := [{ id := "trade", serialNumber := 7, symbol := "MGC" }]
  unique := by decide

/-- The recovery is not sound on every database: this group is closed as an orphan
    while four are held. -/
theorem recovery_sound_fails : ¬∀ rows trades, Sound rows trades := by
  intro hall
  have hkeeps := (hall cancelledEntry openTrade).orphans_keeps (fun _ => 3)
    { id := "trade", serialNumber := 7, symbol := "MGC" } (by decide) (by decide) (by decide)
    { id := "trade", serialNumber := 7, symbol := "MGC", status := .closed, closedAt := some 3 }
  exact hkeeps (by decide +kernel) rfl rfl

end IbTrader.Engine.Recovery
