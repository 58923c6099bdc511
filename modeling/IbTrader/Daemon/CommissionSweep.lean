/-
  IbTrader.Daemon.CommissionSweep

  The alarm for commissions that were never delivered (`run_commission_reconciliation`
  of `ib_trader/daemon/reconciler.py`).

  A sweep raises what it finds too low to the sum of the fill rows and warns of what is
  still too low.  It treats each trade by itself, so what it writes and what it warns of
  is said trade by trade (`swept_value`, `swept_warned`).  A sweep is one step, and the
  other processes write between two sweeps what they like.
-/

import IbTrader.Bots.Lifecycle
import IbTrader.Data.BotTrades
import IbTrader.Lib.KeyedList
import IbTrader.Lib.Run

namespace IbTrader.Daemon.CommissionSweep

open Lib Data
open Bots (BotState activeStates)

-- ============================================================================
-- What a sweep reads
-- ============================================================================

/-- The tables: the trades by their id, and the ledger. -/
structure Tables where
  botTrades : Dict String BotTrade := ∅
  transactions : List LedgerRow := []

/-- What a sweep reads beside the tables.  The clock is read by either query of the
    trades and then as `now`. -/
structure Sweep where
  /-- `ctx.bot_trades` and `ctx.redis` are there. -/
  available : Bool := true
  lookbackHours : ℚ := 24
  probedAt : ℚ
  queriedAt : ℚ
  now : ℚ
  /-- The state in the document of a bot. -/
  botState : String → String := fun _ => ""
  /-- The document of the bot can be read. -/
  readable : String → Bool := fun _ => true

/-- A state that is one of `ACTIVE_STATES`. -/
def isActive (state : String) : Bool := activeStates.any (·.value = state)

/-- `find_undercommissioned_trades`. -/
def findUndercommissionedTrades (trades : Dict String BotTrade) (now hours : ℚ) (skipBotIds : List String) :
    List (String × BotTrade) :=
  trades.items.filter fun trade => trade.2.undercommissioned now hours skipBotIds

/-- The probe of the bots' documents, which an exception ends. -/
def probe (sweep : Sweep) : List (String × BotTrade) → List String → List String → List String
  | [], _, skipBotIds => skipBotIds
  | (_, row) :: rows, seen, skipBotIds =>
    if row.botId ∈ seen then probe sweep rows seen skipBotIds
    else if sweep.readable row.botId then
      probe sweep rows (row.botId :: seen)
        (if isActive (sweep.botState row.botId) then row.botId :: skipBotIds else skipBotIds)
    else skipBotIds

/-- `skip_bot_ids`. -/
def skipBotIds (tables : Tables) (sweep : Sweep) : List String :=
  probe sweep (findUndercommissionedTrades tables.botTrades sweep.probedAt sweep.lookbackHours []) [] []

/-- `candidates`. -/
def candidates (tables : Tables) (sweep : Sweep) : List (String × BotTrade) :=
  findUndercommissionedTrades tables.botTrades sweep.queriedAt sweep.lookbackHours (skipBotIds tables sweep)

-- ============================================================================
-- `run_commission_reconciliation`
-- ============================================================================

structure Backfill where
  tradeId : String
  symbol : String
  oldCommission : ℚ
  newCommission : ℚ
  deriving DecidableEq, Repr

structure Warning where
  tradeId : String
  symbol : String
  storedCommission : ℚ
  expectedFloor : ℚ
  deriving DecidableEq, Repr

/-- How far a sweep has come. -/
structure Swept where
  botTrades : Dict String BotTrade
  backfilled : List Backfill := []
  warned : List Warning := []

/-- `update_commission_if_higher`, with the table it leaves if it writes. -/
def updateCommissionIfHigher (trades : Dict String BotTrade) (tradeId : String) (newValue : ℚ) :
    Option (Dict String BotTrade) :=
  (trades.value tradeId).bind fun row =>
    if newValue ≤ row.commission then none else some (trades.put tradeId (row.updateCommissionIfHigher newValue))

/-- `_warn_delivery_gap`. -/
def warnDeliveryGap (swept : Swept) (tradeId : String) (row : BotTrade) (currentCommission : ℚ) : Swept :=
  { swept with
    warned := swept.warned ++ [⟨tradeId, row.symbol, currentCommission, expectedMin row.symbol⟩] }

/-- The sum of the commissions in the fill rows of a trade. -/
def summed (transactions : List LedgerRow) (row : BotTrade) (exitTime : ℚ) : ℚ :=
  sumCommissionBetween transactions row.serials (exitTime - 3600) (exitTime + 3600)

/-- The loop body. -/
def sweepTrade (transactions : List LedgerRow) (now : ℚ) (swept : Swept) : String × BotTrade → Swept
  | (tradeId, row) =>
    match row.exitTime with
    | none => swept
    | some exitTime =>
      if row.serials = [] then swept
      else
        let sum := summed transactions row exitTime
        if row.commission < sum then
          match updateCommissionIfHigher swept.botTrades tradeId sum with
          | some botTrades =>
            let backfilled := swept.backfilled ++ [⟨tradeId, row.symbol, row.commission, sum⟩]
            let swept := { swept with botTrades, backfilled }
            if sum < expectedMin row.symbol then warnDeliveryGap swept tradeId row sum else swept
          -- a concurrent write won
          | none => swept
        else if exitTime < now - 24 * 3600 then warnDeliveryGap swept tradeId row row.commission
        else swept

/-- `run_commission_reconciliation`. -/
def runCommissionReconciliation (tables : Tables) (sweep : Sweep) : Swept :=
  if sweep.available then
    (candidates tables sweep).foldl (sweepTrade tables.transactions sweep.now) { botTrades := tables.botTrades }
  else { botTrades := tables.botTrades }

-- ============================================================================
-- Runs
-- ============================================================================

inductive Event where
  /-- The other processes have written. -/
  | write (tables : Tables)
  | sweep (sweep : Sweep)

def step (tables : Tables) : Event → Tables
  | .write tables => tables
  | .sweep sweep => { tables with botTrades := (runCommissionReconciliation tables sweep).botTrades }

-- ============================================================================
-- The alarm
-- ============================================================================

/-- The trade exited more than a day ago. -/
def overdue (sweep : Sweep) (row : BotTrade) : Bool := row.exitTime.any (· < sweep.now - 24 * 3600)

/-- A trade the alarm is for. -/
structure Gap (sweep : Sweep) (row : BotTrade) : Prop where
  overdue : overdue sweep row
  serial : row.serials ≠ []
  inactive : ¬ isActive (sweep.botState row.botId)
  short : row.commission < expectedMin row.symbol

/-- A sweep warns, once, of exactly the trades with a gap after it. -/
structure Alarmed (tables : Tables) (sweep : Sweep) : Prop where
  once : ((runCommissionReconciliation tables sweep).warned.map (·.tradeId)).Nodup
  exactly : ∀ tradeId, tradeId ∈ (runCommissionReconciliation tables sweep).warned.map (·.tradeId) ↔
    ∃ row, (runCommissionReconciliation tables sweep).botTrades.value tradeId = some row ∧ Gap sweep row

/-- The bots whose documents the probe has read. -/
def probed (tables : Tables) (sweep : Sweep) : List String :=
  ((findUndercommissionedTrades tables.botTrades sweep.probedAt sweep.lookbackHours []).map
    (·.2.botId)).takeWhile sweep.readable

/-- The sweep looks at a trade. -/
structure Examined (tables : Tables) (sweep : Sweep) (row : BotTrade) : Prop where
  available : sweep.available
  inWindow : row.exitTime.any (sweep.queriedAt - 3600 * sweep.lookbackHours ≤ ·)
  known : (roundTripMin.lookup row.symbol).isSome
  short : row.commission < expectedMin row.symbol
  unskipped : row.botId ∈ probed tables sweep → ¬ isActive (sweep.botState row.botId)
  serial : row.serials ≠ []

/-- When a sweep is right about a trade.  A trade with a gap is in the window of the
    query.  If the sweep looks at one that is not a day old, the fill rows have no more
    than the trade or no less than the floor; if at one of an active bot that is, the
    fill rows have no less than the floor. -/
structure Covered (tables : Tables) (sweep : Sweep) (row : BotTrade) : Prop where
  gap : Gap sweep row → Examined tables sweep row
  fresh : Examined tables sweep row → ¬ overdue sweep row → ∀ exitTime ∈ row.exitTime,
    summed tables.transactions row exitTime ≤ row.commission ∨
      expectedMin row.symbol ≤ summed tables.transactions row exitTime
  active : Examined tables sweep row → overdue sweep row → isActive (sweep.botState row.botId) →
    ∀ exitTime ∈ row.exitTime, expectedMin row.symbol ≤ summed tables.transactions row exitTime

/-- A sweep is right about all trades. -/
def AllCovered (tables : Tables) : Event → Prop
  | .write _ => True
  | .sweep sweep => ∀ tradeId row, tables.botTrades.value tradeId = some row → Covered tables sweep row

-- ============================================================================
-- The skipped bots
-- ============================================================================

/-- The bots that are skipped: the active ones of those whose documents are read. -/
theorem mem_probe {sweep : Sweep} {botId : String} (rows : List (String × BotTrade)) :
    ∀ {seen skipped : List String},
      (∀ b ∈ seen, sweep.readable b ∧ (isActive (sweep.botState b) → b ∈ skipped)) →
      (botId ∈ probe sweep rows seen skipped ↔ botId ∈ skipped ∨
        botId ∈ (rows.map (·.2.botId)).takeWhile sweep.readable ∧ isActive (sweep.botState botId)) := by
  induction rows with
  | nil => simp [probe]
  | cons trade rows ih =>
    obtain ⟨tradeId, row⟩ := trade
    intro seen skipped hseen
    rw [probe, List.map_cons, List.takeWhile_cons]
    split
    case isTrue hmem =>
      obtain ⟨hreadable, hskipped⟩ := hseen _ hmem
      rw [ih hseen, if_pos hreadable, List.mem_cons]
      constructor
      · rintro (h | ⟨h, hactive⟩)
        · exact .inl h
        · exact .inr ⟨.inr h, hactive⟩
      · rintro (h | ⟨rfl | h, hactive⟩)
        · exact .inl h
        · exact .inl (hskipped hactive)
        · exact .inr ⟨h, hactive⟩
    case isFalse =>
      split
      case isTrue hreadable =>
        have hnext : ∀ b ∈ row.botId :: seen, sweep.readable b ∧ (isActive (sweep.botState b) → b ∈
            if isActive (sweep.botState row.botId) then row.botId :: skipped else skipped) := by
          intro b hb
          rcases List.mem_cons.mp hb with rfl | hb
          · exact ⟨hreadable, fun hactive => by rw [if_pos hactive]; exact List.mem_cons_self⟩
          · refine ⟨(hseen b hb).1, fun hactive => ?_⟩
            have hskipped := (hseen b hb).2 hactive
            split
            · exact List.mem_cons_of_mem _ hskipped
            · exact hskipped
        have hskipped : (botId ∈ if isActive (sweep.botState row.botId) then row.botId :: skipped else skipped) ↔
            botId = row.botId ∧ isActive (sweep.botState botId) ∨ botId ∈ skipped := by
          split
          case isTrue hactive =>
            rw [List.mem_cons]
            exact or_congr_left ⟨fun h => ⟨h, h ▸ hactive⟩, And.left⟩
          case isFalse hidle =>
            have hnot : ¬ (botId = row.botId ∧ isActive (sweep.botState botId)) := fun ⟨hbot, h⟩ => hidle (hbot ▸ h)
            exact (or_iff_right hnot).symm
        rw [ih hnext, hskipped, List.mem_cons, or_and_right, or_assoc, or_left_comm]
      case isFalse => simp

theorem mem_skipBotIds {tables : Tables} {sweep : Sweep} {botId : String} :
    botId ∈ skipBotIds tables sweep ↔ botId ∈ probed tables sweep ∧ isActive (sweep.botState botId) :=
  (mem_probe _ fun _ hb => absurd hb List.not_mem_nil).trans (or_iff_right List.not_mem_nil)

theorem examined_iff {tables : Tables} {sweep : Sweep} {row : BotTrade} :
    Examined tables sweep row ↔ (sweep.available ∧
      row.undercommissioned sweep.queriedAt sweep.lookbackHours (skipBotIds tables sweep)) ∧ row.serials ≠ [] := by
  rw [BotTrade.undercommissioned, decide_eq_true_eq, mem_skipBotIds, not_and]
  constructor
  · exact fun ⟨h1, h2, h3, h4, h5, h6⟩ => ⟨⟨h1, h2, h3, h5, h4⟩, h6⟩
  · exact fun ⟨⟨h1, h2, h3, h5, h4⟩, h6⟩ => ⟨h1, h2, h3, h4, h5, h6⟩

-- ============================================================================
-- One trade
-- ============================================================================

/-- A trade after its turn. -/
def raised (transactions : List LedgerRow) (row : BotTrade) : BotTrade :=
  match row.exitTime with
  | none => row
  | some exitTime =>
    if row.serials = [] then row else row.updateCommissionIfHigher (summed transactions row exitTime)

/-- What a trade is warned of with. -/
def warning (transactions : List LedgerRow) (now : ℚ) (trade : String × BotTrade) : Option Warning :=
  trade.2.exitTime.bind fun exitTime =>
    if trade.2.serials ≠ [] ∧ (raised transactions trade.2).commission < expectedMin trade.2.symbol ∧
        (trade.2.commission < summed transactions trade.2 exitTime ∨ exitTime < now - 24 * 3600) then
      some ⟨trade.1, trade.2.symbol, (raised transactions trade.2).commission, expectedMin trade.2.symbol⟩
    else none

section Pass

variable {transactions : List LedgerRow} {now : ℚ} {swept : Swept} {tradeId : String} {row : BotTrade}

/-- The table after the turn of a trade. -/
theorem sweepTrade_value (h : swept.botTrades.value tradeId = some row) (id : String) :
    (sweepTrade transactions now swept (tradeId, row)).botTrades.value id =
      if id = tradeId then some (raised transactions row) else swept.botTrades.value id := by
  have hsame : swept.botTrades.value id = if id = tradeId then some row else swept.botTrades.value id := by
    split
    case isTrue hid => rw [hid, h]
    case isFalse => rfl
  unfold sweepTrade raised
  dsimp only
  cases row.exitTime with
  | none => exact hsame
  | some exitTime =>
    dsimp only
    split
    case isTrue => exact hsame
    case isFalse =>
      split
      case isTrue hlt =>
        rw [updateCommissionIfHigher, h, Option.bind_some, if_neg (not_le.mpr hlt)]
        dsimp only
        have hput : (swept.botTrades.put tradeId
            (row.updateCommissionIfHigher (summed transactions row exitTime))).value id =
            if id = tradeId then some (row.updateCommissionIfHigher (summed transactions row exitTime))
            else swept.botTrades.value id := by
          split
          case isTrue hid => rw [hid, Dict.value_put_self]
          case isFalse hid => rw [Dict.value_put_ne hid]
        split <;> exact hput
      case isFalse hle =>
        rw [BotTrade.updateCommissionIfHigher, if_pos (not_lt.mp hle)]
        split <;> exact hsame

/-- The warnings after the turn of a trade. -/
theorem sweepTrade_warned (h : swept.botTrades.value tradeId = some row)
    (hshort : row.commission < expectedMin row.symbol) :
    (sweepTrade transactions now swept (tradeId, row)).warned =
      swept.warned ++ (warning transactions now (tradeId, row)).toList := by
  unfold sweepTrade warning raised
  dsimp only
  cases row.exitTime with
  | none => exact (List.append_nil _).symm
  | some exitTime =>
    dsimp only [Option.bind_some]
    split
    case isTrue hserials => rw [if_neg fun hall => hall.1 hserials]; exact (List.append_nil _).symm
    case isFalse hserials =>
      split
      case isTrue hlt =>
        have hraised : row.updateCommissionIfHigher (summed transactions row exitTime) =
            { row with commission := summed transactions row exitTime } := if_neg (not_le.mpr hlt)
        rw [updateCommissionIfHigher, h, Option.bind_some, if_neg (not_le.mpr hlt), hraised]
        dsimp only
        split
        case isTrue hfloor => rw [if_pos ⟨hserials, hfloor, .inl hlt⟩]; rfl
        case isFalse hfloor => rw [if_neg fun hall => hfloor hall.2.1]; exact (List.append_nil _).symm
      case isFalse hle =>
        rw [BotTrade.updateCommissionIfHigher, if_pos (not_lt.mp hle)]
        split
        case isTrue hold => rw [if_pos ⟨hserials, hshort, .inr hold⟩]; rfl
        case isFalse hold =>
          rw [if_neg fun hall => hall.2.2.elim hle hold]
          exact (List.append_nil _).symm

/-- The trades of a table take their turns independently. -/
theorem foldl_sweepTrade (trades : List (String × BotTrade)) :
    ∀ {swept : Swept}, (trades.map (·.1)).Nodup →
      (∀ trade ∈ trades, swept.botTrades.value trade.1 = some trade.2 ∧
        trade.2.commission < expectedMin trade.2.symbol) →
      (trades.foldl (sweepTrade transactions now) swept).warned =
          swept.warned ++ trades.filterMap (warning transactions now) ∧
        ∀ id, (trades.foldl (sweepTrade transactions now) swept).botTrades.value id =
          if id ∈ trades.map (·.1) then (swept.botTrades.value id).map (raised transactions)
          else swept.botTrades.value id := by
  induction trades with
  | nil => exact fun _ _ => ⟨(List.append_nil _).symm, fun _ => rfl⟩
  | cons trade trades ih =>
    obtain ⟨tradeId, row⟩ := trade
    intro swept hnodup htrades
    obtain ⟨hfresh, hnodup⟩ := List.nodup_cons.mp hnodup
    obtain ⟨⟨hrow, hshort⟩, htrades⟩ := List.forall_mem_cons.mp htrades
    have hvalue : ∀ id, (sweepTrade transactions now swept (tradeId, row)).botTrades.value id =
        if id = tradeId then some (raised transactions row) else swept.botTrades.value id := sweepTrade_value hrow
    have hnext : ∀ trade ∈ trades,
        (sweepTrade transactions now swept (tradeId, row)).botTrades.value trade.1 = some trade.2 ∧
          trade.2.commission < expectedMin trade.2.symbol := by
      intro trade htrade
      have hne : trade.1 ≠ tradeId := fun heq => hfresh (List.mem_map.mpr ⟨trade, htrade, heq⟩)
      rw [hvalue, if_neg hne]
      exact htrades trade htrade
    obtain ⟨hwarned, hafter⟩ := ih hnodup hnext
    constructor
    · rw [List.foldl_cons, hwarned, sweepTrade_warned hrow hshort, List.append_assoc, List.filterMap_cons]
      cases warning transactions now (tradeId, row) <;> rfl
    · intro id
      rw [List.foldl_cons, hafter, hvalue, List.map_cons]
      by_cases hid : id = tradeId
      · rw [hid, if_pos rfl, if_neg hfresh, if_pos List.mem_cons_self, hrow]
        rfl
      · rw [if_neg hid]
        simp only [List.mem_cons, hid, false_or]

end Pass

section Alarm

variable {tables : Tables} {sweep : Sweep} {tradeId : String} {row : BotTrade}

theorem mem_candidates : (tradeId, row) ∈ candidates tables sweep ↔ tables.botTrades.value tradeId = some row ∧
    row.undercommissioned sweep.queriedAt sweep.lookbackHours (skipBotIds tables sweep) := by
  rw [candidates, findUndercommissionedTrades, List.mem_filter, Dict.value_eq_some]

theorem candidates_nodup : ((candidates tables sweep).map (·.1)).Nodup :=
  tables.botTrades.unique.sublist (List.filter_sublist.map _)

/-- What a sweep does. -/
theorem swept_candidates (h : sweep.available) :
    (runCommissionReconciliation tables sweep).warned =
        (candidates tables sweep).filterMap (warning tables.transactions sweep.now) ∧
      ∀ id, (runCommissionReconciliation tables sweep).botTrades.value id =
        if id ∈ (candidates tables sweep).map (·.1) then
          (tables.botTrades.value id).map (raised tables.transactions)
        else tables.botTrades.value id := by
  rw [runCommissionReconciliation, if_pos h]
  refine foldl_sweepTrade _ candidates_nodup fun trade htrade => ?_
  obtain ⟨hvalue, hunder⟩ := mem_candidates.mp htrade
  exact ⟨hvalue, (of_decide_eq_true hunder).2.2.2⟩

theorem raised_of_serials_eq_nil {transactions : List LedgerRow} (h : row.serials = []) :
    raised transactions row = row := by
  unfold raised
  split
  · rfl
  · exact if_pos h

variable (sweep) in
/-- A trade in the table after a sweep. -/
theorem swept_value (hrow : tables.botTrades.value tradeId = some row) :
    (Examined tables sweep row ∧ (runCommissionReconciliation tables sweep).botTrades.value tradeId =
        some (raised tables.transactions row)) ∨
      ¬ Examined tables sweep row ∧
        (runCommissionReconciliation tables sweep).botTrades.value tradeId = some row := by
  rw [examined_iff]
  by_cases havailable : sweep.available
  · rw [(swept_candidates havailable).2, hrow, Option.map_some]
    by_cases hunder : row.undercommissioned sweep.queriedAt sweep.lookbackHours (skipBotIds tables sweep)
    · have hmem : tradeId ∈ (candidates tables sweep).map (·.1) :=
        List.mem_map_of_mem (mem_candidates.mpr ⟨hrow, hunder⟩)
      rw [if_pos hmem]
      by_cases hserials : row.serials = []
      · exact .inr ⟨fun h => h.2 hserials, by rw [raised_of_serials_eq_nil hserials]⟩
      · exact .inl ⟨⟨⟨havailable, hunder⟩, hserials⟩, rfl⟩
    · refine .inr ⟨fun h => hunder h.1.2, if_neg fun hmem => hunder ?_⟩
      obtain ⟨⟨id, row'⟩, hcandidate, rfl⟩ := List.mem_map.mp hmem
      obtain ⟨hrow', hunder'⟩ := mem_candidates.mp hcandidate
      rw [Option.some.inj (hrow.symm.trans hrow')]
      exact hunder'
  · refine .inr ⟨fun h => havailable h.1.1, ?_⟩
    rw [runCommissionReconciliation, if_neg havailable]
    exact hrow

theorem swept_value_none (hrow : tables.botTrades.value tradeId = none) :
    (runCommissionReconciliation tables sweep).botTrades.value tradeId = none := by
  by_cases havailable : sweep.available
  · rw [(swept_candidates havailable).2, hrow]
    exact ite_self _
  · rw [runCommissionReconciliation, if_neg havailable]
    exact hrow

/-- A trade that a sweep warns of. -/
theorem warning_eq_some {transactions : List LedgerRow} {now : ℚ} {w : Warning} :
    warning transactions now (tradeId, row) = some w ↔
      (row.serials ≠ [] ∧ (raised transactions row).commission < expectedMin row.symbol ∧
        ∃ exitTime ∈ row.exitTime, row.commission < summed transactions row exitTime ∨ exitTime < now - 24 * 3600) ∧
      w = ⟨tradeId, row.symbol, (raised transactions row).commission, expectedMin row.symbol⟩ := by
  unfold warning
  cases row.exitTime with
  | none => exact iff_of_false (fun h => nomatch h) fun ⟨⟨_, _, _, h, _⟩, _⟩ => nomatch h
  | some exitTime =>
    rw [Option.bind_some, Option.ite_none_right_eq_some, Option.some.injEq]
    constructor
    · exact fun ⟨⟨hserials, hfloor, hreason⟩, hw⟩ => ⟨⟨hserials, hfloor, exitTime, rfl, hreason⟩, hw.symm⟩
    · rintro ⟨⟨hserials, hfloor, exitTime', hexit, hreason⟩, hw⟩
      obtain rfl := Option.some.inj hexit
      exact ⟨⟨hserials, hfloor, hreason⟩, hw.symm⟩

/-- The trades a sweep warns of. -/
theorem mem_warned : tradeId ∈ (runCommissionReconciliation tables sweep).warned.map (·.tradeId) ↔
    ∃ row, tables.botTrades.value tradeId = some row ∧ Examined tables sweep row ∧
      (raised tables.transactions row).commission < expectedMin row.symbol ∧
      ∃ exitTime ∈ row.exitTime, row.commission < summed tables.transactions row exitTime ∨
        exitTime < sweep.now - 24 * 3600 := by
  simp only [examined_iff]
  by_cases havailable : sweep.available
  · rw [(swept_candidates havailable).1]
    simp only [List.mem_map, List.mem_filterMap]
    constructor
    · rintro ⟨w, ⟨⟨id, row⟩, hcandidate, hwarning⟩, rfl⟩
      obtain ⟨hrow, hunder⟩ := mem_candidates.mp hcandidate
      obtain ⟨⟨hserials, hfloor, hreason⟩, rfl⟩ := warning_eq_some.mp hwarning
      exact ⟨row, hrow, ⟨⟨havailable, hunder⟩, hserials⟩, hfloor, hreason⟩
    · rintro ⟨row, hrow, ⟨⟨-, hunder⟩, hserials⟩, hfloor, hreason⟩
      exact ⟨_, ⟨(tradeId, row), mem_candidates.mpr ⟨hrow, hunder⟩,
        warning_eq_some.mpr ⟨⟨hserials, hfloor, hreason⟩, rfl⟩⟩, rfl⟩
  · rw [runCommissionReconciliation, if_neg havailable]
    refine iff_of_false List.not_mem_nil ?_
    rintro ⟨row, -, hexamined, -⟩
    exact havailable hexamined.1.1

theorem warned_nodup : ((runCommissionReconciliation tables sweep).warned.map (·.tradeId)).Nodup := by
  by_cases havailable : sweep.available
  · rw [(swept_candidates havailable).1, List.Nodup, List.pairwise_map, List.pairwise_filterMap]
    refine (List.pairwise_map.mp candidates_nodup).imp fun {trade other} hne w hw v hv => ?_
    obtain ⟨-, rfl⟩ := warning_eq_some.mp hw
    obtain ⟨-, rfl⟩ := warning_eq_some.mp hv
    exact hne
  · rw [runCommissionReconciliation, if_neg havailable]
    exact List.nodup_nil

/-- A trade after its turn, if the sweep looks at it. -/
theorem raised_eq {transactions : List LedgerRow} {exitTime : ℚ} (hexit : row.exitTime = some exitTime)
    (hserials : row.serials ≠ []) :
    raised transactions row = { row with commission := max row.commission (summed transactions row exitTime) } := by
  unfold raised
  rw [hexit]
  dsimp only
  rw [if_neg hserials, BotTrade.updateCommissionIfHigher]
  split
  case isTrue hle => rw [max_eq_left hle, ← hexit]
  case isFalse hlt => rw [max_eq_right (not_le.mp hlt).le, ← hexit]

/-- A sweep that looks at a trade is right about it exactly when the trade is covered. -/
theorem alarmed_examined (h : Examined tables sweep row) :
    ((raised tables.transactions row).commission < expectedMin row.symbol ∧
        (∃ exitTime ∈ row.exitTime, row.commission < summed tables.transactions row exitTime ∨
          exitTime < sweep.now - 24 * 3600) ↔ Gap sweep (raised tables.transactions row)) ↔
      Covered tables sweep row := by
  obtain ⟨exitTime, hexit, -⟩ := (Option.any_eq_true _ _).mp h.inWindow
  have hshort := h.short
  have hgap : ∀ commission, Gap sweep { row with commission } ↔ overdue sweep row ∧
      ¬ isActive (sweep.botState row.botId) ∧ commission < expectedMin row.symbol := fun commission =>
    ⟨fun hgap => ⟨hgap.overdue, hgap.inactive, hgap.short⟩,
      fun ⟨hold, hidle, hfloor⟩ => ⟨hold, h.serial, hidle, hfloor⟩⟩
  have hcovered : Covered tables sweep row ↔
      (¬ overdue sweep row → summed tables.transactions row exitTime ≤ row.commission ∨
        expectedMin row.symbol ≤ summed tables.transactions row exitTime) ∧
      (overdue sweep row → isActive (sweep.botState row.botId) →
        expectedMin row.symbol ≤ summed tables.transactions row exitTime) := by
    constructor
    · exact fun hcovered => ⟨fun hyoung => hcovered.fresh h hyoung exitTime hexit,
        fun hold hactive => hcovered.active h hold hactive exitTime hexit⟩
    · refine fun ⟨hfresh, hactive⟩ => ⟨fun _ => h, fun _ hyoung t ht => ?_, fun _ hold hbot t ht => ?_⟩
      · obtain rfl := Option.some.inj (hexit.symm.trans ht)
        exact hfresh hyoung
      · obtain rfl := Option.some.inj (hexit.symm.trans ht)
        exact hactive hold hbot
  have hreason : (∃ t ∈ row.exitTime, row.commission < summed tables.transactions row t ∨
      t < sweep.now - 24 * 3600) ↔
      row.commission < summed tables.transactions row exitTime ∨ overdue sweep row := by
    unfold overdue
    rw [hexit, Option.any_some, decide_eq_true_eq]
    exact ⟨fun ⟨t, ht, h⟩ => Option.some.inj ht ▸ h, fun h => ⟨exitTime, rfl, h⟩⟩
  rw [hcovered, hreason, raised_eq hexit h.serial, hgap, max_lt_iff, and_iff_right hshort]
  grind

/-- A sweep is right about a trade exactly when the trade is covered. -/
theorem alarmed_trade (hrow : tables.botTrades.value tradeId = some row) :
    (tradeId ∈ (runCommissionReconciliation tables sweep).warned.map (·.tradeId) ↔
      ∃ row, (runCommissionReconciliation tables sweep).botTrades.value tradeId = some row ∧ Gap sweep row) ↔
      Covered tables sweep row := by
  rw [mem_warned, hrow]
  simp only [Option.some.injEq, exists_eq_left']
  rcases swept_value sweep hrow with ⟨hexamined, hvalue⟩ | ⟨hunseen, hvalue⟩
  · rw [hvalue]
    simp only [Option.some.injEq, exists_eq_left', hexamined, true_and]
    exact alarmed_examined hexamined
  · rw [hvalue]
    simp only [Option.some.injEq, exists_eq_left', hunseen, false_and, false_iff]
    exact ⟨fun hno => ⟨fun hgap => absurd hgap hno, fun h => absurd h hunseen, fun h => absurd h hunseen⟩,
      fun hcovered hgap => hunseen (hcovered.gap hgap)⟩

/-- A sweep is right about all trades exactly when all are covered. -/
theorem alarmed_iff : Alarmed tables sweep ↔
    ∀ tradeId row, tables.botTrades.value tradeId = some row → Covered tables sweep row := by
  constructor
  · exact fun h tradeId row hrow => (alarmed_trade hrow).mp (h.exactly tradeId)
  · refine fun hall => ⟨warned_nodup, fun tradeId => ?_⟩
    cases hrow : tables.botTrades.value tradeId with
    | some row => exact (alarmed_trade hrow).mpr (hall tradeId row hrow)
    | none =>
      rw [mem_warned, hrow, swept_value_none hrow]
      exact iff_of_false (fun ⟨_, h, _⟩ => nomatch h) fun ⟨_, h, _⟩ => nomatch h

end Alarm

/-- In every run the sweeps raise the alarm for exactly the trades with a gap if and only
    if each sweep covers the trades it finds. -/
theorem alarmed_throughout_iff (tables : Tables) (events : List Event) :
    (∀ sofar sweep, sofar ++ [.sweep sweep] <+: events → Alarmed (sofar.foldl step tables) sweep) ↔
      Along step AllCovered tables events := by
  rw [Along.iff_forall_snoc]
  constructor
  · intro hall sofar event hsofar
    cases event with
    | write tables => exact trivial
    | sweep sweep => exact alarmed_iff.mp (hall sofar sweep hsofar)
  · exact fun hall sofar sweep hsofar => alarmed_iff.mpr (hall sofar (.sweep sweep) hsofar)

/-- A round trip that ended at zero and whose commission was never reported. -/
def unreported : BotTrade where
  botId := "bot"
  symbol := "MGCQ6"
  exitTime := some 0
  commission := 0
  entrySerial := some 200
  exitSerial := some 201

/-- The entry's half of the commission. -/
def entryFill : LedgerRow where
  action := .filled
  tradeSerial := some 200
  commission := some (97 / 100)
  requestedAt := 0

/-- The trade alone in the table. -/
def unreportedTables (transactions : List LedgerRow) : Tables where
  botTrades := (∅ : Dict String BotTrade).put "trade" unreported
  transactions

/-- A sweep as the daemon runs it. -/
def sweepAt (now : ℚ) : Sweep where
  probedAt := now
  queriedAt := now
  now

/-- After thirty hours there is a gap of which the daemon does not warn; one hour after the
    exit it warns because half of the commission is there. -/
theorem alarmed_fails :
    ¬ Alarmed (unreportedTables []) (sweepAt (30 * 3600)) ∧
      ¬ Alarmed (unreportedTables [entryFill]) (sweepAt 3600) := by
  constructor
  · intro h
    have hvalue : (runCommissionReconciliation (unreportedTables []) (sweepAt (30 * 3600))).botTrades.value "trade" =
        some unreported := by decide +kernel
    have hgap : Gap (sweepAt (30 * 3600)) unreported :=
      ⟨by decide +kernel, by decide +kernel, by decide +kernel, by decide +kernel⟩
    exact absurd ((h.exactly "trade").mpr ⟨unreported, hvalue, hgap⟩) (by decide +kernel)
  · intro h
    obtain ⟨row, hvalue, hgap⟩ := (h.exactly "trade").mp (by decide +kernel)
    have hrow : (runCommissionReconciliation (unreportedTables [entryFill]) (sweepAt 3600)).botTrades.value "trade" =
        some { unreported with commission := 97 / 100 } := by decide +kernel
    obtain rfl := Option.some.inj (hrow.symm.trans hvalue)
    exact absurd hgap.overdue (by decide +kernel)

end IbTrader.Daemon.CommissionSweep
