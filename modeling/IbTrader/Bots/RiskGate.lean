/-
  IbTrader.Bots.RiskGate

  The risk middleware of a bot (`RiskMiddleware` in `ib_trader/bots/middleware.py`)
  with the reads of `BotStateStore` behind it.

  The middleware takes the actions one by one and asks `_can_trade` about every
  BUY.  Each time it reads the kill switch and the daily profit anew, so every
  action comes with what the reads answer on its turn.  What an order is for is in
  its `origin`; the filter goes by its side (`halt_holds_iff`).
-/

import Mathlib.Data.List.Forall2
import IbTrader.Bots.Pipeline

namespace IbTrader.Bots.Risk

open IbTrader.Bots.Runtime (PlaceOrder)

-- ============================================================================
-- Actions and reads
-- ============================================================================

/-- `PlaceOrder` with its price. -/
structure PricedOrder extends PlaceOrder where
  price : Option ℚ := none
  deriving DecidableEq, Repr

/-- Why `_can_trade` refuses. -/
inductive Reason where
  | killSwitchActive
  | dailyLossCap (pnlToday : ℚ)
  | maxPositions (open_ limit : ℕ)
  | maxPositionValue (value limit : ℚ)
  | maxShares (qty limit : ℚ)
  deriving DecidableEq, Repr

/-- An action of a strategy; `blocked` is the `LogSignal` put in the place of an
    order. -/
inductive RiskAction where
  | placeOrder (order : PricedOrder)
  | blocked (order : PricedOrder) (reason : Reason)
  | other (action : Runtime.Action)
  deriving DecidableEq, Repr

/-- What the read of the kill switch finds. -/
inductive KillSwitchRead where
  /-- the store has no Redis -/
  | noRedis
  | raises
  | missing
  | doc (engaged : Bool)
  deriving DecidableEq, Repr

/-- `is_kill_switch_engaged`: no answer counts as engaged. -/
def KillSwitchRead.engaged : KillSwitchRead → Bool
  | .noRedis | .raises => true
  | .missing => false
  | .doc engaged => engaged

/-- What `_can_trade` reads on the turn of an action. -/
structure RiskReads where
  killSwitch : KillSwitchRead
  /-- `pnl_today` of `get_stats`, `none` where that raises -/
  pnlToday : Option ℚ
  /-- the `source` of each open trade that has one -/
  openSources : List String
  deriving DecidableEq, Repr

/-- The risk settings, with their defaults. -/
structure RiskConfig where
  maxDailyLossPct : ℚ := 2 / 100
  accountValue : ℚ := 10000
  maxConcurrentPositions : ℕ := 1
  maxPositionValue : ℚ := 10000
  maxShares : ℚ := 20
  deriving DecidableEq, Repr

-- ============================================================================
-- The middleware
-- ============================================================================

/-- The daily profit is below the cap. -/
def RiskConfig.lossCapped (config : RiskConfig) (pnlToday : ℚ) : Bool :=
  pnlToday < -(config.maxDailyLossPct * config.accountValue)

/-- The caps after the daily loss: `none` where all are kept. -/
def RiskConfig.capped (config : RiskConfig) (botId : String) (order : PricedOrder)
    (reads : RiskReads) : Option Reason :=
  let botTrades := reads.openSources.count ("bot:" ++ botId)
  let price := order.price.getD 0
  if order.side = "BUY" ∧ config.maxConcurrentPositions ≤ botTrades then
    some (.maxPositions botTrades config.maxConcurrentPositions)
  else if price ≠ 0 ∧ config.maxPositionValue < order.qty * price then
    some (.maxPositionValue (order.qty * price) config.maxPositionValue)
  else if config.maxShares < order.qty then some (.maxShares order.qty config.maxShares)
  else none

/-- `_can_trade`: `none` where a read raises, else the reason it refuses for. -/
def canTrade (config : RiskConfig) (botId : String) (order : PricedOrder) (reads : RiskReads) :
    Option (Option Reason) :=
  if reads.killSwitch.engaged then some (some .killSwitchActive)
  else match reads.pnlToday with
    | none => none
    | some pnl =>
      if config.lossCapped pnl then some (some (.dailyLossCap pnl))
      else some (config.capped botId order reads)

/-- One action of `process`. -/
def passAction (config : RiskConfig) (botId : String) (reads : RiskReads) :
    RiskAction → Option RiskAction
  | .placeOrder order =>
    if order.side = "BUY" then
      (canTrade config botId order reads).map fun refused =>
        match refused with
        | some reason => .blocked order reason
        | none => .placeOrder order
    else some (.placeOrder order)
  | .blocked order reason => some (.blocked order reason)
  | .other action => some (.other action)

/-- `RiskMiddleware.process` over the actions and what is read on the turn of each;
    `none` where it raises. -/
def process (config : RiskConfig) (botId : String) (actions : List (RiskAction × RiskReads)) :
    Option (List RiskAction) :=
  actions.mapM fun p => passAction config botId p.2 p.1

-- ============================================================================
-- The middleware in the pipeline
-- ============================================================================

/-- The action as the pipeline knows it. -/
def RiskAction.erase : RiskAction → Runtime.Action
  | .placeOrder order => .placeOrder order.toPlaceOrder
  | .blocked .. => .report
  | .other action => action

/-- The filter of the pipeline is this middleware, with the answer of `_can_trade`
    taken from the reads. -/
theorem passAction_erase (config : RiskConfig) (botId : String) (reads : RiskReads)
    (a b : RiskAction) (hother : ∀ action, a = .other action → action.order = none)
    (h : passAction config botId reads a = some b) (manualEntryOnly : Bool) :
    ∃ answer : Runtime.Answer, b.erase = Runtime.Filter.risk.pass manualEntryOnly answer a.erase := by
  cases a with
  | placeOrder order =>
    by_cases hbuy : order.side = "BUY"
    · simp only [passAction, hbuy, if_true, Option.map_eq_some_iff] at h
      obtain ⟨refused, -, rfl⟩ := h
      refine ⟨{ canTrade := fun _ => refused.isNone }, ?_⟩
      cases refused <;> simp [RiskAction.erase, Runtime.Filter.pass, hbuy]
    · simp only [passAction, hbuy, if_false, Option.some.injEq] at h
      subst h
      exact ⟨{}, by simp [RiskAction.erase, Runtime.Filter.pass, hbuy]⟩
  | blocked order reason =>
    simp only [passAction, Option.some.injEq] at h
    subst h
    exact ⟨{}, rfl⟩
  | other action =>
    simp only [passAction, Option.some.injEq] at h
    subst h
    refine ⟨{}, ?_⟩
    have hnone := hother action rfl
    cases action with
    | placeOrder order => cases hnone
    | cancelOrder | updateState | report => rfl

-- ============================================================================
-- The halt
-- ============================================================================

/-- The halt is in force: the kill switch, or the daily loss limit. -/
def Halted (config : RiskConfig) (reads : RiskReads) : Prop :=
  reads.killSwitch.engaged = true ∨ ∃ pnl, reads.pnlToday = some pnl ∧ config.lossCapped pnl = true

/-- What a halt is to do: no entry gets through, and nothing but entries is taken
    out, each where it stood. -/
structure HaltHolds (input output : List RiskAction) : Prop where
  noEntry : ∀ order, .placeOrder order ∈ output → order.isExit = true
  onlyEntries : List.Forall₂
    (fun a b => b = a ∨ ∃ order reason, a = .placeOrder order ∧ order.isExit = false ∧
      b = .blocked order reason) input output

/-- Where the side of an order says what it is for: entries buy and exits do not. -/
def SideTells (input : List RiskAction) : Prop :=
  ∀ order, .placeOrder order ∈ input → (order.isExit = true ↔ order.side ≠ "BUY")

section Halt

variable {config : RiskConfig} {botId : String} {order : PricedOrder} {reads : RiskReads}

/-- Under the halt every order that is asked about is refused. -/
theorem canTrade_halted (h : Halted config reads) (botId : String) (order : PricedOrder) :
    ∃ reason, canTrade config botId order reads = some (some reason) := by
  unfold canTrade
  cases hswitch : reads.killSwitch.engaged with
  | true => exact ⟨_, rfl⟩
  | false =>
    rcases h with hengaged | ⟨pnl, hpnl, hcap⟩
    · exact absurd (hswitch.symm.trans hengaged) (by decide)
    · exact ⟨.dailyLossCap pnl, by simp [hpnl, hcap]⟩

/-- A BUY is blocked and nothing else is. -/
def BuyBlocked (a b : RiskAction) : Prop :=
  (∃ order reason, a = .placeOrder order ∧ order.side = "BUY" ∧ b = .blocked order reason) ∨
    ((∀ order, a = .placeOrder order → order.side ≠ "BUY") ∧ b = a)

/-- Under the halt a BUY is blocked and nothing else is. -/
theorem passAction_halted (h : Halted config reads) (botId : String) (a : RiskAction) :
    ∃ b, passAction config botId reads a = some b ∧ BuyBlocked a b := by
  cases a with
  | placeOrder order =>
    by_cases hbuy : order.side = "BUY"
    · obtain ⟨reason, hreason⟩ := canTrade_halted h botId order
      refine ⟨.blocked order reason, ?_, .inl ⟨order, reason, rfl, hbuy, rfl⟩⟩
      simp [passAction, hbuy, hreason]
    · refine ⟨.placeOrder order, by simp [passAction, hbuy], .inr ⟨?_, rfl⟩⟩
      rintro other ⟨⟩
      exact hbuy
  | blocked order reason => exact ⟨_, rfl, .inr ⟨fun _ => nofun, rfl⟩⟩
  | other action => exact ⟨_, rfl, .inr ⟨fun _ => nofun, rfl⟩⟩

/-- What `process` makes of the actions under the halt. -/
theorem process_halted (config : RiskConfig) (botId : String) :
    ∀ actions : List (RiskAction × RiskReads), (∀ p ∈ actions, Halted config p.2) →
      ∃ output, process config botId actions = some output ∧
        List.Forall₂ BuyBlocked (actions.map Prod.fst) output := by
  intro actions
  induction actions with
  | nil => exact fun _ => ⟨[], rfl, .nil⟩
  | cons p actions ih =>
    intro h
    obtain ⟨b, hb, hpass⟩ := passAction_halted (h p List.mem_cons_self) botId p.1
    obtain ⟨output, houtput, hrest⟩ := ih fun q hq => h q (List.mem_cons_of_mem _ hq)
    refine ⟨b :: output, ?_, .cons hpass hrest⟩
    unfold process at houtput ⊢
    simp [List.mapM_cons, hb, houtput]

/-- Where sides tell, what takes out the BUYs is what a halt is to do. -/
theorem haltHolds_of_sideTells {input output : List RiskAction}
    (h : List.Forall₂ BuyBlocked input output) (htells : SideTells input) :
    HaltHolds input output := by
  induction h with
  | nil => exact ⟨fun _ hmem => absurd hmem List.not_mem_nil, .nil⟩
  | @cons a b input output hab _ ih =>
    have hrest := ih fun order hmem => htells order (List.mem_cons_of_mem _ hmem)
    constructor
    · intro order hmem
      rcases List.mem_cons.mp hmem with hb | hmem
      · rcases hab with ⟨o, reason, -, -, hblocked⟩ | ⟨hside, hsame⟩
        · rw [← hb] at hblocked
          cases hblocked
        · have ha : a = .placeOrder order := hsame.symm.trans hb.symm
          exact (htells order (ha ▸ List.mem_cons_self)).mpr (hside order ha)
      · exact hrest.noEntry order hmem
    · refine .cons ?_ hrest.onlyEntries
      rcases hab with ⟨order, reason, ha, hbuy, hblocked⟩ | ⟨-, hsame⟩
      · refine .inr ⟨order, reason, ha, ?_, hblocked⟩
        by_contra hexit
        have hmem : RiskAction.placeOrder order ∈ a :: input := ha ▸ List.mem_cons_self
        exact (htells order hmem).mp (Bool.eq_true_of_not_eq_false hexit) hbuy
      · exact .inl hsame

/-- And only there: a selling entry gets through, and a buying exit does not. -/
theorem sideTells_of_haltHolds {input output : List RiskAction}
    (h : List.Forall₂ BuyBlocked input output) (hholds : HaltHolds input output) :
    SideTells input := by
  induction h with
  | nil => exact fun _ hmem => absurd hmem List.not_mem_nil
  | @cons a b input output hab _ ih =>
    have honly := List.forall₂_cons.mp hholds.onlyEntries
    have hrest := ih ⟨fun order hmem => hholds.noEntry order (List.mem_cons_of_mem _ hmem), honly.2⟩
    intro order hmem
    rcases List.mem_cons.mp hmem with ha | hmem
    · rcases hab with ⟨o, reason, ho, hbuy, hblocked⟩ | ⟨hside, hsame⟩
      · -- a BUY, which was blocked: it was no exit
        have horder : o = order := RiskAction.placeOrder.inj (ho.symm.trans ha.symm)
        rcases honly.1 with hkept | ⟨o', reason', ho', hentry, -⟩
        · rw [hblocked, ho] at hkept
          cases hkept
        · have horder' : o' = order := RiskAction.placeOrder.inj (ho'.symm.trans ha.symm)
          rw [horder'] at hentry
          rw [horder] at hbuy
          simp [hentry, hbuy]
      · -- not a BUY, so it got through: it was no entry
        have hthrough := hholds.noEntry order (by rw [hsame, ← ha]; exact List.mem_cons_self)
        exact iff_of_true hthrough (hside order ha.symm)
    · exact hrest order hmem

/-- While the halt is in force the middleware does what a halt is to do exactly when
    the entries among the actions buy and the exits do not. -/
theorem halt_holds_iff (config : RiskConfig) (botId : String)
    {actions : List (RiskAction × RiskReads)} (h : ∀ p ∈ actions, Halted config p.2) :
    (∃ output, process config botId actions = some output ∧
        HaltHolds (actions.map Prod.fst) output) ↔ SideTells (actions.map Prod.fst) := by
  obtain ⟨output, houtput, hblocked⟩ := process_halted config botId actions h
  constructor
  · rintro ⟨output', houtput', hholds⟩
    rw [houtput, Option.some.injEq] at houtput'
    exact sideTells_of_haltHolds hblocked (houtput' ▸ hholds)
  · exact fun htells => ⟨output, houtput, haltHolds_of_sideTells hblocked htells⟩

end Halt

/-- The kill switch is engaged. -/
def engaged : RiskReads where
  killSwitch := .doc true
  pnlToday := some 0
  openSources := []

/-- A long bot: its entry is blocked and its exit gets through. -/
theorem halt_holds_long :
    ∃ output, process {} "bot"
        [(.placeOrder { symbol := "QQQ", side := "BUY", qty := 1 }, engaged),
          (.placeOrder { symbol := "QQQ", side := "SELL", qty := 1, origin := "exit" }, engaged)] =
        some output ∧
      HaltHolds [.placeOrder { symbol := "QQQ", side := "BUY", qty := 1 },
        .placeOrder { symbol := "QQQ", side := "SELL", qty := 1, origin := "exit" }] output := by
  refine (halt_holds_iff {} "bot" ?_).mpr ?_
  · simp [Halted, engaged, KillSwitchRead.engaged]
  · intro order hmem
    simp only [List.map_cons, List.map_nil, List.mem_cons, RiskAction.placeOrder.injEq,
      List.not_mem_nil, or_false] at hmem
    rcases hmem with rfl | rfl <;> decide

/-- A short bot: its entry gets through, and the order that would buy it back is
    blocked. -/
theorem halt_holds_fails :
    ¬∀ (config : RiskConfig) (botId : String) (actions : List (RiskAction × RiskReads)),
      (∀ p ∈ actions, Halted config p.2) →
      ∃ output, process config botId actions = some output ∧
        HaltHolds (actions.map Prod.fst) output := by
  intro hall
  obtain ⟨output, houtput, hholds⟩ := hall {} "bot"
    [(.placeOrder { symbol := "MGC", side := "SELL", qty := 1 }, engaged),
      (.placeOrder { symbol := "MGC", side := "BUY", qty := 1, origin := "exit" }, engaged)]
    (by simp [Halted, engaged, KillSwitchRead.engaged])
  have hprocess : process {} "bot"
      [(.placeOrder { symbol := "MGC", side := "SELL", qty := 1 }, engaged),
        (.placeOrder { symbol := "MGC", side := "BUY", qty := 1, origin := "exit" }, engaged)] =
      some [.placeOrder { symbol := "MGC", side := "SELL", qty := 1 },
        .blocked { symbol := "MGC", side := "BUY", qty := 1, origin := "exit" }
          .killSwitchActive] := by decide +kernel
  rw [hprocess, Option.some.injEq] at houtput
  have hentry := hholds.noEntry { symbol := "MGC", side := "SELL", qty := 1 }
    (houtput ▸ List.mem_cons_self)
  exact absurd hentry (by decide)

end IbTrader.Bots.Risk
