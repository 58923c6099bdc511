/-
  IbTrader.Bots.OrderRateLimit

  How many orders a bot posts to the engine in a stretch of time
  (`_check_order_rate_limit`, `_run_pipeline` and `_handle_retry_exit_order` in
  `ib_trader/bots/runtime.py`).

  A pipeline looks at the recent submissions before its first order, records each
  order as it passes its gate and posts it later; a retry of an exit is posted and
  nothing else.  A pipeline that is alone between the check and its post keeps
  within the limit (`submitted_le`).
-/

import Mathlib.Data.NNRat.Defs
import IbTrader.Lib.SlidingWindow
import IbTrader.Bots.ExitCycle
import IbTrader.Bots.Fleet
import IbTrader.Bots.PipelineAtomicity

namespace IbTrader.Bots.Runtime

open Lib
open Lib.SlidingWindow

-- ============================================================================
-- The limit
-- ============================================================================

/-- The settings of the rate limit. -/
structure RateSettings where
  /-- `bot_order_rate_limit_count`. -/
  count : Option ℕ := none
  /-- `bot_order_rate_limit_window_seconds`. -/
  windowSeconds : Option ℚ := none
  deriving DecidableEq, Repr

/-- `limit_count`: a count of zero is none. -/
def RateSettings.limitCount (settings : RateSettings) : ℕ := (settings.count.filter (· ≠ 0)).getD 5

/-- `window`: no seconds are none. -/
def RateSettings.window (settings : RateSettings) : ℚ := (settings.windowSeconds.filter (· ≠ 0)).getD 2

/-- `_check_order_rate_limit`: the submissions that are still in the window, and whether
    the limit is exceeded. -/
def checkOrderRateLimit (settings : RateSettings) (now : ℚ) (recentSubmitTimes : List ℚ) : List ℚ × Bool :=
  let recent := recentSubmitTimes.filter fun t => now - settings.window ≤ t
  (recent, ¬ recent.length + 1 < settings.limitCount)

-- ============================================================================
-- A bot on the clock
-- ============================================================================

structure RateConfig where
  fleet : FleetConfig := {}
  engine : EngineConfig := {}
  settings : RateSettings := {}
  deriving DecidableEq, Repr

/-- A bot, its pipelines and its retries. -/
structure RatedBot where
  fleet : Fleet := {}
  /-- `time.monotonic()`. -/
  now : ℚ := 0
  /-- `_recent_submit_times`. -/
  recentSubmitTimes : List ℚ := []
  /-- The submissions that were cleared from it. -/
  cleared : List ℚ := []
  /-- The trips of the limit that have yet to clear it. -/
  trips : ℕ := 0
  /-- The retries that are yet to be posted. -/
  retries : List RetryExit := []
  /-- When orders were posted. -/
  submitted : List ℚ := []
  deriving DecidableEq, Repr

inductive RatedInput where
  | pass (seconds : ℚ≥0)
  /-- A transition outside the pipelines. -/
  | lifecycle (t : Transition)
  | runPipeline (actions : List Action)
  /-- The await of a pipeline answers. -/
  | resume (pid : ℕ) (answer : Answer)
  /-- The alert of a trip is out, the submissions are cleared. -/
  | clear
  /-- A retry that a handler has asked for is handled. -/
  | handleRetry (k : ℕ)

/-- The request for an order has just gone out. -/
def Pipeline.posting (p : Pipeline) : Bool :=
  match p.phase with
  | .executing (.placeOrder _ :: _) => true
  | _ => false

/-- The retries that a transition asks for. -/
def Transition.asks (config : StrategyConfig) (t : Transition) (doc : BotDoc) : List RetryExit :=
  if t.ofPipeline then [] else askedRetries (handled (t.handler config) doc).2

/-- A pipeline goes on: it checks the limit where it is before its first order. -/
def RatedBot.resume (config : RateConfig) (b : RatedBot) (pid : ℕ) (answer : Answer) : RatedBot :=
  match b.fleet.pipelines[pid]? with
  | none => b
  | some p =>
    let (recent, tripped) :=
      if p.phase = .checking then checkOrderRateLimit config.settings b.now b.recentSubmitTimes
      else (b.recentSubmitTimes, false)
    let (shared, next, events) := p.step config.fleet.manualEntryOnly b.fleet.shared { answer with tripped }
    { b with
      fleet := { shared, pipelines := b.fleet.pipelines.set pid next }
      recentSubmitTimes := if events.any (·.isGated) then recent ++ [b.now] else recent
      trips := if tripped then b.trips + 1 else b.trips
      submitted := if next.posting then b.submitted ++ [b.now] else b.submitted }

def RatedBot.next (config : RateConfig) (b : RatedBot) : RatedInput → RatedBot
  | .pass seconds => { b with now := b.now + seconds }
  | .lifecycle t =>
    { b with
      fleet := (b.fleet.lifecycle config.fleet t).1
      retries := b.retries ++ t.asks config.fleet.strategy b.fleet.shared.doc }
  | .runPipeline actions => { b with fleet := b.fleet.launch actions }
  | .resume pid answer => b.resume config pid answer
  | .clear =>
    if b.trips = 0 then b
    else
      { b with
        recentSubmitTimes := []
        cleared := b.cleared ++ b.recentSubmitTimes
        trips := b.trips - 1 }
  | .handleRetry k =>
    match b.retries[k]? with
    | none => b
    | some args =>
      { b with
        retries := b.retries.eraseIdx k
        submitted :=
          if (handleRetryExitOrder config.engine args).isSome then b.submitted ++ [b.now] else b.submitted }

/-- A bot that has just been made. -/
def RatedBot.init (doc : BotDoc) (now : ℚ) : RatedBot := { fleet := { shared := { doc } }, now }

-- ============================================================================
-- What the limit asks for
-- ============================================================================

/-- The pipeline has passed the limit, and its order is not recorded yet. -/
def Pipeline.admitted (p : Pipeline) : ℕ :=
  match p.phase with
  | .reading _ _ => if p.priorStates = [] then 1 else 0
  | .gating _ _ => if p.priorStates.length ≤ 1 then 1 else 0
  | _ => 0

/-- The orders that are past their gates and may yet be posted. -/
def Pipeline.due (p : Pipeline) : ℕ :=
  match p.phase with
  | .filtering _ actions | .persisting _ actions | .executing (_ :: actions) => (placeOrders actions).length
  | _ => 0

/-- What is asked of a pipeline that goes on: it passes the limit only while no other is
    between the limit and its post, and nothing that was cleared is still in the window; a
    second order does not pass its gate. -/
def RatedBot.Orderly (config : RateConfig) (b : RatedBot) (p : Pipeline) (answer : Answer) : Prop :=
  match p.phase with
  | .checking =>
    (checkOrderRateLimit config.settings b.now b.recentSubmitTimes).2 = true ∨
      (∀ q ∈ b.fleet.pipelines, q.admitted + q.due = 0) ∧ ∀ t ∈ b.cleared, t < b.now - config.settings.window
  | .gating order _ =>
    p.priorStates.length ≤ 1 ∨ answer.raises = true ∨ order.gate answer.tradeSerial b.fleet.shared.doc = none
  | _ => True

instance (config : RateConfig) (b : RatedBot) (p : Pipeline) (answer : Answer) : Decidable (b.Orderly config p answer) := by
  unfold RatedBot.Orderly
  split <;> infer_instance

/-- What is asked of a step: a pipeline that goes on is orderly, and no retry is posted. -/
def RatedBot.Restrained (config : RateConfig) (b : RatedBot) : RatedInput → Prop
  | .resume pid answer => ∀ p ∈ b.fleet.pipelines[pid]?, b.Orderly config p answer
  | .handleRetry k => ∀ args ∈ b.retries[k]?, handleRetryExitOrder config.engine args = none
  | .pass _ | .lifecycle _ | .runPipeline _ | .clear => True

instance (config : RateConfig) (b : RatedBot) (input : RatedInput) : Decidable (b.Restrained config input) := by
  unfold RatedBot.Restrained
  split <;> infer_instance

-- ============================================================================
-- One pipeline
-- ============================================================================

/-- A pipeline in its gate loop has read the state once for each order it has come to. -/
def Pipeline.WellPlaced (p : Pipeline) : Prop :=
  match p.phase with
  | .checking => p.priorStates = []
  | .reading _ rest => p.orders.length = p.priorStates.length + rest.length + 1
  | .gating _ rest => p.orders.length = p.priorStates.length + rest.length ∧ p.priorStates ≠ []
  | _ => True

/-- What a step makes of a pipeline: it goes on with what is due, or an order passes the
    gate. -/
inductive PacedMove (p next : Pipeline) : Bool → Prop where
  | quiet (admitted : next.admitted ≤ p.admitted) (due : next.due + (if next.posting then 1 else 0) ≤ p.due) :
    PacedMove p next false
  | gated (admitted : p.admitted = 1) (passed : next.admitted = 0) (due : next.due ≤ 1) (posting : next.posting = false) :
    PacedMove p next true

section Pipelines

variable {p : Pipeline} {s : Shared} {answer : Answer} {manualEntryOnly : Bool}

theorem start_wellPlaced (actions : List Action) (doc : BotDoc) : (Pipeline.start actions doc).WellPlaced := by
  unfold Pipeline.start
  split
  · trivial
  · rfl

theorem start_admitted (actions : List Action) (doc : BotDoc) : (Pipeline.start actions doc).admitted = 0 := by
  unfold Pipeline.start
  split <;> rfl

theorem start_due (actions : List Action) (doc : BotDoc) : (Pipeline.start actions doc).due = 0 := by
  unfold Pipeline.start
  split
  case isTrue hnone => exact congrArg List.length hnone
  case isFalse => rfl

/-- A pipeline that does not go on with its orders. -/
theorem PacedMove.idle {next : Pipeline} (hadmitted : next.admitted = 0) (hdue : next.due = 0) (hposting : next.posting = false) :
    PacedMove p next false := by
  refine .quiet ?_ ?_
  · rw [hadmitted]
    exact Nat.zero_le _
  · rw [hdue, hposting]
    exact Nat.zero_le _

theorem PacedMove.goto {phase : Phase} (hadmitted : (p.goto phase).admitted = 0) (hdue : (p.goto phase).due = 0)
    (hposting : (p.goto phase).posting = false) : PacedMove p (p.goto phase) false := .idle hadmitted hdue hposting

theorem revert_idle (raised : Bool) :
    (p.revert raised).admitted = 0 ∧ (p.revert raised).due = 0 ∧ (p.revert raised).posting = false ∧
      (p.revert raised).WellPlaced := by
  unfold Pipeline.revert Pipeline.goto revertAll Pipeline.admitted Pipeline.due Pipeline.posting Pipeline.WellPlaced
  cases p.priorStates.filter (· ∈ revertible) <;> exact ⟨rfl, rfl, rfl, trivial⟩

/-- The next action of a pipeline: its order is posted. -/
theorem executing_due (actions : List Action) :
    (p.goto (.executing actions)).due + (if (p.goto (.executing actions)).posting then 1 else 0) =
      (placeOrders actions).length := by
  cases actions with
  | nil => rfl
  | cons action left => cases action <;> rfl

theorem placeOrders_pass_length (filter : Filter) (actions : List Action) :
    (placeOrders (actions.map (filter.pass manualEntryOnly answer))).length ≤ (placeOrders actions).length := by
  induction actions with
  | nil => exact le_rfl
  | cons action actions ih =>
    have hone : ∀ o, (filter.pass manualEntryOnly answer action).order = some o → action.order = some o :=
      fun o => pass_order
    unfold placeOrders at ih ⊢
    rw [List.map_cons, List.filterMap_cons, List.filterMap_cons]
    cases hpass : (filter.pass manualEntryOnly answer action).order with
    | none =>
      cases haction : action.order with
      | none => exact ih
      | some o => exact ih.trans (Nat.le_succ _)
    | some o =>
      rw [hone o hpass]
      exact Nat.succ_le_succ ih

theorem finish_idle (p : Pipeline) (s : Shared) :
    (p.finish s).2.admitted = 0 ∧ (p.finish s).2.due = 0 ∧ (p.finish s).2.posting = false ∧ (p.finish s).2.WellPlaced := by
  unfold Pipeline.finish
  cases s.lastCmdId with
  | none =>
    dsimp only
    split
    · exact ⟨rfl, rfl, rfl, trivial⟩
    · exact revert_idle false
  | some cmdId =>
    dsimp only
    split <;> exact ⟨rfl, rfl, rfl, trivial⟩

theorem execute_paced {action : Action} {left : List Action} (hphase : p.phase = .executing (action :: left)) :
    PacedMove p (p.execute s answer left action).2.1 ((p.execute s answer left action).2.2.any (·.isGated)) := by
  have hgoes : PacedMove p (p.goto (.executing left)) false := by
    refine .quiet (Nat.zero_le _) ?_
    rw [executing_due, Pipeline.due, hphase]
  have hback : PacedMove p (p.goto .rollingBack) false := .goto rfl rfl rfl
  cases action with
  | placeOrder order =>
    unfold Pipeline.execute
    cases answer.raises with
    | true => cases answer.delivered <;> exact hback
    | false => exact hgoes
  | cancelOrder tradeSerial =>
    unfold Pipeline.execute
    cases answer.raises with
    | true => exact hback
    | false => exact hgoes
  | updateState fields => exact hgoes
  | report => exact hgoes

theorem execute_wellPlaced (action : Action) (left : List Action) :
    (p.execute s answer left action).2.1.WellPlaced := by
  cases action with
  | placeOrder order => unfold Pipeline.execute; cases answer.raises <;> trivial
  | cancelOrder tradeSerial => unfold Pipeline.execute; cases answer.raises <;> trivial
  | updateState fields => trivial
  | report => trivial

/-- The state is read for an order. -/
theorem reading_paced {order : PlaceOrder} {rest : List PlaceOrder} (hphase : p.phase = .reading order rest)
    (hplaced : p.WellPlaced) (state : BotState) :
    PacedMove p { p with priorStates := p.priorStates ++ [state], phase := .gating order rest } false ∧
      Pipeline.WellPlaced { p with priorStates := p.priorStates ++ [state], phase := .gating order rest } := by
  unfold Pipeline.WellPlaced at hplaced
  rw [hphase] at hplaced
  refine ⟨.quiet ?_ (Nat.zero_le _), ?_, by simp⟩
  · unfold Pipeline.admitted
    rw [hphase]
    dsimp only
    rw [List.length_append, List.length_singleton]
    cases p.priorStates with
    | nil => exact le_rfl
    | cons prior priors => exact le_of_eq (if_neg (by simp))
  · show p.orders.length = (p.priorStates ++ [state]).length + rest.length
    rw [List.length_append, List.length_singleton]
    omega

/-- The gate of an order that passes: the next one is doomed, or this one is due. -/
theorem nextOrder_due {order : PlaceOrder} {rest : List PlaceOrder} (hphase : p.phase = .gating order rest)
    (hplaced : p.WellPlaced) (doc : BotDoc) :
    (p.nextOrder doc rest).admitted = 0 ∧ (p.nextOrder doc rest).posting = false ∧ (p.nextOrder doc rest).WellPlaced ∧
      (p.priorStates.length ≤ 1 → (p.nextOrder doc rest).due ≤ 1) := by
  unfold Pipeline.WellPlaced at hplaced
  rw [hphase] at hplaced
  obtain ⟨hlength, hne⟩ := hplaced
  cases rest with
  | nil =>
    refine ⟨rfl, rfl, trivial, fun hone => ?_⟩
    show p.orders.length ≤ 1
    rw [hlength]
    exact hone
  | cons next rest =>
    refine ⟨if_neg hne, rfl, ?_, fun _ => Nat.zero_le _⟩
    show p.orders.length = p.priorStates.length + rest.length + 1
    rw [hlength]
    rfl

/-- An order that passes its gate is the one that was admitted. -/
theorem gated_paced {order : PlaceOrder} {rest : List PlaceOrder} (hphase : p.phase = .gating order rest)
    (hplaced : p.WellPlaced) (hfirst : p.priorStates.length ≤ 1) (doc : BotDoc) :
    PacedMove p (p.nextOrder doc rest) true ∧ (p.nextOrder doc rest).WellPlaced := by
  obtain ⟨hadmitted, hposting, hnext, hdue⟩ := nextOrder_due hphase hplaced doc
  refine ⟨.gated ?_ hadmitted (hdue hfirst) hposting, hnext⟩
  unfold Pipeline.admitted
  rw [hphase]
  exact if_pos hfirst

/-- Past the limit, a step is one of the moves. -/
theorem step_paced (manualEntryOnly : Bool) (s : Shared) (answer : Answer) (hchecking : p.phase ≠ .checking)
    (hplaced : p.WellPlaced)
    (hgate : ∀ order rest, p.phase = .gating order rest →
      p.priorStates.length ≤ 1 ∨ answer.raises = true ∨ order.gate answer.tradeSerial s.doc = none) :
    PacedMove p (p.step manualEntryOnly s answer).2.1 ((p.step manualEntryOnly s answer).2.2.any (·.isGated)) ∧
      (p.step manualEntryOnly s answer).2.1.WellPlaced := by
  have hback : PacedMove p (p.goto .rollingBack) false := .goto rfl rfl rfl
  have hdone : PacedMove p (p.goto (.done true)) false := .goto rfl rfl rfl
  have hrevert : ∀ raised, PacedMove p (p.revert raised) false ∧ (p.revert raised).WellPlaced := fun raised =>
    ⟨.idle (revert_idle raised).1 (revert_idle raised).2.1 (revert_idle raised).2.2.1, (revert_idle raised).2.2.2⟩
  unfold Pipeline.step
  cases hphase : p.phase with
  | checking => exact absurd hphase hchecking
  | reading order rest =>
    cases answer.raises with
    | true => exact ⟨hdone, trivial⟩
    | false => exact reading_paced hphase hplaced s.doc.state
  | gating order rest =>
    cases hraises : answer.raises with
    | true => exact ⟨hdone, trivial⟩
    | false =>
      cases hgated : order.gate answer.tradeSerial s.doc with
      | none =>
        have hrefused : PacedMove p (p.goto (.done true)) false ∧ (p.goto (.done true)).WellPlaced := ⟨hdone, trivial⟩
        simpa [hgated] using hrefused
      | some r =>
        have hfirst : p.priorStates.length ≤ 1 := by
          rcases hgate order rest hphase with hone | hraise | hnone
          · exact hone
          · rw [hraises] at hraise
            cases hraise
          · rw [hgated] at hnone
            cases hnone
        have hpassed := gated_paced hphase hplaced hfirst r.1
        simpa [hgated, PipelineEvent.isGated] using hpassed
  | filtering left actions =>
    cases left with
    | nil =>
      refine ⟨.quiet (Nat.zero_le _) ?_, trivial⟩
      unfold Pipeline.due
      rw [hphase]
      exact le_rfl
    | cons filter left =>
      cases answer.raises with
      | true => exact hrevert true
      | false =>
        refine ⟨.quiet (Nat.zero_le _) ?_, trivial⟩
        unfold Pipeline.due
        rw [hphase]
        exact placeOrders_pass_length filter actions
  | persisting left actions =>
    cases left with
    | nil =>
      cases answer.raises with
      | true => exact ⟨hback, trivial⟩
      | false =>
        have hgoes : PacedMove p (p.goto (.executing actions)) false := by
          refine .quiet (Nat.zero_le _) ?_
          rw [executing_due, Pipeline.due, hphase]
        exact ⟨hgoes, trivial⟩
    | cons action left =>
      have hgoes : PacedMove p (p.goto (.persisting left actions)) false := by
        refine .quiet (Nat.zero_le _) ?_
        unfold Pipeline.due
        rw [hphase]
        exact le_rfl
      cases action with
      | updateState fields =>
        cases answer.raises with
        | true => exact hrevert true
        | false => exact ⟨hgoes, trivial⟩
      | placeOrder order => exact ⟨hgoes, trivial⟩
      | cancelOrder tradeSerial => exact ⟨hgoes, trivial⟩
      | report => exact ⟨hgoes, trivial⟩
  | executing left =>
    cases left with
    | nil =>
      obtain ⟨hadmitted, hdue, hposting, hnext⟩ := finish_idle p s
      exact ⟨.idle hadmitted hdue hposting, hnext⟩
    | cons action left => exact ⟨execute_paced hphase, execute_wellPlaced action left⟩
  | rollingBack => exact hrevert true
  | capturing cmdId =>
    cases answer.raises with
    | true => exact hrevert true
    | false => exact ⟨.goto rfl rfl rfl, trivial⟩
  | reverting prior rest raised =>
    have hrest : PacedMove p (p.goto (revertAll raised rest)) false ∧ (p.goto (revertAll raised rest)).WellPlaced := by
      unfold revertAll
      cases rest <;> exact ⟨.goto rfl rfl rfl, trivial⟩
    cases answer.raises <;> exact hrest
  | done raised => exact ⟨.goto rfl rfl rfl, trivial⟩

/-- At the limit a pipeline ends, or is admitted with its first order. -/
theorem step_checking (manualEntryOnly : Bool) (s : Shared) (answer : Answer) (hphase : p.phase = .checking)
    (hplaced : p.WellPlaced) :
    let r := p.step manualEntryOnly s answer
    r.2.2 = [] ∧ r.2.1.WellPlaced ∧ r.2.1.due = 0 ∧ r.2.1.posting = false ∧
      r.2.1.admitted ≤ if answer.tripped then 0 else 1 := by
  unfold Pipeline.WellPlaced at hplaced
  rw [hphase] at hplaced
  dsimp only
  unfold Pipeline.step
  rw [hphase]
  dsimp only
  cases answer.tripped with
  | true => exact ⟨rfl, trivial, rfl, rfl, le_rfl⟩
  | false =>
    refine ⟨rfl, ?_⟩
    cases horders : p.orders with
    | nil => exact ⟨trivial, by rw [← List.length_eq_zero_iff] at horders; exact horders, rfl, Nat.zero_le _⟩
    | cons order rest =>
      refine ⟨?_, rfl, rfl, ?_⟩
      · show p.orders.length = p.priorStates.length + rest.length + 1
        rw [horders, hplaced, List.length_cons, List.length_nil, Nat.zero_add]
      · show (if p.priorStates = [] then 1 else 0) ≤ 1
        split <;> omega

end Pipelines

-- ============================================================================
-- The bot
-- ============================================================================

/-- The pipelines that have passed the limit. -/
def admitted (pipelines : List Pipeline) : ℕ := (pipelines.map Pipeline.admitted).sum

/-- The orders that are yet to be posted. -/
def due (pipelines : List Pipeline) : ℕ := (pipelines.map Pipeline.due).sum

/-- The bot is within its limit, with at most one pipeline on its way. -/
structure RatedBot.Kept (config : RateConfig) (b : RatedBot) : Prop where
  placed : ∀ p ∈ b.fleet.pipelines, p.WellPlaced
  paced : Paced config.settings.limitCount config.settings.window b.now (b.cleared ++ b.recentSubmitTimes) b.submitted
    (admitted b.fleet.pipelines) (due b.fleet.pipelines)

section Kept

variable {config : RateConfig} {b : RatedBot} {p p' : Pipeline} {pid : ℕ}

theorem limitCount_pos (settings : RateSettings) : 0 < settings.limitCount := by
  unfold RateSettings.limitCount
  cases hcount : settings.count.filter (· ≠ 0) with
  | none => decide
  | some count =>
    have hne : count ≠ 0 := by simpa using (Option.filter_eq_some_iff.mp hcount).2
    exact Nat.pos_of_ne_zero hne

theorem RatedBot.init_kept (config : RateConfig) (doc : BotDoc) (now : ℚ) : (RatedBot.init doc now).Kept config where
  placed := fun _ hp => absurd hp List.not_mem_nil
  paced := .fresh config.settings.window now (limitCount_pos config.settings)

theorem placed_set {pipelines : List Pipeline} (hplaced : ∀ p ∈ pipelines, p.WellPlaced) (hnext : p'.WellPlaced) :
    ∀ q ∈ pipelines.set pid p', q.WellPlaced := by
  intro q hq
  rcases List.mem_or_eq_of_mem_set hq with hin | rfl
  · exact hplaced q hin
  · exact hnext

section Paced

variable {limit : ℕ} {window now : ℚ} {cleared recent submitted : List ℚ} {pipelines : List Pipeline}

theorem admitted_set (hp : pipelines[pid]? = some p) (p' : Pipeline) :
    admitted (pipelines.set pid p') + p.admitted = admitted pipelines + p'.admitted :=
  sum_map_set Pipeline.admitted p' hp

theorem due_set (hp : pipelines[pid]? = some p) (p' : Pipeline) :
    due (pipelines.set pid p') + p.due = due pipelines + p'.due :=
  sum_map_set Pipeline.due p' hp

/-- A pipeline past the limit goes on. -/
theorem paced_moved (h : Paced limit window now (cleared ++ recent) submitted (admitted pipelines) (due pipelines))
    (hp : pipelines[pid]? = some p) {gated : Bool} (hmove : PacedMove p p' gated) :
    Paced limit window now (cleared ++ if gated then recent ++ [now] else recent)
      (if p'.posting then submitted ++ [now] else submitted) (admitted (pipelines.set pid p'))
      (due (pipelines.set pid p')) := by
  have hadmitted := admitted_set hp p'
  have hdue := due_set hp p'
  have halone := h.alone
  cases hmove with
  | quiet hless hleft =>
    cases hposting : p'.posting with
    | false =>
      rw [hposting] at hleft
      have hleft' : p'.due ≤ p.due := hleft
      exact h.drop (by omega) (by omega)
    | true =>
      rw [hposting, if_pos rfl] at hleft
      obtain ⟨hnone, hone⟩ : admitted pipelines = 0 ∧ due pipelines = 1 := by omega
      rw [hnone, hone] at h
      exact h.hand.drop (by omega) (by omega)
  | gated hone hpassed hdueNext hposting =>
    obtain ⟨hfirst, hnone⟩ : admitted pipelines = 1 ∧ due pipelines = 0 := by omega
    rw [hfirst, hnone] at h
    have hrecorded := h.record
    rw [List.append_assoc] at hrecorded
    rw [hposting]
    exact hrecorded.drop (by omega) (by omega)

/-- A pipeline comes to the limit: it trips, or no other is on its way. -/
theorem paced_checked {settings : RateSettings}
    (h : Paced settings.limitCount settings.window now (cleared ++ recent) submitted (admitted pipelines) (due pipelines))
    (hp : pipelines[pid]? = some p) (hdue : p'.due = 0)
    (hadmitted : p'.admitted ≤ if (checkOrderRateLimit settings now recent).2 then 0 else 1)
    (hrestrained : (checkOrderRateLimit settings now recent).2 = true ∨
      (∀ q ∈ pipelines, q.admitted + q.due = 0) ∧ ∀ t ∈ cleared, t < now - settings.window) :
    Paced settings.limitCount settings.window now (cleared ++ (checkOrderRateLimit settings now recent).1) submitted
      (admitted (pipelines.set pid p')) (due (pipelines.set pid p')) := by
  have hadmitted_set := admitted_set hp p'
  have hdue_set := due_set hp p'
  have hpruned : Paced settings.limitCount settings.window now (cleared ++ (checkOrderRateLimit settings now recent).1)
      submitted (admitted pipelines) (due pipelines) :=
    h.congr fun a ha => by rw [since_append, since_append, checkOrderRateLimit, since_filter ha]
  cases htripped : (checkOrderRateLimit settings now recent).2 with
  | true =>
    rw [htripped] at hadmitted
    have hnone : p'.admitted ≤ 0 := hadmitted
    exact hpruned.drop (by omega) (by omega)
  | false =>
    rw [htripped] at hadmitted hrestrained
    have hone : p'.admitted ≤ 1 := hadmitted
    obtain ⟨hothers, hcleared⟩ := hrestrained.resolve_left Bool.false_ne_true
    have hfree : admitted pipelines = 0 :=
      List.sum_eq_zero_iff_forall_eq_nat.mpr (List.forall_mem_map.mpr fun q hq => by have := hothers q hq; omega)
    have hidle : due pipelines = 0 :=
      List.sum_eq_zero_iff_forall_eq_nat.mpr (List.forall_mem_map.mpr fun q hq => by have := hothers q hq; omega)
    rw [hfree, hidle] at hpruned
    have hroom : (checkOrderRateLimit settings now recent).1.length + 1 < settings.limitCount := by
      unfold checkOrderRateLimit at htripped ⊢
      simpa using htripped
    have hsince := since_le_length (now - settings.window) (checkOrderRateLimit settings now recent).1
    have hgone : since (now - settings.window) cleared = 0 := since_eq_zero hcleared
    have hadmit := hpruned.admit (by rw [since_append, hgone]; omega)
    exact hadmit.drop (by omega) (by omega)

end Paced

theorem RatedBot.resume_none (hp : b.fleet.pipelines[pid]? = none) (answer : Answer) : b.resume config pid answer = b := by
  unfold RatedBot.resume
  rw [hp]

/-- At the limit the answer is the one of the check. -/
theorem RatedBot.resume_checking (hp : b.fleet.pipelines[pid]? = some p) (hphase : p.phase = .checking) (answer : Answer) :
    b.resume config pid answer =
      let check := checkOrderRateLimit config.settings b.now b.recentSubmitTimes
      let r := p.step config.fleet.manualEntryOnly b.fleet.shared { answer with tripped := check.2 }
      { b with
        fleet := { shared := r.1, pipelines := b.fleet.pipelines.set pid r.2.1 }
        recentSubmitTimes := if r.2.2.any (·.isGated) then check.1 ++ [b.now] else check.1
        trips := if check.2 then b.trips + 1 else b.trips
        submitted := if r.2.1.posting then b.submitted ++ [b.now] else b.submitted } := by
  unfold RatedBot.resume
  rw [hp]
  dsimp only
  rw [if_pos hphase]

theorem RatedBot.resume_past (hp : b.fleet.pipelines[pid]? = some p) (hphase : p.phase ≠ .checking) (answer : Answer) :
    b.resume config pid answer =
      let r := p.step config.fleet.manualEntryOnly b.fleet.shared { answer with tripped := false }
      { b with
        fleet := { shared := r.1, pipelines := b.fleet.pipelines.set pid r.2.1 }
        recentSubmitTimes := if r.2.2.any (·.isGated) then b.recentSubmitTimes ++ [b.now] else b.recentSubmitTimes
        submitted := if r.2.1.posting then b.submitted ++ [b.now] else b.submitted } := by
  unfold RatedBot.resume
  rw [hp]
  dsimp only
  rw [if_neg hphase]
  rfl

/-- A pipeline goes on. -/
theorem RatedBot.Kept.resume (h : b.Kept config) (answer : Answer)
    (hrestrained : b.Restrained config (.resume pid answer)) : (b.resume config pid answer).Kept config := by
  cases hp : b.fleet.pipelines[pid]? with
  | none =>
    rw [RatedBot.resume_none hp]
    exact h
  | some p =>
    have hplaced := h.placed p (List.mem_of_getElem? hp)
    have hcondition := hrestrained p hp
    unfold RatedBot.Orderly at hcondition
    by_cases hphase : p.phase = .checking
    · rw [hphase] at hcondition
      rw [RatedBot.resume_checking hp hphase]
      obtain ⟨hevents, hnext, hdue, hposting, hadmitted⟩ := step_checking config.fleet.manualEntryOnly b.fleet.shared
        { answer with tripped := (checkOrderRateLimit config.settings b.now b.recentSubmitTimes).2 } hphase hplaced
      refine ⟨placed_set h.placed hnext, ?_⟩
      dsimp only
      rw [hevents, hposting]
      exact paced_checked h.paced hp hdue hadmitted hcondition
    · rw [RatedBot.resume_past hp hphase]
      obtain ⟨hmove, hnext⟩ := step_paced config.fleet.manualEntryOnly b.fleet.shared
        { answer with tripped := false } hphase hplaced fun order rest hgating => by
          rw [hgating] at hcondition
          exact hcondition
      exact ⟨placed_set h.placed hnext, paced_moved h.paced hp hmove⟩

/-- A restrained step keeps the bot within its limit. -/
theorem RatedBot.Kept.next (h : b.Kept config) (input : RatedInput) (hrestrained : b.Restrained config input) :
    (b.next config input).Kept config := by
  cases input with
  | pass seconds => exact ⟨h.placed, h.paced.later (le_add_of_nonneg_right seconds.2)⟩
  | lifecycle t =>
    have hsame : (b.fleet.lifecycle config.fleet t).1.pipelines = b.fleet.pipelines := by
      unfold Fleet.lifecycle
      split
      · rfl
      · split <;> rfl
    exact ⟨hsame.symm ▸ h.placed, hsame.symm ▸ h.paced⟩
  | runPipeline actions =>
    refine ⟨fun q hq => ?_, ?_⟩
    · rcases List.mem_append.mp hq with hin | hnew
      · exact h.placed q hin
      · rw [List.mem_singleton.mp hnew]
        exact start_wellPlaced actions _
    · have hadmitted : admitted (b.fleet.pipelines ++ [.start actions b.fleet.shared.doc]) = admitted b.fleet.pipelines := by
        simp [admitted, start_admitted]
      have hdue : due (b.fleet.pipelines ++ [.start actions b.fleet.shared.doc]) = due b.fleet.pipelines := by
        simp [due, start_due]
      show Paced _ _ _ _ _ (admitted (b.fleet.pipelines ++ _)) (due (b.fleet.pipelines ++ _))
      rw [hadmitted, hdue]
      exact h.paced
  | resume pid answer =>
    exact h.resume answer hrestrained
  | clear =>
    show RatedBot.Kept config (if b.trips = 0 then b else _)
    split
    · exact h
    · refine ⟨h.placed, ?_⟩
      show Paced _ _ _ ((b.cleared ++ b.recentSubmitTimes) ++ []) _ _ _
      rw [List.append_nil]
      exact h.paced
  | handleRetry k =>
    have hnone : ∀ args ∈ b.retries[k]?, handleRetryExitOrder config.engine args = none := hrestrained
    show RatedBot.Kept config (match b.retries[k]? with | none => b | some args => _)
    cases hk : b.retries[k]? with
    | none => exact h
    | some args =>
      have hsame := hnone args hk
      refine ⟨h.placed, ?_⟩
      dsimp only
      rw [hsame]
      exact h.paced

end Kept

/-- Whatever happens when: in no window more orders are posted than the limit says, as long
    as a pipeline passes the limit only while no other is between the limit and its post and
    nothing that was cleared is in the window, no second order of a pipeline passes its gate
    and no retry is posted. -/
theorem submitted_le (config : RateConfig) {count : ℕ} {seconds : ℚ} (hcount : config.settings.count = some count)
    (hseconds : config.settings.windowSeconds = some seconds) (hne : count ≠ 0) (doc : BotDoc) (now : ℚ)
    (inputs : List RatedInput) (h : Along (RatedBot.next config) (RatedBot.Restrained config) (.init doc now) inputs)
    (start : ℚ) :
    between start (start + seconds) (inputs.foldl (RatedBot.next config) (.init doc now)).submitted ≤ count := by
  have hkept : (inputs.foldl (RatedBot.next config) (.init doc now)).Kept config :=
    Along.invariant (I := RatedBot.Kept config) (fun _ input hkept hrestrained => hkept.next input hrestrained) inputs
      (RatedBot.init_kept config doc now) h
  have hlimit : config.settings.limitCount = count := by
    rw [RateSettings.limitCount, hcount]
    simp [Option.filter, hne]
  have hwindow : seconds ≤ config.settings.window := by
    rw [RateSettings.window, hseconds]
    by_cases hzero : seconds = 0 <;> simp [Option.filter, hzero]
  have hbounded := hkept.paced.bounded start
  rw [hlimit] at hbounded
  exact (between_mono (by linarith) start _).trans hbounded

section Examples

/-- Three orders in two seconds. -/
def threeInTwoSeconds : RateConfig where
  engine := { engineUrl := some "engine" }
  settings := { count := some 3, windowSeconds := some 2 }

/-- A pipeline with one order, until it is posted. -/
def postOrder (pid : ℕ) (side origin : String) : List RatedInput :=
  .runPipeline [.placeOrder { symbol := "MES", side, qty := 10, origin }] :: List.replicate 10 (.resume pid {})

/-- The entry and the exit of a round, half a second apart. -/
def entryAndExit : List RatedInput :=
  postOrder 0 "BUY" "strategy" ++
    [.lifecycle (.entryFilled { qty := 10, price := 100, terminal := true, side := "BUY", commission := 0 }), .pass (1 / 2)] ++
    postOrder 1 "SELL" "exit"

/-- An exit that ends with some of the position left, and its retry. -/
def retryAfter (filled : ℚ) : List RatedInput :=
  [.lifecycle (.exitFilled { qty := filled, price := 99, terminal := true, side := "SELL", commission := 0 }), .handleRetry 0]

theorem submitted_le_entryAndExit :
    between 0 (0 + 2) (entryAndExit.foldl (RatedBot.next threeInTwoSeconds)
      (.init { state := .awaitingEntryTrigger } 0)).submitted ≤ 3 :=
  submitted_le threeInTwoSeconds rfl rfl (by decide) { state := .awaitingEntryTrigger } 0 entryAndExit (by decide +kernel) 0

/-- The exit is filled in part, and so is its first retry. -/
theorem submitted_le_fails : ¬ ∀ (config : RateConfig) (count : ℕ) (seconds : ℚ), config.settings.count = some count →
    config.settings.windowSeconds = some seconds → count ≠ 0 → ∀ (doc : BotDoc) (now : ℚ) (inputs : List RatedInput) (start : ℚ),
    between start (start + seconds) (inputs.foldl (RatedBot.next config) (.init doc now)).submitted ≤ count := by
  intro h
  have hle := h threeInTwoSeconds 3 2 rfl rfl (by decide) { state := .awaitingEntryTrigger } 0
    (entryAndExit ++ retryAfter 4 ++ retryAfter 2) 0
  exact absurd hle (by decide +kernel)

end Examples

end IbTrader.Bots.Runtime
