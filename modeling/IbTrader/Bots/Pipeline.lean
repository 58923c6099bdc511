/-
  IbTrader.Bots.Pipeline

  `_run_pipeline` of `StrategyBotRunner` and the middleware chain it runs
  (`ib_trader/bots/runtime.py`, `ib_trader/bots/middleware.py`).

  A pipeline is suspended at an await; `Pipeline.step` resumes it there with what
  the await answers and runs it to the next one.  The bot document and the last
  command id of the execution middleware are shared with everything else that
  runs.  A read-modify-write of the document is one step of the pipeline; the fleet
  of pipelines takes its two accesses apart (`LiveFleet.resume`).  Logging, alerts
  and the contents of the requests are left out.
-/

import IbTrader.Bots.StateWriters

namespace IbTrader.Bots.Runtime

-- ============================================================================
-- Actions
-- ============================================================================

/-- `PlaceOrder`. -/
structure PlaceOrder where
  symbol : String
  side : String
  qty : ℚ
  orderType : String := "mid"
  origin : String := "strategy"
  deriving DecidableEq, Repr

inductive Action where
  | placeOrder (order : PlaceOrder)
  | cancelOrder (tradeSerial : ℤ)
  | updateState (fields : StateFields)
  /-- `LogSignal` and `EmitAudit`. -/
  | report
  deriving DecidableEq, Repr

def Action.order : Action → Option PlaceOrder
  | .placeOrder order => some order
  | .cancelOrder _ | .updateState _ | .report => none

/-- The orders among some actions. -/
def placeOrders (actions : List Action) : List PlaceOrder := actions.filterMap Action.order

/-- What an await answers. -/
structure Answer where
  /-- It raises. -/
  raises : Bool := false
  /-- The rate limit is exceeded. -/
  tripped : Bool := false
  /-- The serial in the context's state. -/
  tradeSerial : Option ℤ := none
  /-- `_can_trade`. -/
  canTrade : PlaceOrder → Bool := fun _ => true
  /-- The order id in the engine's response. -/
  ibOrderId : Option String := none
  /-- A request that raises has reached the engine all the same. -/
  delivered : Bool := false

-- ============================================================================
-- The middlewares
-- ============================================================================

/-- The middlewares before the persistence one. -/
inductive Filter where
  | manualEntry
  | risk
  | logging
  | audit
  deriving DecidableEq, Repr

/-- The middlewares of `on_startup`, in their order. -/
def filters : List Filter := [.manualEntry, .risk, .logging, .audit]

/-- What a filter makes of an action: an order it blocks becomes a `LogSignal`. -/
def Filter.pass (manualEntryOnly : Bool) (answer : Answer) : Filter → Action → Action
  | .manualEntry, .placeOrder order =>
    if manualEntryOnly ∧ order.origin = "strategy" then .report else .placeOrder order
  | .risk, .placeOrder order =>
    -- only BUY orders go through the risk checks
    if order.side = "BUY" ∧ answer.canTrade order = false then .report else .placeOrder order
  | _, action => action

-- ============================================================================
-- The pipeline
-- ============================================================================

/-- Where a pipeline is suspended. -/
inductive Phase where
  /-- Before the rate limit. -/
  | checking
  /-- Before reading the state for the first of the orders. -/
  | reading (order : PlaceOrder) (rest : List PlaceOrder)
  /-- Before placing it. -/
  | gating (order : PlaceOrder) (rest : List PlaceOrder)
  /-- Before a filter. -/
  | filtering (left : List Filter) (actions : List Action)
  /-- In the persistence middleware. -/
  | persisting (left actions : List Action)
  /-- In the execution middleware. -/
  | executing (left : List Action)
  /-- Before the rollback of the written state. -/
  | rollingBack
  /-- Before the order id is written. -/
  | capturing (cmdId : String)
  /-- Before the next revert. -/
  | reverting (prior : BotState) (rest : List BotState) (raised : Bool)
  | done (raised : Bool)
  deriving DecidableEq, Repr

/-- A run of `_run_pipeline`. -/
structure Pipeline where
  actions : List Action
  /-- `prior_states`. -/
  priorStates : List BotState := []
  /-- `state_snapshot`. -/
  snapshot : BotDoc := {}
  phase : Phase
  deriving DecidableEq, Repr

/-- What pipelines and the rest of the bot share. -/
structure Shared where
  doc : BotDoc := {}
  /-- `ExecutionMiddleware.last_cmd_id`. -/
  lastCmdId : Option String := none
  deriving DecidableEq, Repr

/-- What a pipeline does that others can see. -/
inductive PipelineEvent where
  /-- An order has passed `on_place_entry_order` or `on_place_exit_order`. -/
  | gated (order : PlaceOrder)
  /-- An order has reached the execution stage. -/
  | executed (order : PlaceOrder)
  /-- An order was handed to the engine. -/
  | handed (order : PlaceOrder)
  /-- The state was reverted. -/
  | reverted (prior : BotState)
  deriving DecidableEq, Repr

def Pipeline.orders (p : Pipeline) : List PlaceOrder := placeOrders p.actions

def Pipeline.goto (p : Pipeline) (phase : Phase) : Pipeline := { p with phase }

/-- The middleware chain is entered. -/
def Pipeline.process (p : Pipeline) (doc : BotDoc) : Pipeline :=
  { p with snapshot := doc, phase := .filtering filters p.actions }

/-- `_run_pipeline` up to its first await. -/
def Pipeline.start (actions : List Action) (doc : BotDoc) : Pipeline :=
  if placeOrders actions = [] then
    { actions, snapshot := doc, phase := .filtering filters actions }
  else { actions, phase := .checking }

/-- The states a pipeline goes back to. -/
def revertible : List BotState := [.awaitingEntryTrigger, .awaitingExitTrigger]

/-- Every state before an order is restored, then the pipeline ends. -/
def revertAll (raised : Bool) : List BotState → Phase
  | [] => .done raised
  | prior :: rest => .reverting prior rest raised

def Pipeline.revert (p : Pipeline) (raised : Bool) : Pipeline :=
  p.goto (revertAll raised (p.priorStates.filter (· ∈ revertible)))

/-- Is the order routed to `on_place_exit_order`? -/
def PlaceOrder.isExit (order : PlaceOrder) : Bool := order.origin = "exit"

/-- The transition that gates an order. -/
def PlaceOrder.gate (order : PlaceOrder) (tradeSerial : Option ℤ) : Handler :=
  if order.isExit then onPlaceExitOrder order.qty order.origin (some pendingOrderId)
  else onPlaceEntryOrder order.symbol order.qty order.origin (some pendingOrderId) tradeSerial

/-- After an order passed its gate: the next one, or the middleware chain. -/
def Pipeline.nextOrder (p : Pipeline) (doc : BotDoc) : List PlaceOrder → Pipeline
  | [] => p.process doc
  | order :: rest => p.goto (.reading order rest)

/-- `rollback_fn(state_snapshot)`: everything but the state is written back. -/
def rollback (snapshot doc : BotDoc) : BotDoc := { snapshot with state := doc.state }

/-- The end of the middleware chain: the command id is taken, wherever it is from. -/
def Pipeline.finish (p : Pipeline) (s : Shared) : Shared × Pipeline :=
  let next :=
    match s.lastCmdId with
    | some cmdId => if p.orders = [] then p.goto (.done false) else p.goto (.capturing cmdId)
    | none => if p.orders = [] then p.goto (.done false) else p.revert false
  ({ s with lastCmdId := none }, next)

/-- The execution middleware on one action. -/
def Pipeline.execute (p : Pipeline) (s : Shared) (answer : Answer) (left : List Action) :
    Action → Shared × Pipeline × List PipelineEvent
  | .placeOrder order =>
    if answer.raises then
      (s, p.goto .rollingBack, .executed order :: if answer.delivered then [.handed order] else [])
    else
      ({ s with lastCmdId := answer.ibOrderId }, p.goto (.executing left),
        [.executed order, .handed order])
  | .cancelOrder _ =>
    if answer.raises then (s, p.goto .rollingBack, []) else (s, p.goto (.executing left), [])
  | .updateState _ | .report => (s, p.goto (.executing left), [])

/-- The pipeline goes on from where it is suspended. -/
def Pipeline.step (manualEntryOnly : Bool) (s : Shared) (p : Pipeline) (answer : Answer) :
    Shared × Pipeline × List PipelineEvent :=
  match p.phase with
  | .checking =>
    if answer.tripped then
      -- the bot is stopped before the exception
      ({ s with doc := (handled onStop s.doc).1 }, p.goto (.done true), [])
    else (s, p.nextOrder s.doc p.orders, [])
  | .reading order rest =>
    if answer.raises then (s, p.goto (.done true), [])
    else
      (s, { p with priorStates := p.priorStates ++ [s.doc.state], phase := .gating order rest }, [])
  | .gating order rest =>
    if answer.raises then (s, p.goto (.done true), [])
    else
      match order.gate answer.tradeSerial s.doc with
      -- a refused order raises, outside the try
      | none => (s, p.goto (.done true), [])
      | some (doc, _) => ({ s with doc }, p.nextOrder doc rest, [.gated order])
  | .filtering [] actions => (s, p.goto (.persisting actions actions), [])
  | .filtering (filter :: left) actions =>
    if answer.raises then (s, p.revert true, [])
    else (s, p.goto (.filtering left (actions.map (filter.pass manualEntryOnly answer))), [])
  | .persisting [] actions =>
    -- the engine URL is not configured
    if answer.raises then (s, p.goto .rollingBack, []) else (s, p.goto (.executing actions), [])
  | .persisting (.updateState fields :: left) actions =>
    if answer.raises then (s, p.revert true, [])
    else ({ s with doc := writeState fields s.doc }, p.goto (.persisting left actions), [])
  | .persisting (_ :: left) actions => (s, p.goto (.persisting left actions), [])
  | .executing [] =>
    let (s, p) := p.finish s
    (s, p, [])
  | .executing (action :: left) => p.execute s answer left action
  | .rollingBack =>
    let doc := if answer.raises then s.doc else rollback p.snapshot s.doc
    ({ s with doc }, p.revert true, [])
  | .capturing cmdId =>
    if answer.raises then (s, p.revert true, [])
    else ({ s with doc := (handled (captureOrderId cmdId) s.doc).1 }, p.goto (.done false), [])
  | .reverting prior rest raised =>
    -- a revert that fails is logged
    if answer.raises then (s, p.goto (revertAll raised rest), [])
    else
      ({ s with doc := (handled (revertToState prior) s.doc).1 }, p.goto (revertAll raised rest),
        [.reverted prior])
  | .done raised => (s, p.goto (.done raised), [])

-- ============================================================================
-- What a step does to the state
-- ============================================================================

/-- The state an order is placed from. -/
def PlaceOrder.originState (order : PlaceOrder) : BotState :=
  if order.isExit then .awaitingExitTrigger else .awaitingEntryTrigger

/-- The state its gate leads to. -/
def PlaceOrder.placedState (order : PlaceOrder) : BotState :=
  if order.isExit then .exitOrderPlaced else .entryOrderPlaced

/-- An order passes its gate from the state it is placed from, and no other. -/
theorem gate_some {order : PlaceOrder} {tradeSerial : Option ℤ} {doc : BotDoc}
    {r : BotDoc × List Effect} (h : order.gate tradeSerial doc = some r) :
    doc.state = order.originState ∧ r.1.state = order.placedState := by
  unfold PlaceOrder.gate at h
  unfold PlaceOrder.originState PlaceOrder.placedState
  cases hexit : order.isExit with
  | true =>
    simp only [hexit, if_true, onPlaceExitOrder] at h ⊢
    split at h
    · obtain rfl := Option.some.inj h
      exact ⟨by assumption, rfl⟩
    · cases h
  | false =>
    simp only [hexit, Bool.false_eq_true, if_false, onPlaceEntryOrder] at h ⊢
    split at h
    · obtain rfl := Option.some.inj h
      exact ⟨by assumption, rfl⟩
    · cases h

@[simp] theorem handled_onStop_state (doc : BotDoc) : (handled onStop doc).1.state = .off := by
  unfold handled onStop
  split
  case isTrue h => exact h
  case isFalse => rfl

@[simp] theorem handled_captureOrderId_state (cmdId : String) (doc : BotDoc) :
    (handled (captureOrderId cmdId) doc).1.state = doc.state := by
  unfold handled captureOrderId
  split <;> rfl

@[simp] theorem handled_revertToState_state (prior : BotState) (doc : BotDoc) :
    (handled (revertToState prior) doc).1.state = prior := by
  unfold handled revertToState
  split <;> rfl

/-- What one step of a pipeline does to the state of the bot, and what it shows. -/
inductive StateChange (before : BotState) : BotState → List PipelineEvent → Prop where
  | kept : StateChange before before []
  | executed (order : PlaceOrder) : StateChange before before [.executed order]
  | handed (order : PlaceOrder) : StateChange before before [.executed order, .handed order]
  | stopped : StateChange before .off []
  | gated (order : PlaceOrder) (h : before = order.originState) :
      StateChange before order.placedState [.gated order]
  | reverted (prior : BotState) : StateChange before prior [.reverted prior]

theorem execute_stateChange (p : Pipeline) (s : Shared) (answer : Answer) (left : List Action)
    (action : Action) :
    StateChange s.doc.state (p.execute s answer left action).1.doc.state
      (p.execute s answer left action).2.2 := by
  cases action with
  | placeOrder order =>
    unfold Pipeline.execute
    cases answer.raises with
    | true =>
      cases answer.delivered with
      | true => exact .handed order
      | false => exact .executed order
    | false => exact .handed order
  | cancelOrder tradeSerial => unfold Pipeline.execute; cases answer.raises <;> exact .kept
  | updateState fields => exact .kept
  | report => exact .kept

theorem step_stateChange (manualEntryOnly : Bool) (s : Shared) (p : Pipeline) (answer : Answer) :
    StateChange s.doc.state (p.step manualEntryOnly s answer).1.doc.state
      (p.step manualEntryOnly s answer).2.2 := by
  unfold Pipeline.step
  cases hphase : p.phase with
  | checking =>
    cases answer.tripped with
    | true =>
      have hstop : StateChange s.doc.state (handled onStop s.doc).1.state [] := by
        rw [handled_onStop_state]
        exact .stopped
      exact hstop
    | false => exact .kept
  | reading order rest => cases answer.raises <;> exact .kept
  | gating order rest =>
    cases answer.raises with
    | true => exact .kept
    | false =>
      cases hgate : order.gate answer.tradeSerial s.doc with
      | none => simpa [hgate] using StateChange.kept
      | some r =>
        obtain ⟨hfrom, hto⟩ := gate_some hgate
        simpa [hgate, hto] using StateChange.gated order hfrom
  | filtering left actions =>
    cases left with
    | nil => exact .kept
    | cons filter left => cases answer.raises <;> exact .kept
  | persisting left actions =>
    cases left with
    | nil => cases answer.raises <;> exact .kept
    | cons action left =>
      cases action with
      | updateState fields => cases answer.raises <;> exact .kept
      | placeOrder order => exact .kept
      | cancelOrder tradeSerial => exact .kept
      | report => exact .kept
  | executing left =>
    cases left with
    | nil => exact .kept
    | cons action left => exact execute_stateChange p s answer left action
  | rollingBack => cases answer.raises <;> exact .kept
  | capturing cmdId =>
    cases answer.raises with
    | true => exact .kept
    | false => simpa using StateChange.kept
  | reverting prior rest raised =>
    cases answer.raises with
    | true => exact .kept
    | false => simpa using StateChange.reverted prior
  | done raised => exact .kept

-- ============================================================================
-- Orders are executed after their gate
-- ============================================================================

/-- The orders a pipeline can still execute without another gate have the
    property. -/
def Pipeline.Vetted (gated : PlaceOrder → Prop) (p : Pipeline) : Prop :=
  match p.phase with
  | .reading order rest | .gating order rest =>
    ∃ passed, p.orders = passed ++ order :: rest ∧ ∀ o ∈ passed, gated o
  | .filtering _ actions => ∀ o ∈ placeOrders actions, gated o
  | .persisting _ actions => ∀ o ∈ placeOrders actions, gated o
  | .executing left => ∀ o ∈ placeOrders left, gated o
  | .checking | .rollingBack | .capturing _ | .reverting .. | .done _ => True

theorem start_vetted (gated : PlaceOrder → Prop) (actions : List Action) (doc : BotDoc) :
    (Pipeline.start actions doc).Vetted gated := by
  unfold Pipeline.start
  split
  case isTrue hnone =>
    intro o ho
    rw [hnone] at ho
    cases ho
  case isFalse => trivial

theorem pass_order {manualEntryOnly : Bool} {answer : Answer} {filter : Filter} {action : Action}
    {order : PlaceOrder} (h : (filter.pass manualEntryOnly answer action).order = some order) :
    action.order = some order := by
  cases action with
  | placeOrder o =>
    cases filter with
    | manualEntry =>
      simp only [Filter.pass] at h
      split at h
      · cases h
      · exact h
    | risk =>
      simp only [Filter.pass] at h
      split at h
      · cases h
      · exact h
    | logging => exact h
    | audit => exact h
  | cancelOrder | updateState | report => cases filter <;> exact h

/-- A filter lets no new order through. -/
theorem placeOrders_pass {manualEntryOnly : Bool} {answer : Answer} {filter : Filter}
    {actions : List Action} {order : PlaceOrder}
    (h : order ∈ placeOrders (actions.map (filter.pass manualEntryOnly answer))) :
    order ∈ placeOrders actions := by
  obtain ⟨passed, hpassed, horder⟩ := List.mem_filterMap.mp h
  obtain ⟨action, haction, rfl⟩ := List.mem_map.mp hpassed
  exact List.mem_filterMap.mpr ⟨action, haction, pass_order horder⟩

theorem mem_placeOrders_cons {action : Action} {actions : List Action} {order : PlaceOrder}
    (h : order ∈ placeOrders actions) : order ∈ placeOrders (action :: actions) := by
  obtain ⟨a, ha, horder⟩ := List.mem_filterMap.mp h
  exact List.mem_filterMap.mpr ⟨a, List.mem_cons_of_mem action ha, horder⟩

theorem revert_vetted (gated : PlaceOrder → Prop) (p : Pipeline) (raised : Bool) :
    (p.revert raised).Vetted gated := by
  unfold Pipeline.revert Pipeline.Vetted Pipeline.goto revertAll
  cases p.priorStates.filter (· ∈ revertible) <;> trivial

/-- Where all orders up to here have passed, the pipeline goes on. -/
theorem nextOrder_vetted {gated : PlaceOrder → Prop} {p : Pipeline} {passed rest : List PlaceOrder}
    (h : p.orders = passed ++ rest) (hpassed : ∀ o ∈ passed, gated o) (doc : BotDoc) :
    (p.nextOrder doc rest).Vetted gated := by
  cases rest with
  | nil =>
    rw [List.append_nil] at h
    change ∀ o ∈ p.orders, gated o
    rwa [h]
  | cons order rest => exact ⟨passed, h, hpassed⟩

section Vetted

variable {gated : PlaceOrder → Prop} {p : Pipeline} {s : Shared}

/-- What one step makes of a property of the orders that have passed. -/
structure VettedStep (gated : PlaceOrder → Prop) (p : Pipeline) (events : List PipelineEvent) :
    Prop where
  vetted : p.Vetted fun o => gated o ∨ .gated o ∈ events
  executed : ∀ o, .executed o ∈ events → gated o

/-- A step that shows nothing. -/
theorem VettedStep.quiet (h : p.Vetted gated) : VettedStep gated p [] where
  vetted := by
    have hsame : (fun o => gated o ∨ PipelineEvent.gated o ∈ []) = gated := by
      funext o
      simp
    rw [hsame]
    exact h
  executed := fun o ho => absurd ho List.not_mem_nil

theorem execute_vetted {left : List Action} {action : Action}
    (h : ∀ o ∈ placeOrders (action :: left), gated o) (answer : Answer) :
    VettedStep gated (p.execute s answer left action).2.1 (p.execute s answer left action).2.2 := by
  have hleft : ∀ o ∈ placeOrders left, gated o := fun o ho => h o (mem_placeOrders_cons ho)
  have hgoto : (p.goto (.executing left)).Vetted gated := hleft
  have hback : (p.goto .rollingBack).Vetted gated := trivial
  cases action with
  | placeOrder order =>
    have horder : gated order := h order List.mem_cons_self
    unfold Pipeline.execute
    cases answer.raises with
    | true =>
      refine ⟨trivial, fun o ho => ?_⟩
      have heq : o = order := by cases hd : answer.delivered <;> simpa [hd] using ho
      rw [heq]
      exact horder
    | false =>
      refine ⟨fun o ho => .inl (hleft o ho), fun o ho => ?_⟩
      have heq : o = order := by simpa using ho
      rw [heq]
      exact horder
  | cancelOrder tradeSerial =>
    unfold Pipeline.execute
    cases answer.raises with
    | true => exact .quiet hback
    | false => exact .quiet hgoto
  | updateState fields => exact .quiet hgoto
  | report => exact .quiet hgoto

theorem finish_vetted (gated : PlaceOrder → Prop) (p : Pipeline) (s : Shared) :
    (p.finish s).2.Vetted gated := by
  unfold Pipeline.finish
  cases s.lastCmdId with
  | none =>
    dsimp only
    split
    · trivial
    · exact revert_vetted gated p false
  | some cmdId =>
    dsimp only
    split <;> trivial

/-- A step keeps the orders vetted, and executes only vetted ones. -/
theorem Pipeline.Vetted.step (h : p.Vetted gated) (manualEntryOnly : Bool) (s : Shared)
    (answer : Answer) :
    VettedStep gated (p.step manualEntryOnly s answer).2.1 (p.step manualEntryOnly s answer).2.2 := by
  unfold Pipeline.Vetted at h
  unfold Pipeline.step
  cases hphase : p.phase with
  | checking =>
    cases answer.tripped with
    | true => exact .quiet trivial
    | false => exact .quiet (nextOrder_vetted (List.nil_append p.orders).symm (by simp) s.doc)
  | reading order rest =>
    rw [hphase] at h
    cases answer.raises with
    | true => exact .quiet trivial
    | false => exact .quiet h
  | gating order rest =>
    rw [hphase] at h
    obtain ⟨passed, horders, hpassed⟩ := h
    cases answer.raises with
    | true => exact .quiet trivial
    | false =>
      cases hgate : order.gate answer.tradeSerial s.doc with
      | none =>
        have hdone : (p.goto (.done true)).Vetted gated := trivial
        simpa [hgate] using VettedStep.quiet hdone
      | some r =>
        have hnext : VettedStep gated (p.nextOrder r.1 rest) [.gated order] := by
          have hpassed' : p.orders = (passed ++ [order]) ++ rest := by simp [horders]
          refine ⟨nextOrder_vetted hpassed' ?_ r.1, by simp⟩
          intro o ho
          rcases List.mem_append.mp ho with ho | ho
          · exact .inl (hpassed o ho)
          · exact .inr (by simp [List.mem_singleton.mp ho])
        simpa [hgate] using hnext
  | filtering left actions =>
    rw [hphase] at h
    cases left with
    | nil => exact .quiet h
    | cons filter left =>
      cases answer.raises with
      | true => exact .quiet (revert_vetted gated p true)
      | false => exact .quiet fun o ho => h o (placeOrders_pass ho)
  | persisting left actions =>
    rw [hphase] at h
    cases left with
    | nil =>
      cases answer.raises with
      | true => exact .quiet trivial
      | false => exact .quiet h
    | cons action left =>
      cases action with
      | updateState fields =>
        cases answer.raises with
        | true => exact .quiet (revert_vetted gated p true)
        | false => exact .quiet h
      | placeOrder order => exact .quiet h
      | cancelOrder tradeSerial => exact .quiet h
      | report => exact .quiet h
  | executing left =>
    rw [hphase] at h
    cases left with
    | nil => exact .quiet (finish_vetted gated p s)
    | cons action left => exact execute_vetted h answer
  | rollingBack => exact .quiet (revert_vetted gated p true)
  | capturing cmdId =>
    cases answer.raises with
    | true => exact .quiet (revert_vetted gated p true)
    | false => exact .quiet trivial
  | reverting prior rest raised =>
    have hrest : ∀ gated : PlaceOrder → Prop, (p.goto (revertAll raised rest)).Vetted gated := by
      intro gated
      unfold Pipeline.Vetted Pipeline.goto revertAll
      cases rest <;> trivial
    cases answer.raises with
    | true => exact .quiet (hrest gated)
    | false => exact ⟨hrest _, by simp⟩
  | done raised => exact .quiet trivial

end Vetted

end IbTrader.Bots.Runtime
