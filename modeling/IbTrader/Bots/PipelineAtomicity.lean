/-
  IbTrader.Bots.PipelineAtomicity

  One run of `_run_pipeline` among everything else that moves the bot: whether a
  run that hands no order to the engine leaves the state as it found it, and
  whether its reverts leave alone what an order event has done.

  The state of the bot is placed from and reverted to; as long as nothing else
  moves it, `Unmoved` says where it is at every await.  Five steps break the
  contract, and no others (`atomic_step_iff`): a trip of the rate limit, an
  exception in the gate loop after an order has passed, a command id of another
  pipeline, a revert that fails, and a revert after an order event.
-/

import IbTrader.Lib.Run
import IbTrader.Bots.Pipeline

namespace IbTrader.Bots.Runtime

open Lib

-- ============================================================================
-- A pipeline that is watched
-- ============================================================================

/-- A pipeline, and what has happened since it began. -/
structure Watch where
  shared : Shared
  pipeline : Pipeline
  /-- The state before it. -/
  before : BotState
  /-- It has handed an order to the engine. -/
  handed : Bool := false
  /-- Something else has moved the state. -/
  moved : Bool := false
  /-- An order event has moved the state since its last order passed the gate. -/
  overtaken : Bool := false
  /-- A revert has moved the state after that. -/
  undone : Bool := false
  deriving DecidableEq, Repr

inductive WatchInput where
  /-- Another transition of the bot, those of other pipelines included. -/
  | other (t : Transition)
  /-- Another pipeline writes or takes the last command id. -/
  | otherCmdId (cmdId : Option String)
  | resume (answer : Answer)

/-- The handlers of order events. -/
def Transition.isOrderEvent : Transition → Bool
  | .entryFilled _ | .exitFilled _ | .entryCancelled | .exitCancelled => true
  | _ => false

def PipelineEvent.isHanded : PipelineEvent → Bool
  | .handed _ => true
  | _ => false

def PipelineEvent.isGated : PipelineEvent → Bool
  | .gated _ => true
  | _ => false

def PipelineEvent.isReverted : PipelineEvent → Bool
  | .reverted _ => true
  | _ => false

def Watch.state (w : Watch) : BotState := w.shared.doc.state

/-- `_run_pipeline` is called. -/
def Watch.start (actions : List Action) (shared : Shared) : Watch where
  shared := shared
  pipeline := .start actions shared.doc
  before := shared.doc.state

/-- The bot is moved by something else. -/
def Watch.disturb (w : Watch) (t : Transition) (doc : BotDoc) : Watch :=
  let changed := decide (doc.state ≠ w.state)
  { w with
    shared := { w.shared with doc }
    moved := w.moved || changed
    overtaken := w.overtaken || (t.isOrderEvent && changed) }

/-- The pipeline has gone on to here. -/
def Watch.after (w : Watch) (r : Shared × Pipeline × List PipelineEvent) : Watch where
  shared := r.1
  pipeline := r.2.1
  before := w.before
  handed := w.handed || r.2.2.any (·.isHanded)
  moved := w.moved
  overtaken := w.overtaken && !r.2.2.any (·.isGated)
  undone := w.undone ||
    (r.2.2.any (·.isReverted) && w.overtaken && decide (r.1.doc.state ≠ w.state))

/-- The pipeline goes on. -/
def Watch.resume (manualEntryOnly : Bool) (w : Watch) (answer : Answer) : Watch :=
  w.after (w.pipeline.step manualEntryOnly w.shared answer)

def Watch.next (config : StrategyConfig) (manualEntryOnly : Bool) (w : Watch) :
    WatchInput → Watch
  | .other t =>
    match t.handler config w.shared.doc with
    | none => w
    | some r => w.disturb t r.1
  | .otherCmdId cmdId => { w with shared := { w.shared with lastCmdId := cmdId } }
  | .resume answer => w.resume manualEntryOnly answer

-- ============================================================================
-- The contract
-- ============================================================================

def Phase.isDone : Phase → Bool
  | .done _ => true
  | _ => false

/-- The states of an order in flight. -/
def placedStates : List BotState := [.entryOrderPlaced, .exitOrderPlaced]

/-- The pipeline has ended, and nothing else has moved the bot. -/
def Watch.Ended (w : Watch) : Prop := w.pipeline.phase.isDone = true ∧ w.moved = false

/-- Without an order handed to the engine the state is the one before it. -/
def Watch.Restored (w : Watch) : Prop := w.Ended → w.handed = false → w.state = w.before

/-- What a pipeline owes. -/
structure Watch.Atomic (w : Watch) : Prop where
  restored : w.Restored
  /-- An order is in flight after it only if it has handed one, or one was before. -/
  placed : w.Ended → w.state ∈ placedStates → w.handed = true ∨ w.before ∈ placedStates
  /-- No revert moves the bot once an order event has. -/
  kept : w.undone = false

/-- The second follows from the first. -/
theorem atomic_iff {w : Watch} : w.Atomic ↔ w.Restored ∧ w.undone = false := by
  refine ⟨fun h => ⟨h.restored, h.kept⟩, fun h => ⟨h.1, fun hended hplaced => ?_, h.2⟩⟩
  cases hhanded : w.handed with
  | true => exact .inl rfl
  | false =>
    rw [h.1 hended hhanded] at hplaced
    exact .inr hplaced

/-- The gate loop raises at this answer. -/
def Watch.gateRaises (w : Watch) (order : PlaceOrder) (answer : Answer) : Prop :=
  answer.raises = true ∨ order.gate answer.tradeSerial w.shared.doc = none

/-- What is asked of the answer to an await so that the state is restored, unless
    something else has moved it. -/
def Watch.Restores (w : Watch) (answer : Answer) : Prop :=
  match w.pipeline.phase with
  -- the rate limit does not trip, or the bot is off
  | .checking => answer.tripped = true → w.moved = true ∨ w.state = .off
  -- the gate loop does not raise once an order has passed
  | .reading _ _ => answer.raises = true → w.moved = true ∨ w.pipeline.priorStates = []
  | .gating order _ =>
    w.gateRaises order answer → w.moved = true ∨ w.pipeline.priorStates.length ≤ 1
  -- no command id of another pipeline is written
  | .capturing _ => answer.raises = false → w.moved = true ∨ w.handed = true
  -- a revert does not fail
  | .reverting _ _ _ => answer.raises = true → w.moved = true ∨ w.handed = true
  | _ => True

/-- A revert after an order event finds the bot in the state it goes to. -/
def Watch.Keeps (w : Watch) (answer : Answer) : Prop :=
  match w.pipeline.phase with
  | .reverting prior _ _ => answer.raises = false → w.overtaken = true → w.state = prior
  | _ => True

/-- What is asked of one input. -/
def Watch.Safe (w : Watch) : WatchInput → Prop
  | .other _ | .otherCmdId _ => True
  | .resume answer => w.Restores answer ∧ w.Keeps answer

-- ============================================================================
-- Where the bot is
-- ============================================================================

/-- The bot is where an order of the pipeline has put it. -/
def Watch.InFlight (w : Watch) : Prop := w.before ∈ revertible ∧ w.state ∈ placedStates

theorem not_placed_of_revertible : ∀ state ∈ revertible, state ∉ placedStates := by decide

theorem Watch.InFlight.ne {w : Watch} (h : w.InFlight) : w.state ≠ w.before := by
  intro heq
  exact not_placed_of_revertible w.before h.1 (heq ▸ h.2)

/-- An order in flight may stay there only if it was handed over. -/
theorem Watch.InFlight.restored_iff {w : Watch} (h : w.InFlight) :
    (w.handed = false → w.state = w.before) ↔ w.handed = true := by
  cases hhanded : w.handed with
  | true => exact iff_of_true (fun hnot => by cases hnot) rfl
  | false => exact iff_of_false (fun hback => h.ne (hback rfl)) Bool.false_ne_true

/-- With no order, nothing has happened; with one, it is in flight. -/
def Watch.Processing (w : Watch) : Prop :=
  (w.pipeline.orders = [] ∧ w.pipeline.priorStates = [] ∧ w.state = w.before) ∨
    (w.pipeline.orders ≠ [] ∧ w.pipeline.priorStates = [w.before] ∧ w.InFlight)

/-- Where the bot is at every await, if nothing else moves it. -/
def Watch.Located (w : Watch) : Prop :=
  match w.pipeline.phase with
  | .checking => w.handed = false ∧ w.pipeline.priorStates = [] ∧ w.state = w.before
  | .reading _ _ =>
    w.handed = false ∧ w.pipeline.orders ≠ [] ∧
      ((w.pipeline.priorStates = [] ∧ w.state = w.before) ∨
        (w.pipeline.priorStates = [w.before] ∧ w.InFlight))
  | .gating _ _ =>
    w.handed = false ∧ w.pipeline.orders ≠ [] ∧
      ((w.pipeline.priorStates = [w.before] ∧ w.state = w.before) ∨
        (w.pipeline.priorStates.length = 2 ∧ w.InFlight))
  | .filtering _ _ | .persisting _ _ | .executing _ | .rollingBack => w.Processing
  | .capturing _ => w.pipeline.priorStates = [w.before] ∧ w.InFlight
  | .reverting prior rest _ => prior = w.before ∧ rest = [] ∧ w.InFlight
  | .done _ => True

/-- Nothing else has moved the bot, and it is where it should be. -/
def Watch.Unmoved (w : Watch) : Prop := w.moved = false → w.Located

-- ============================================================================
-- One step
-- ============================================================================

/-- A pipeline that has not ended owes nothing yet. -/
theorem restored_of_running {w : Watch} (h : w.pipeline.phase.isDone = false) : w.Restored := by
  intro hended
  rw [hended.1] at h
  cases h

theorem located_of_done {w : Watch} (h : w.pipeline.phase.isDone = true) : w.Located := by
  unfold Watch.Located
  cases hphase : w.pipeline.phase with
  | done raised => trivial
  | _ => rw [hphase] at h; cases h

section Resume

variable {w : Watch}

/-- The pipeline goes on with the same orders and states, and the bot stays. -/
theorem Watch.Processing.after (h : w.Processing) {s : Shared} {p : Pipeline}
    {events : List PipelineEvent} (hstate : s.doc.state = w.state)
    (hactions : p.actions = w.pipeline.actions)
    (hprior : p.priorStates = w.pipeline.priorStates) : (w.after (s, p, events)).Processing := by
  have horders : p.orders = w.pipeline.orders := congrArg placeOrders hactions
  rcases h with ⟨hnone, hempty, hbefore⟩ | ⟨hsome, hone, hrevertible, hplaced⟩
  · exact .inl ⟨horders.trans hnone, hprior.trans hempty, hstate.trans hbefore⟩
  · refine .inr ⟨?_, hprior.trans hone, hrevertible, ?_⟩
    · exact fun heq => hsome (horders.symm.trans heq)
    · change s.doc.state ∈ placedStates
      rw [hstate]
      exact hplaced

/-- A pipeline that is reverted has nothing to revert, or will. -/
theorem Watch.Processing.revert (h : w.Processing) {s : Shared} {events : List PipelineEvent}
    (hstate : s.doc.state = w.state) (raised : Bool) :
    (w.after (s, w.pipeline.revert raised, events)).Located ∧
      (w.after (s, w.pipeline.revert raised, events)).Restored := by
  rcases h with ⟨-, hempty, hbefore⟩ | ⟨-, hone, hrevertible, hplaced⟩
  · have hrevert : w.pipeline.revert raised = w.pipeline.goto (.done raised) := by
      simp [Pipeline.revert, hempty, revertAll]
    rw [hrevert]
    exact ⟨trivial, fun _ _ => hstate.trans hbefore⟩
  · have hrevert : w.pipeline.revert raised =
        w.pipeline.goto (.reverting w.before [] raised) := by
      simp [Pipeline.revert, hone, hrevertible, revertAll]
    rw [hrevert]
    refine ⟨⟨rfl, rfl, hrevertible, ?_⟩, restored_of_running rfl⟩
    change s.doc.state ∈ placedStates
    rw [hstate]
    exact hplaced

/-- What one step does to a located pipeline. -/
structure ResumeStep (w w' : Watch) (answer : Answer) : Prop where
  located : w'.Located
  restored : w.Restored → (w'.Restored ↔ w.Restores answer)

/-- The pipeline is still running, from a phase that nothing is asked of. -/
theorem ResumeStep.running {w' : Watch} {answer : Answer} (hlocated : w'.Located)
    (hrunning : w'.pipeline.phase.isDone = false) (hrestores : w.Restores answer) :
    ResumeStep w w' answer :=
  ⟨hlocated, fun _ => iff_of_true (restored_of_running hrunning) hrestores⟩

/-- It has ended, or is reverting, where it should be. -/
theorem ResumeStep.back {w' : Watch} {answer : Answer} (h : w'.Located ∧ w'.Restored)
    (hrestores : w.Restores answer) : ResumeStep w w' answer :=
  ⟨h.1, fun _ => iff_of_true h.2 hrestores⟩

/-- It has ended with nothing handed. -/
theorem ResumeStep.ended {s : Shared} {p : Pipeline} {answer : Answer}
    (hmoved : w.moved = false) (hdone : p.phase.isDone = true)
    (hiff : (w.handed = false → s.doc.state = w.before) ↔ w.Restores answer)
    {events : List PipelineEvent} (hevents : events.any (·.isHanded) = false) :
    ResumeStep w (w.after (s, p, events)) answer := by
  refine ⟨located_of_done hdone, fun _ => ?_⟩
  have hhanded : (w.after (s, p, events)).handed = w.handed := by
    simp [Watch.after, hevents]
  rw [← hiff]
  constructor
  · intro h hnone
    exact h ⟨hdone, hmoved⟩ (hhanded.trans hnone)
  · intro h _ hnone
    exact h (hhanded.symm.trans hnone)

theorem checking_resumeStep (hphase : w.pipeline.phase = .checking) (h : w.Located)
    (hmoved : w.moved = false) (manualEntryOnly : Bool) (answer : Answer) :
    ResumeStep w (w.resume manualEntryOnly answer) answer := by
  simp only [Watch.Located, hphase] at h
  obtain ⟨hnone, hempty, hbefore⟩ := h
  have hrestores : w.Restores answer ↔ (answer.tripped = true → w.state = .off) := by
    simp [Watch.Restores, hphase, hmoved]
  unfold Watch.resume Pipeline.step
  rw [hphase]
  cases htripped : answer.tripped with
  | true =>
    refine .ended hmoved rfl ?_ rfl
    -- the bot is off now
    simp [hrestores, htripped, hnone, hbefore, eq_comm]
  | false =>
    have hnot : w.Restores answer := by simp [hrestores, htripped]
    cases horders : w.pipeline.orders with
    | nil =>
      refine .running ?_ rfl hnot
      exact .inl ⟨horders, hempty, hbefore⟩
    | cons order rest =>
      refine .running ⟨by simp [Watch.after, hnone], ?_, ?_⟩ rfl hnot
      · exact fun heq => List.cons_ne_nil order rest (horders.symm.trans heq)
      · exact .inl ⟨hempty, hbefore⟩

theorem reading_resumeStep {order : PlaceOrder} {rest : List PlaceOrder}
    (hphase : w.pipeline.phase = .reading order rest) (h : w.Located)
    (hmoved : w.moved = false) (manualEntryOnly : Bool) (answer : Answer) :
    ResumeStep w (w.resume manualEntryOnly answer) answer := by
  simp only [Watch.Located, hphase] at h
  obtain ⟨hnone, hsome, hwhere⟩ := h
  have hrestores : w.Restores answer ↔ (answer.raises = true → w.pipeline.priorStates = []) := by
    simp [Watch.Restores, hphase, hmoved]
  unfold Watch.resume Pipeline.step
  rw [hphase]
  cases hraises : answer.raises with
  | true =>
    refine .ended hmoved rfl ?_ rfl
    rw [hrestores]
    rcases hwhere with ⟨hempty, hbefore⟩ | ⟨hone, hflight⟩
    · exact iff_of_true (fun _ => hbefore) fun _ => hempty
    · exact iff_of_false (fun hback => hflight.ne (hback hnone)) (by simp [hraises, hone])
  | false =>
    have hnot : w.Restores answer := by simp [hrestores, hraises]
    refine .running ⟨by simp [Watch.after, hnone], hsome, ?_⟩ rfl hnot
    rcases hwhere with ⟨hempty, hbefore⟩ | ⟨hone, hflight⟩
    · refine .inl ⟨?_, hbefore⟩
      change w.pipeline.priorStates ++ [w.state] = [w.before]
      rw [hempty, hbefore, List.nil_append]
    · refine .inr ⟨?_, hflight⟩
      change (w.pipeline.priorStates ++ [w.state]).length = 2
      rw [hone]
      rfl

theorem gating_resumeStep {order : PlaceOrder} {rest : List PlaceOrder}
    (hphase : w.pipeline.phase = .gating order rest) (h : w.Located)
    (hmoved : w.moved = false) (manualEntryOnly : Bool) (answer : Answer) :
    ResumeStep w (w.resume manualEntryOnly answer) answer := by
  simp only [Watch.Located, hphase] at h
  obtain ⟨hnone, hsome, hwhere⟩ := h
  have hrestores : w.Restores answer ↔
      (w.gateRaises order answer → w.pipeline.priorStates.length ≤ 1) := by
    simp [Watch.Restores, hphase, hmoved]
  -- the loop ends here, with the bot where it is
  have hraise : w.gateRaises order answer →
      ResumeStep w (w.after (w.shared, w.pipeline.goto (.done true), [])) answer := by
    intro hgate
    refine .ended hmoved rfl ?_ rfl
    rw [hrestores]
    rcases hwhere with ⟨hone, hbefore⟩ | ⟨htwo, hflight⟩
    · exact iff_of_true (fun _ => hbefore) fun _ => by simp [hone]
    · exact iff_of_false (fun hback => hflight.ne (hback hnone)) (by simp [hgate, htwo])
  unfold Watch.resume Pipeline.step
  rw [hphase]
  cases hraises : answer.raises with
  | true => exact hraise (.inl hraises)
  | false =>
    cases hgate : order.gate answer.tradeSerial w.shared.doc with
    | none => simpa [hgate] using hraise (.inr hgate)
    | some r =>
      obtain ⟨hfrom, hto⟩ := gate_some hgate
      have horigin : w.state ∈ revertible := by
        change w.shared.doc.state ∈ revertible
        rw [hfrom, PlaceOrder.originState]
        split <;> decide
      have hplaced : r.1.state ∈ placedStates := by
        rw [hto, PlaceOrder.placedState]
        split <;> decide
      have hnot : w.Restores answer := by simp [hrestores, Watch.gateRaises, hraises, hgate]
      have hpassed : ∀ w' : Watch, w'.before = w.before → w'.state = r.1.state →
          w.pipeline.priorStates = [w.before] ∧ w'.InFlight := by
        intro w' hbefore' hstate'
        rcases hwhere with ⟨hone, hbefore⟩ | ⟨htwo, hflight⟩
        · exact ⟨hone, by rw [hbefore', ← hbefore]; exact horigin, by rw [hstate']; exact hplaced⟩
        · exact absurd hflight.2 (not_placed_of_revertible w.state horigin)
      have hpass : ResumeStep w (w.after
          ({ w.shared with doc := r.1 }, w.pipeline.nextOrder r.1 rest, [.gated order])) answer := by
        cases rest with
        | nil =>
          refine .running ?_ rfl hnot
          exact .inr ⟨hsome, hpassed _ rfl rfl⟩
        | cons order' rest =>
          refine .running ⟨by simp [Watch.after, PipelineEvent.isHanded, hnone], hsome, ?_⟩ rfl hnot
          exact .inr (hpassed _ rfl rfl)
      simpa [hgate] using hpass

/-- In the middleware chain the bot stays where it is. -/
theorem Watch.Processing.goto (h : w.Processing) {s : Shared} {phase : Phase}
    {events : List PipelineEvent} {answer : Answer} (hstate : s.doc.state = w.state)
    (hlocated : (w.after (s, w.pipeline.goto phase, events)).Processing →
      (w.after (s, w.pipeline.goto phase, events)).Located)
    (hrunning : phase.isDone = false) (hrestores : w.Restores answer) :
    ResumeStep w (w.after (s, w.pipeline.goto phase, events)) answer :=
  .running (hlocated (h.after hstate rfl rfl)) hrunning hrestores

theorem filtering_resumeStep {left : List Filter} {actions : List Action}
    (hphase : w.pipeline.phase = .filtering left actions) (h : w.Located)
    (manualEntryOnly : Bool) (answer : Answer) :
    ResumeStep w (w.resume manualEntryOnly answer) answer := by
  have hprocessing : w.Processing := by simpa only [Watch.Located, hphase] using h
  have hrestores : w.Restores answer := by simp [Watch.Restores, hphase]
  unfold Watch.resume Pipeline.step
  rw [hphase]
  cases left with
  | nil => exact hprocessing.goto rfl id rfl hrestores
  | cons filter left =>
    cases answer.raises with
    | true => exact .back (hprocessing.revert rfl true) hrestores
    | false => exact hprocessing.goto rfl id rfl hrestores

theorem persisting_resumeStep {left actions : List Action}
    (hphase : w.pipeline.phase = .persisting left actions) (h : w.Located)
    (manualEntryOnly : Bool) (answer : Answer) :
    ResumeStep w (w.resume manualEntryOnly answer) answer := by
  have hprocessing : w.Processing := by simpa only [Watch.Located, hphase] using h
  have hrestores : w.Restores answer := by simp [Watch.Restores, hphase]
  unfold Watch.resume Pipeline.step
  rw [hphase]
  cases left with
  | nil => cases answer.raises <;> exact hprocessing.goto rfl id rfl hrestores
  | cons action left =>
    cases action with
    | updateState fields =>
      cases answer.raises with
      | true => exact .back (hprocessing.revert rfl true) hrestores
      | false => exact hprocessing.goto rfl id rfl hrestores
    | placeOrder order => exact hprocessing.goto rfl id rfl hrestores
    | cancelOrder tradeSerial => exact hprocessing.goto rfl id rfl hrestores
    | report => exact hprocessing.goto rfl id rfl hrestores

theorem execute_resumeStep (h : w.Processing) (action : Action) (left : List Action)
    {answer : Answer} (hrestores : w.Restores answer) :
    ResumeStep w (w.after (w.pipeline.execute w.shared answer left action)) answer := by
  cases action with
  | placeOrder order =>
    unfold Pipeline.execute
    cases answer.raises <;> exact h.goto rfl id rfl hrestores
  | cancelOrder tradeSerial =>
    unfold Pipeline.execute
    cases answer.raises <;> exact h.goto rfl id rfl hrestores
  | updateState fields => exact h.goto rfl id rfl hrestores
  | report => exact h.goto rfl id rfl hrestores

/-- The chain has come to its end. -/
theorem finish_resumeStep (h : w.Processing) {answer : Answer} (hrestores : w.Restores answer) :
    ResumeStep w (w.after ((w.pipeline.finish w.shared).1, (w.pipeline.finish w.shared).2, []))
      answer := by
  unfold Pipeline.finish
  by_cases horders : w.pipeline.orders = []
  · have hbefore : w.state = w.before := by
      rcases h with ⟨-, -, hbefore⟩ | ⟨hsome, -⟩
      · exact hbefore
      · exact absurd horders hsome
    cases w.shared.lastCmdId <;> simp only [horders, if_true] <;>
      exact .back ⟨trivial, fun _ _ => hbefore⟩ hrestores
  · cases hcmd : w.shared.lastCmdId with
    | none =>
      simp only [horders, if_false]
      exact .back (h.revert rfl false) hrestores
    | some cmdId =>
      simp only [horders, if_false]
      refine .running ?_ rfl hrestores
      rcases h with ⟨hnone, -⟩ | ⟨-, hone, hflight⟩
      · exact absurd hnone horders
      · exact ⟨hone, hflight⟩

theorem executing_resumeStep {left : List Action} (hphase : w.pipeline.phase = .executing left)
    (h : w.Located) (manualEntryOnly : Bool) (answer : Answer) :
    ResumeStep w (w.resume manualEntryOnly answer) answer := by
  have hprocessing : w.Processing := by simpa only [Watch.Located, hphase] using h
  have hrestores : w.Restores answer := by simp [Watch.Restores, hphase]
  unfold Watch.resume Pipeline.step
  rw [hphase]
  cases left with
  | nil => exact finish_resumeStep hprocessing hrestores
  | cons action left => exact execute_resumeStep hprocessing action left hrestores

theorem rollingBack_resumeStep (hphase : w.pipeline.phase = .rollingBack) (h : w.Located)
    (manualEntryOnly : Bool) (answer : Answer) :
    ResumeStep w (w.resume manualEntryOnly answer) answer := by
  have hprocessing : w.Processing := by simpa only [Watch.Located, hphase] using h
  have hrestores : w.Restores answer := by simp [Watch.Restores, hphase]
  unfold Watch.resume Pipeline.step
  rw [hphase]
  cases answer.raises <;> exact .back (hprocessing.revert rfl true) hrestores

theorem capturing_resumeStep {cmdId : String} (hphase : w.pipeline.phase = .capturing cmdId)
    (h : w.Located) (hmoved : w.moved = false) (manualEntryOnly : Bool) (answer : Answer) :
    ResumeStep w (w.resume manualEntryOnly answer) answer := by
  simp only [Watch.Located, hphase] at h
  obtain ⟨hone, hflight⟩ := h
  have hrestores : w.Restores answer ↔ (answer.raises = false → w.handed = true) := by
    simp [Watch.Restores, hphase, hmoved]
  unfold Watch.resume Pipeline.step
  rw [hphase]
  cases hraises : answer.raises with
  | true =>
    have hrevert : w.pipeline.revert true = w.pipeline.goto (.reverting w.before [] true) := by
      simp [Pipeline.revert, hone, hflight.1, revertAll]
    simp only [if_true, hrevert]
    exact .running ⟨rfl, rfl, hflight⟩ rfl (by simp [hrestores, hraises])
  | false =>
    refine .ended hmoved rfl ?_ rfl
    simp only [hrestores, hraises, handled_captureOrderId_state, true_implies]
    exact hflight.restored_iff

theorem reverting_resumeStep {prior : BotState} {rest : List BotState} {raised : Bool}
    (hphase : w.pipeline.phase = .reverting prior rest raised) (h : w.Located)
    (hmoved : w.moved = false) (manualEntryOnly : Bool) (answer : Answer) :
    ResumeStep w (w.resume manualEntryOnly answer) answer := by
  simp only [Watch.Located, hphase] at h
  obtain ⟨rfl, rfl, hflight⟩ := h
  have hrestores : w.Restores answer ↔ (answer.raises = true → w.handed = true) := by
    simp [Watch.Restores, hphase, hmoved]
  unfold Watch.resume Pipeline.step
  rw [hphase]
  cases hraises : answer.raises with
  | true =>
    refine .ended hmoved rfl ?_ rfl
    simp only [hrestores, hraises, true_implies]
    exact hflight.restored_iff
  | false =>
    refine .ended hmoved rfl ?_ rfl
    exact iff_of_true (fun _ => handled_revertToState_state _ _) (by simp [hrestores, hraises])

theorem done_resumeStep {raised : Bool} (hphase : w.pipeline.phase = .done raised)
    (manualEntryOnly : Bool) (answer : Answer) :
    ResumeStep w (w.resume manualEntryOnly answer) answer := by
  have hrestores : w.Restores answer := by simp [Watch.Restores, hphase]
  unfold Watch.resume Pipeline.step
  rw [hphase]
  refine ⟨trivial, fun hrestored => iff_of_true ?_ hrestores⟩
  intro hended hhanded
  refine hrestored ⟨by rw [hphase]; rfl, hended.2⟩ ?_
  simpa [Watch.after] using hhanded

/-- Every step of a located pipeline. -/
theorem Watch.Located.resume (h : w.Located) (hmoved : w.moved = false) (manualEntryOnly : Bool)
    (answer : Answer) : ResumeStep w (w.resume manualEntryOnly answer) answer := by
  cases hphase : w.pipeline.phase with
  | checking => exact checking_resumeStep hphase h hmoved manualEntryOnly answer
  | reading order rest => exact reading_resumeStep hphase h hmoved manualEntryOnly answer
  | gating order rest => exact gating_resumeStep hphase h hmoved manualEntryOnly answer
  | filtering left actions => exact filtering_resumeStep hphase h manualEntryOnly answer
  | persisting left actions => exact persisting_resumeStep hphase h manualEntryOnly answer
  | executing left => exact executing_resumeStep hphase h manualEntryOnly answer
  | rollingBack => exact rollingBack_resumeStep hphase h manualEntryOnly answer
  | capturing cmdId => exact capturing_resumeStep hphase h hmoved manualEntryOnly answer
  | reverting prior rest raised =>
    exact reverting_resumeStep hphase h hmoved manualEntryOnly answer
  | done raised => exact done_resumeStep hphase manualEntryOnly answer

end Resume

/-- Only a revert shows a revert. -/
theorem step_not_reverted {p : Pipeline}
    (h : ∀ prior rest raised, p.phase ≠ .reverting prior rest raised)
    (manualEntryOnly : Bool) (s : Shared) (answer : Answer) :
    (p.step manualEntryOnly s answer).2.2.any (·.isReverted) = false := by
  unfold Pipeline.step
  cases hphase : p.phase with
  | checking => cases answer.tripped <;> rfl
  | reading order rest => cases answer.raises <;> rfl
  | gating order rest =>
    cases answer.raises with
    | true => rfl
    | false => cases hgate : order.gate answer.tradeSerial s.doc <;> simp [hgate, PipelineEvent.isReverted]
  | filtering left actions =>
    cases left with
    | nil => rfl
    | cons filter left => cases answer.raises <;> rfl
  | persisting left actions =>
    cases left with
    | nil => cases answer.raises <;> rfl
    | cons action left => cases action <;> cases answer.raises <;> rfl
  | executing left =>
    cases left with
    | nil => rfl
    | cons action left =>
      cases action with
      | placeOrder order =>
        simp only [Pipeline.execute]
        cases answer.raises <;> cases answer.delivered <;> rfl
      | cancelOrder tradeSerial => simp only [Pipeline.execute]; cases answer.raises <;> rfl
      | updateState fields => rfl
      | report => rfl
  | rollingBack => cases answer.raises <;> rfl
  | capturing cmdId => cases answer.raises <;> rfl
  | reverting prior rest raised => exact absurd hphase (h prior rest raised)
  | done raised => rfl

/-- The answer says whether a revert undoes an order event. -/
theorem resume_undone {w : Watch} (h : w.undone = false) (manualEntryOnly : Bool)
    (answer : Answer) :
    (w.resume manualEntryOnly answer).undone = false ↔ w.Keeps answer := by
  by_cases hreverting : ∃ prior rest raised, w.pipeline.phase = .reverting prior rest raised
  · obtain ⟨prior, rest, raised, hphase⟩ := hreverting
    cases hraises : answer.raises with
    | true => simp [Watch.resume, Watch.after, Watch.Keeps, Pipeline.step, hphase, hraises, h]
    | false =>
      have hundone : (w.resume manualEntryOnly answer).undone =
          (w.overtaken && decide (prior ≠ w.state)) := by
        simp [Watch.resume, Watch.after, Pipeline.step, hphase, hraises, h,
          PipelineEvent.isReverted]
      rw [hundone, Bool.and_eq_false_imp]
      simp only [Watch.Keeps, hphase, hraises, true_implies, decide_eq_false_iff_not, not_not]
      exact imp_congr_right fun _ => eq_comm
  · have hnever : ∀ prior rest raised, w.pipeline.phase ≠ .reverting prior rest raised :=
      fun prior rest raised heq => hreverting ⟨prior, rest, raised, heq⟩
    have hkeeps : w.Keeps answer := by
      unfold Watch.Keeps
      cases hphase : w.pipeline.phase with
      | reverting prior rest raised => exact absurd hphase (hnever prior rest raised)
      | _ => trivial
    refine iff_of_true ?_ hkeeps
    simp [Watch.resume, Watch.after, h, step_not_reverted hnever]

-- ============================================================================
-- The contract over every run
-- ============================================================================

/-- What is located depends on nothing else. -/
theorem Watch.Located.congr {w w' : Watch} (h : w.Located) (hpipeline : w'.pipeline = w.pipeline)
    (hbefore : w'.before = w.before) (hhanded : w'.handed = w.handed)
    (hstate : w'.state = w.state) : w'.Located := by
  unfold Watch.Located Watch.Processing Watch.InFlight at h ⊢
  rw [hpipeline, hbefore, hhanded, hstate]
  exact h

theorem next_other (config : StrategyConfig) (manualEntryOnly : Bool) (w : Watch)
    (t : Transition) :
    w.next config manualEntryOnly (.other t) = w ∨
      ∃ doc, w.next config manualEntryOnly (.other t) = w.disturb t doc := by
  cases hr : t.handler config w.shared.doc with
  | none => exact .inl (by simp only [Watch.next, hr])
  | some r => exact .inr ⟨r.1, by simp only [Watch.next, hr]⟩

/-- Another transition moves the bot, or leaves the state as it is. -/
theorem disturb_of_unmoved {w : Watch} {t : Transition} {doc : BotDoc}
    (h : (w.disturb t doc).moved = false) :
    w.moved = false ∧ (w.disturb t doc).state = w.state := by
  obtain ⟨hmoved, hchanged⟩ := Bool.or_eq_false_iff.mp h
  exact ⟨hmoved, not_not.mp (of_decide_eq_false hchanged)⟩

theorem start_unmoved (actions : List Action) (shared : Shared) :
    (Watch.start actions shared).Unmoved := by
  intro _
  unfold Watch.start Pipeline.start
  by_cases horders : placeOrders actions = []
  · simp only [horders, if_true]
    exact .inl ⟨horders, rfl, rfl⟩
  · simp only [horders, if_false]
    exact ⟨rfl, rfl, rfl⟩

theorem start_atomic (actions : List Action) (shared : Shared) :
    (Watch.start actions shared).Atomic := by
  refine atomic_iff.mpr ⟨restored_of_running ?_, rfl⟩
  unfold Watch.start Pipeline.start
  by_cases horders : placeOrders actions = [] <;> simp [horders, Phase.isDone]

theorem Watch.Unmoved.next {w : Watch} (h : w.Unmoved) (config : StrategyConfig)
    (manualEntryOnly : Bool) (i : WatchInput) : (w.next config manualEntryOnly i).Unmoved := by
  cases i with
  | other t =>
    rcases next_other config manualEntryOnly w t with heq | ⟨doc, heq⟩
    · rw [heq]
      exact h
    · rw [heq]
      intro hnext
      obtain ⟨hmoved, hstate⟩ := disturb_of_unmoved hnext
      exact (h hmoved).congr rfl rfl rfl hstate
  | otherCmdId cmdId => exact fun hmoved => (h hmoved).congr rfl rfl rfl rfl
  | resume answer =>
    exact fun hmoved => ((h hmoved).resume hmoved manualEntryOnly answer).located

/-- Where something else has moved the bot, the state is its own affair. -/
theorem resume_restored {w : Watch} (h : w.Unmoved) (hrestored : w.Restored)
    (manualEntryOnly : Bool) (answer : Answer) :
    (w.resume manualEntryOnly answer).Restored ↔ w.Restores answer := by
  cases hmoved : w.moved with
  | false => exact ((h hmoved).resume hmoved manualEntryOnly answer).restored hrestored
  | true =>
    refine iff_of_true (fun hended => ?_) ?_
    · exact absurd (hmoved.symm.trans hended.2) Bool.noConfusion
    · unfold Watch.Restores
      cases w.pipeline.phase <;> simp [hmoved]

/-- One input keeps the contract exactly if it is safe. -/
theorem atomic_step_iff {w : Watch} (h : w.Unmoved) (hatomic : w.Atomic)
    (config : StrategyConfig) (manualEntryOnly : Bool) (i : WatchInput) :
    (w.next config manualEntryOnly i).Atomic ↔ w.Safe i := by
  cases i with
  | other t =>
    refine iff_of_true ?_ trivial
    rcases next_other config manualEntryOnly w t with heq | ⟨doc, heq⟩
    · rw [heq]
      exact hatomic
    · rw [heq]
      refine atomic_iff.mpr ⟨fun hended hhanded => ?_, hatomic.kept⟩
      obtain ⟨hmoved, hstate⟩ := disturb_of_unmoved hended.2
      exact hstate.trans (hatomic.restored ⟨hended.1, hmoved⟩ hhanded)
  | otherCmdId cmdId =>
    exact iff_of_true (atomic_iff.mpr ⟨hatomic.restored, hatomic.kept⟩) trivial
  | resume answer =>
    rw [atomic_iff]
    exact and_congr (resume_restored h hatomic.restored manualEntryOnly answer)
      (resume_undone hatomic.kept manualEntryOnly answer)

def entryFill : FillArgs where
  qty := 10
  price := 500
  terminal := true
  side := "BUY"
  commission := 0

/-- Of two entries the second is refused, and the bot stays where the first has put
    it. -/
example :
    let order : PlaceOrder := { symbol := "QQQ", side := "BUY", qty := 10 }
    let w := (List.replicate 5 (.resume {})).foldl (Watch.next {} false)
      (.start [.placeOrder order, .placeOrder order] { doc := { state := .awaitingEntryTrigger } })
    w.pipeline.phase = .done true ∧ w.handed = false ∧ w.state = .entryOrderPlaced := by
  decide +kernel

end IbTrader.Bots.Runtime
