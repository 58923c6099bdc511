/-
  IbTrader.Bots.StateWriters

  The writers of the bot document in Redis.

  Every writer GETs the whole document and SETs it again.  The lifecycle methods
  do so under the state lock.  `_write_state`, `_apply_cancel` and
  `_apply_reconciled` hold no lock and `_apply_position_event` holds one of its
  own, so a transition can run between their GET and their SET, and the SET puts
  the older document back.  A missing key reads as the default document.
-/

import IbTrader.Lib.ReadModifyWrite
import IbTrader.Bots.Runtime

namespace IbTrader.Bots.Runtime

open Lib

-- ============================================================================
-- The operations
-- ============================================================================

/-- The lifecycle methods, each with its arguments. -/
inductive Transition where
  | start (symbol : Option String)
  | stop
  | forceStop
  | crash
  | ibPositionMismatch
  | placeEntryOrder (symbol : String) (qty : ℚ) (origin : String) (ibOrderId : Option String)
      (serial : Option Int)
  | placeExitOrder (qty : ℚ) (origin : String) (ibOrderId : Option String)
  | captureOrderId (cmdId : String)
  | revertToState (prior : BotState)
  | entryTimeout
  | manualClose
  | entryCancelled
  | exitCancelled
  | forceQuitCancelAndReplace
  | entryFilled (args : FillArgs)
  | exitFilled (args : FillArgs)
  deriving DecidableEq, Repr

/-- The method a transition stands for. -/
def Transition.handler (config : StrategyConfig) : Transition → Handler
  | .start symbol => onStart symbol
  | .stop => onStop
  | .forceStop => onForceStop
  | .crash => onCrash
  | .ibPositionMismatch => onIbPositionMismatch
  | .placeEntryOrder symbol qty origin id serial => onPlaceEntryOrder symbol qty origin id serial
  | .placeExitOrder qty origin id => onPlaceExitOrder qty origin id
  | .captureOrderId cmdId => Runtime.captureOrderId cmdId
  | .revertToState prior => Runtime.revertToState prior
  | .entryTimeout => onEntryTimeout
  | .manualClose => onManualClose
  | .entryCancelled => onEntryCancelled
  | .exitCancelled => onExitCancelled
  | .forceQuitCancelAndReplace => Runtime.forceQuitCancelAndReplace
  | .entryFilled args => onEntryFilled args
  | .exitFilled args => onExitFilled config args

/-- The `fields` of `_write_state`: the keys that are present, with their
    values. -/
structure StateFields where
  state : Option BotState := none
  qty : Option ℚ := none
  avgPrice : Option (Option ℚ) := none
  entryPrice : Option (Option ℚ) := none
  entryTimeSet : Option Bool := none
  positionDirection : Option (Option Direction) := none
  armed : Option Bool := none
  deriving DecidableEq, Repr

/-- `_write_state`: the fields over the document read, `state` stripped. -/
def writeState (fields : StateFields) (existing : BotDoc) : BotDoc :=
  { existing with
    qty := fields.qty.getD existing.qty
    avgPrice := fields.avgPrice.getD existing.avgPrice
    entryPrice := fields.entryPrice.getD existing.entryPrice
    entryTimeSet := fields.entryTimeSet.getD existing.entryTimeSet
    positionDirection := fields.positionDirection.getD existing.positionDirection
    armed := fields.armed.getD existing.armed }

/-- `_apply_reconciled`. -/
def applyReconciled (qty avgPrice : Option ℚ) (existing : BotDoc) : BotDoc :=
  { existing with
    qty := qty.getD existing.qty
    avgPrice := avgPrice.or existing.avgPrice }

/-- `_apply_position_event` up to its SET; `verified` is what the pull answers.
    The transition it may call afterwards is an operation of its own. -/
def applyPositionEvent (ibQty : ℚ) (verified : Option ℚ) (existing : BotDoc) : Option BotDoc :=
  if existing.state = .off ∨ existing.state = .errored ∨
      existing.state = .awaitingEntryTrigger then none
  else if existing.qty ≤ |ibQty| then none
  else match verified with
    | none => none
    | some verified =>
      if verified < existing.qty then some { existing with qty := verified } else none

/-- The operations on the bot document. -/
inductive StateOp where
  | transition (t : Transition)
  | writeState (fields : StateFields)
  | applyCancel
  | applyReconciled (qty avgPrice : Option ℚ)
  | applyPositionEvent (ibQty : ℚ) (verified : Option ℚ)
  deriving DecidableEq, Repr

/-- The locks of `StrategyBotRunner`. -/
inductive BotLock where
  | state
  | positionEvent
  deriving DecidableEq, Repr

/-- What an operation writes given the document it read. -/
def StateOp.apply (config : StrategyConfig) (doc : BotDoc) : StateOp → Option BotDoc
  | .transition t => (t.handler config doc).map Prod.fst
  | .writeState fields => some (Runtime.writeState fields doc)
  -- only the timestamp moves
  | .applyCancel => some doc
  | .applyReconciled qty avgPrice => some (Runtime.applyReconciled qty avgPrice doc)
  | .applyPositionEvent ibQty verified => Runtime.applyPositionEvent ibQty verified doc

/-- The lock an operation holds. -/
def StateOp.lock : StateOp → Option BotLock
  | .transition _ => some .state
  | .applyPositionEvent .. => some .positionEvent
  | .writeState _ | .applyCancel | .applyReconciled .. => none

/-- The operations of a bot, numbered as they are issued. -/
def stateOps (config : StrategyConfig) (issued : ℕ → StateOp) : Operations BotDoc ℕ BotLock where
  apply i doc := (issued i).apply config doc
  lockOf i := (issued i).lock

-- ============================================================================
-- Serial runs
-- ============================================================================

/-- A transition's state and position fields depend on those it read alone. -/
theorem handler_respects (config : StrategyConfig) (t : Transition) {d d' : BotDoc}
    (h : d.toPositionFields = d'.toPositionFields) :
    (((t.handler config d).map Prod.fst).getD d).toPositionFields =
      (((t.handler config d').map Prod.fst).getD d').toPositionFields := by
  obtain ⟨p, s, o, r, e, a⟩ := d
  obtain ⟨p', s', o', r', e', a'⟩ := d'
  dsimp only at h
  subst h
  cases t with
  | start | stop | crash | ibPositionMismatch | placeEntryOrder | placeExitOrder | captureOrderId
  | revertToState | entryTimeout | manualClose | entryCancelled | exitCancelled
  | forceQuitCancelAndReplace =>
    simp only [Transition.handler, onStart, onStop, onCrash, onIbPositionMismatch,
      onPlaceEntryOrder, onPlaceExitOrder, captureOrderId, revertToState, onEntryTimeout,
      onManualClose, onEntryCancelled, onExitCancelled, forceQuitCancelAndReplace]
    split <;> rfl
  | forceStop => rfl
  | entryFilled args =>
    simp only [Transition.handler, onEntryFilled]
    split
    · cases args.terminal with
      | false => rfl
      | true =>
        simp only [Bool.true_eq_false, if_false]
        split <;> rfl
    · rfl
  | exitFilled args =>
    simp only [Transition.handler, onExitFilled]
    split
    · cases args.terminal with
      | false => rfl
      | true =>
        simp only [Bool.true_eq_false, if_false]
        split
        · rfl
        · split <;> rfl
    · rfl

/-- So does every operation. -/
theorem stateOps_respects (config : StrategyConfig) (issued : ℕ → StateOp) :
    (stateOps config issued).Respects BotDoc.toPositionFields := by
  intro i d d' h
  show ((StateOp.apply config d (issued i)).getD d).toPositionFields =
    ((StateOp.apply config d' (issued i)).getD d').toPositionFields
  cases issued i with
  | transition t => exact handler_respects config t h
  | writeState fields =>
    obtain ⟨p, s, o, r, e, a⟩ := d
    obtain ⟨p', s', o', r', e', a'⟩ := d'
    dsimp only at h
    subst h
    rfl
  | applyCancel => exact h
  | applyReconciled qty avgPrice =>
    obtain ⟨p, s, o, r, e, a⟩ := d
    obtain ⟨p', s', o', r', e', a'⟩ := d'
    dsimp only at h
    subst h
    rfl
  | applyPositionEvent ibQty verified =>
    obtain ⟨p, s, o, r, e, a⟩ := d
    obtain ⟨p', s', o', r', e', a'⟩ := d'
    dsimp only at h
    subst h
    simp only [StateOp.apply, applyPositionEvent]
    split
    · rfl
    · split
      · rfl
      · cases verified with
        | none => rfl
        | some v =>
          dsimp only
          split <;> rfl

/-- The state and position fields of the stored document are those of some
    sequential order of the operations that have finished. -/
def Serializable (config : StrategyConfig) (issued : ℕ → StateOp) (doc : BotDoc)
    (accesses : List (Access ℕ)) (r : Shared BotDoc ℕ) : Prop :=
  ∃ order : List ℕ, (order ++ r.inFlight.keys).Perm (Operations.started accesses) ∧
    r.store.toPositionFields =
      ((stateOps config issued).serial doc order).toPositionFields

/-- No update of the state or the position is lost in a run in which no SET finds
    them changed since its operation's GET: in every state such a run reaches
    they are those of the finished operations run one after the other. -/
theorem serializable_of_undisturbed (config : StrategyConfig) (issued : ℕ → StateOp)
    (doc : BotDoc) (accesses : List (Access ℕ)) {r : Shared BotDoc ℕ}
    (hrun : (stateOps config issued).run { store := doc, inFlight := ∅ } accesses = some r)
    (hgood : (stateOps config issued).UndisturbedRun BotDoc.toPositionFields
      { store := doc, inFlight := ∅ } accesses) :
    Serializable config issued doc accesses r := by
  refine ⟨r.finished, ?_, ?_⟩
  · exact Operations.finished_perm_started accesses [] hrun (List.Perm.refl _)
  · exact Operations.view_eq_serial (stateOps_respects config issued) accesses hrun hgood rfl

/-- An entry that fills while `force_quit` arms the bot. -/
def armWhileFilling : ℕ → StateOp
  | 0 => .writeState { armed := some true }
  | 1 => .transition (.entryFilled
      { qty := 10, price := 100, terminal := true, side := "BUY", commission := 0 })
  | _ => .applyCancel

/-- With the timestamp write inside the fill and the arming after it, nothing is
    lost. -/
theorem serializable_of_undisturbed_fill :
    ∃ r, (stateOps {} armWhileFilling).run
        { store := { state := .entryOrderPlaced }, inFlight := ∅ }
        [.get 1, .get 2, .set 2, .set 1, .get 0, .set 0] = some r ∧
      Serializable {} armWhileFilling { state := .entryOrderPlaced }
        [.get 1, .get 2, .set 2, .set 1, .get 0, .set 0] r := by
  have hdone : ((stateOps {} armWhileFilling).run
      { store := { state := .entryOrderPlaced }, inFlight := ∅ }
      [.get 1, .get 2, .set 2, .set 1, .get 0, .set 0]).isSome = true := by decide +kernel
  obtain ⟨r, hr⟩ := Option.isSome_iff_exists.mp hdone
  exact ⟨r, hr, serializable_of_undisturbed {} armWhileFilling _ _ hr (by decide +kernel)⟩

/-- Updates are lost: when the fill falls between the GET and the SET of
    `_write_state`, the bot is back in `ENTRY_ORDER_PLACED` without the position
    it has just opened. -/
theorem serializable_fails :
    ¬∀ (config : StrategyConfig) (issued : ℕ → StateOp) (doc : BotDoc)
      (accesses : List (Access ℕ)) (r : Shared BotDoc ℕ),
      (stateOps config issued).run { store := doc, inFlight := ∅ } accesses = some r →
      r.inFlight.keys = [] → Serializable config issued doc accesses r := by
  intro hall
  have hfinal : ((stateOps {} armWhileFilling).run
      { store := { state := .entryOrderPlaced }, inFlight := ∅ }
      [.get 0, .get 1, .set 1, .set 0]).map (fun r => (r.store.state, r.inFlight.keys)) =
        some (.entryOrderPlaced, []) := by decide +kernel
  obtain ⟨r, hr, hstate⟩ := Option.map_eq_some_iff.mp hfinal
  obtain ⟨hstate, hkeys⟩ := Prod.mk.inj hstate
  obtain ⟨order, hperm, hfields⟩ := hall {} armWhileFilling { state := .entryOrderPlaced }
    [.get 0, .get 1, .set 1, .set 0] r hr hkeys
  rw [hkeys, List.append_nil] at hperm
  have hstarted : Operations.started [Access.get 0, .get 1, .set 1, .set 0] = [0, 1] := rfl
  rw [hstarted] at hperm
  obtain ⟨i, j, rfl⟩ := List.length_eq_two.mp hperm.length_eq
  have hi : i = 0 ∨ i = 1 := by simpa using hperm.subset (List.mem_cons_self)
  have hj : j = 0 ∨ j = 1 := by simpa using hperm.subset (List.mem_cons_of_mem i List.mem_cons_self)
  have hserial := congrArg PositionFields.state hfields
  rw [hstate] at hserial
  -- whichever of the two comes first, the position is open at the end
  rcases hi with rfl | rfl <;> rcases hj with rfl | rfl
  · exact absurd hperm (by decide)
  · exact absurd hserial (by decide +kernel)
  · exact absurd hserial (by decide +kernel)
  · exact absurd hperm (by decide)

/-- The lifecycle methods among themselves lose nothing: the state lock keeps
    them apart. -/
theorem serializable_of_transitions (config : StrategyConfig) {issued : ℕ → StateOp}
    (htransitions : ∀ i, ∃ t, issued i = .transition t) (doc : BotDoc)
    (accesses : List (Access ℕ)) {r : Shared BotDoc ℕ}
    (hrun : (stateOps config issued).run { store := doc, inFlight := ∅ } accesses = some r) :
    Serializable config issued doc accesses r := by
  refine serializable_of_undisturbed config issued doc accesses hrun ?_
  have hlock : ∀ i, (stateOps config issued).lockOf i = some .state := by
    intro i
    obtain ⟨t, ht⟩ := htransitions i
    show (issued i).lock = _
    rw [ht]
    rfl
  exact Operations.undisturbed_of_one_lock hlock accesses (Operations.exclusive_of_none rfl)

end IbTrader.Bots.Runtime
