/-
  IbTrader.Bots.Lifecycle

  The bot's lifecycle state and its document (`ib_trader/bots/lifecycle.py`).

  A bot keeps one JSON document in Redis.  `PositionFields` is the part that
  says where the bot stands: the `state` field and every field that the handlers
  of `runtime.py` write about the position and the order in flight.  `BotDoc`
  adds the other fields those handlers write.  A field that Python stores as
  `None` is an `Option`; `Decimal(str(doc.get(k) or "0"))` is `getD 0`.

  Timestamps are written but, `entry_time` apart, never read here; of
  `entry_time` only whether it is set is read.
-/

import Mathlib.Data.Rat.Defs
import Mathlib.Algebra.Order.Ring.Rat

namespace IbTrader.Bots

/-- `BotState`. -/
inductive BotState where
  | off
  | errored
  | awaitingEntryTrigger
  | entryOrderPlaced
  | awaitingExitTrigger
  | exitOrderPlaced
  deriving DecidableEq, Repr

/-- The text a state is stored as. -/
def BotState.value : BotState → String
  | .off => "OFF"
  | .errored => "ERRORED"
  | .awaitingEntryTrigger => "AWAITING_ENTRY_TRIGGER"
  | .entryOrderPlaced => "ENTRY_ORDER_PLACED"
  | .awaitingExitTrigger => "AWAITING_EXIT_TRIGGER"
  | .exitOrderPlaced => "EXIT_ORDER_PLACED"

/-- `BotState(text)`; `none` is its `ValueError`. -/
def BotState.ofValue (text : String) : Option BotState :=
  [.off, .errored, .awaitingEntryTrigger, .entryOrderPlaced, .awaitingExitTrigger,
    .exitOrderPlaced].find? fun s => s.value = text

/-- A state is read back from its text. -/
@[simp] theorem BotState.ofValue_value (s : BotState) : BotState.ofValue s.value = some s := by
  cases s <;> decide

/-- `ACTIVE_STATES`. -/
def activeStates : List BotState := [.entryOrderPlaced, .awaitingExitTrigger, .exitOrderPlaced, .errored]

/-- `position_direction`. -/
inductive Direction where
  | long
  | short
  deriving DecidableEq, Repr

/-- `MAX_EXIT_RETRIES`. -/
def maxExitRetries : ℕ := 3

/-- The `state` field and the position fields of the bot document. -/
structure PositionFields where
  state : BotState := .off
  qty : ℚ := 0
  avgPrice : Option ℚ := none
  entryPrice : Option ℚ := none
  entryTimeSet : Bool := false
  positionDirection : Option Direction := none
  orderQty : Option ℚ := none
  filledQty : ℚ := 0
  exitRetries : ℕ := 0
  serial : Option Int := none
  entrySerial : Option Int := none
  ibOrderId : Option String := none
  awaitingIbOrderId : Option String := none
  entryIbOrderId : Option String := none
  deriving DecidableEq, Repr

/-- The bot document. -/
structure BotDoc extends PositionFields where
  symbol : Option String := none
  orderOrigin : Option String := none
  lastRealizedPnl : Option ℚ := none
  errorReason : Option String := none
  armed : Bool := false
  deriving DecidableEq, Repr

namespace BotDoc

/-- `clear_position_fields_for_entry_timeout`: everything but the fields the
    strategy owns. -/
def clearPositionFieldsForEntryTimeout (d : BotDoc) : BotDoc :=
  { d with
    qty := 0
    entryPrice := none
    entryTimeSet := false
    serial := none
    ibOrderId := none
    awaitingIbOrderId := none
    orderQty := none
    filledQty := 0 }

/-- `clear_position_fields`. -/
def clearPositionFields (d : BotDoc) : BotDoc :=
  { d.clearPositionFieldsForEntryTimeout with positionDirection := none }

/-- The `state` assignment of `_apply_transition`. -/
def withState (d : BotDoc) (s : BotState) : BotDoc := { d with state := s }

@[simp] theorem clearPositionFieldsForEntryTimeout_state (d : BotDoc) :
    d.clearPositionFieldsForEntryTimeout.state = d.state := rfl

@[simp] theorem clearPositionFieldsForEntryTimeout_qty (d : BotDoc) :
    d.clearPositionFieldsForEntryTimeout.qty = 0 := rfl

@[simp] theorem clearPositionFieldsForEntryTimeout_avgPrice (d : BotDoc) :
    d.clearPositionFieldsForEntryTimeout.avgPrice = d.avgPrice := rfl

@[simp] theorem clearPositionFields_state (d : BotDoc) :
    d.clearPositionFields.state = d.state := rfl

@[simp] theorem clearPositionFields_qty (d : BotDoc) : d.clearPositionFields.qty = 0 := rfl

@[simp] theorem clearPositionFields_avgPrice (d : BotDoc) :
    d.clearPositionFields.avgPrice = d.avgPrice := rfl

@[simp] theorem withState_state (d : BotDoc) (s : BotState) : (d.withState s).state = s := rfl

@[simp] theorem withState_qty (d : BotDoc) (s : BotState) : (d.withState s).qty = d.qty := rfl

@[simp] theorem withState_avgPrice (d : BotDoc) (s : BotState) :
    (d.withState s).avgPrice = d.avgPrice := rfl

/-- `force_off_state`. -/
def forceOffState (reason : Option String) (d : BotDoc) : BotDoc :=
  ({ d.clearPositionFields with errorReason := reason }).withState .off

/-- `v in (None, "", "None")`. -/
def isEmptyField (v : Option String) : Bool := v = none ∨ v = some "" ∨ v = some "None"

/-- Why `is_clean_for_start` refuses a document. -/
inductive NotClean where
  | state (s : BotState)
  | qty (q : ℚ)
  | entryPrice (p : Option ℚ)
  | awaitingIbOrderId (v : Option String)
  | ibOrderId (v : Option String)
  deriving DecidableEq, Repr

/-- `is_clean_for_start`: `none` where it returns `(True, None)`. -/
def isCleanForStart : Option BotDoc → Option NotClean
  | none => none
  | some d =>
    if d.state ≠ .off then some (.state d.state)
    else if d.qty ≠ 0 then some (.qty d.qty)
    else if d.entryPrice ≠ none then some (.entryPrice d.entryPrice)
    else if ¬isEmptyField d.awaitingIbOrderId then some (.awaitingIbOrderId d.awaitingIbOrderId)
    else if ¬isEmptyField d.ibOrderId then some (.ibOrderId d.ibOrderId)
    else none

end BotDoc

end IbTrader.Bots
