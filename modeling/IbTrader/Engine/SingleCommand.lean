/-
  IbTrader.Engine.SingleCommand

  `execute_single_command` (`ib_trader/engine/service.py`): a command of the internal API
  from its text to its answer, with the row of the audit table and the marker of the live
  output that tell how it ended.

  A run is determined by what its calls come back with.  Of `execute_order` and
  `execute_close` there are the calls up to the order they place, the tag of the order and
  the serial they hand to the renderer; what they read and write besides is left out.
-/

import IbTrader.Engine.OrderRef
import IbTrader.Lib.Fallible
import IbTrader.Repl.CloseCommand

namespace IbTrader.Engine.SingleCommand

open Lib Fallible Data
open OrderRef (encode)
open Repl (Command CloseCommand parseLine)

-- ============================================================================
-- State
-- ============================================================================

/-- An exception with its text, or `asyncio.CancelledError`, which no `except Exception`
    catches. -/
inductive Raised where
  | exception (text : String)
  | taskCancelled
  deriving DecidableEq, Repr

/-- What a call comes back with. -/
abbrev Reply (α : Type) := Except Raised α

/-- The status of a command that is done. -/
inductive Status where
  | success
  | failure
  deriving DecidableEq, Repr

/-- What `complete` writes to the audit row. -/
structure Completion where
  status : Status
  output : Option String := none
  error : Option String := none
  deriving DecidableEq, Repr

/-- The terminal marker of the output stream. -/
structure Marker where
  status : Status
  error : String := ""
  deriving DecidableEq, Repr

structure State where
  completions : List Completion := []
  markers : List Marker := []
  /-- The tags of the orders placed for the command. -/
  orders : List (Option String) := []
  /-- `metadata` of the renderer. -/
  serial : Option ℤ := none
  ibOrderId : Option String := none
  messages : List String := []
  /-- A buy, sell or close has returned. -/
  executed : Bool := false
  deriving DecidableEq, Repr

/-- The state with the row written, if it is. -/
def State.withRow (s : State) (c : Completion) (written : Bool) : State :=
  if written then { s with completions := s.completions ++ [c] } else s

/-- The state with the marker added, if it is. -/
def State.withMarker (s : State) (m : Marker) (added : Bool) : State :=
  if added then { s with markers := s.markers ++ [m] } else s

abbrev Service := EStateM Raised State

def runIf (p : Bool) (x : Service Unit) : Service Unit := if p then x else pure ()

def call {α : Type} : Reply α → Service α
  | .ok a => pure a
  | .error e => throw e

/-- A line of output that the renderer keeps, unless it is the last one once more. -/
def append (messages : List String) (message : String) : List String :=
  if messages.getLast? = some message then messages else messages ++ [message]

def emit (lines : List String) : Service Unit := modify fun s => { s with messages := lines.foldl append s.messages }

/-- `update_order_row`. -/
def updateOrderRow (serial : ℤ) (ibOrderId : Option String) : Service Unit := modify fun s =>
  { s with serial := some serial, ibOrderId := (given ibOrderId).or s.ibOrderId }

-- ============================================================================
-- What the calls come back with
-- ============================================================================

/-- A position of `positions_cache`. -/
structure Position where
  localSymbol : Option String := none
  symbol : Option String := none
  quantity : ℚ
  deriving DecidableEq, Repr

structure Env where
  py : Python
  /-- `str.isalnum`, of a character. -/
  isalnum : Char → Bool
  /-- `hostname()`. -/
  host : String
  positions : List Position := []
  /-- `ctx.pending_commands` and `ctx.redis` are there. -/
  audited : Bool := true
  redis : Bool := true

/-- The calls of `execute_order`. -/
structure OrderReplies where
  /-- The contract, the quantity and the limits: whether the order is let through. -/
  checked : Reply Bool := .ok true
  serial : Reply ℤ := .ok 0
  created : Reply Unit := .ok ()
  /-- The prices, and the row of the attempt. -/
  priced : Reply Unit := .ok ()
  placed : Reply String := .ok ""
  /-- A smart-market order has crossed to a market order. -/
  crossed : Bool := false
  finished : Reply Unit := .ok ()
  deriving DecidableEq

/-- The calls of `execute_close`. -/
structure CloseReplies where
  /-- The symbol of the trade and the side that closes it, if there is something to close. -/
  found : Reply (Option (String × Repl.Side)) := .ok none
  /-- The cancels of its exits, and the contract. -/
  prepared : Reply Unit := .ok ()
  /-- `get_open_orders`. -/
  listed : Reply Unit := .ok ()
  /-- The order that closes. -/
  order : OrderReplies := {}
  /-- The sweep of the working orders. -/
  swept : Reply Unit := .ok ()
  deriving DecidableEq

/-- What becomes of a marker.  Another exception than a cancel is alerted and no more. -/
structure Publish where
  added : Bool := true
  cancelled : Bool := false
  deriving DecidableEq, Repr

/-- The calls of `execute_single_command`.  Where `complete` returns it says whether the
    row has been written. -/
structure Replies where
  /-- What the insert of the audit row raises. -/
  inserted : Option String := none
  /-- The task is cancelled while the insert is announced. -/
  announced : Bool := false
  builtin : Except String String := .ok ""
  order : OrderReplies := {}
  close : CloseReplies := {}
  /-- What the execution has put out. -/
  lines : List String := []
  completed : Except String Bool := .ok true
  notified : Bool := false
  published : Publish := {}
  /-- The same in the handler. -/
  failed : Except String Bool := .ok true
  failNotified : Bool := false
  failPublished : Publish := {}
  deriving DecidableEq

-- ============================================================================
-- `execute_order` and `execute_close`
-- ============================================================================

def sideCode : Repl.Side → String
  | .buy => "B"
  | .sell => "S"

/-- `order_ref`: the tag of an order, if a bot places it. -/
def orderTag (env : Env) (botRef : Option String) (symbol : String) (side : Repl.Side) (serial : ℤ) :
    Service (Option String) :=
  match given botRef with
  | none => pure none
  | some bot =>
    match encode env.py env.host bot symbol (sideCode side) serial with
    | .ok ref => pure (some ref)
    | .error text => throw (.exception text)

/-- An order is placed under a tag. -/
def placeOrder (tag : Option String) : Service Unit := modify fun s => { s with orders := s.orders ++ [tag] }

/-- `execute_order`. -/
def executeOrder (env : Env) (side : Repl.Side) (symbol : String) (botRef : Option String) (a : OrderReplies) :
    Service Unit := do
  let pass ← call a.checked
  if pass then do
    let serial ← call a.serial
    updateOrderRow serial none
    call a.created
    let tag ← orderTag env botRef symbol side serial
    call a.priced
    let ibOrderId ← call a.placed
    placeOrder tag
    updateOrderRow serial (some ibOrderId)
    runIf a.crossed (placeOrder tag)
    call a.finished
  else pure ()

/-- `execute_close`, by serial. -/
def executeCloseSerial (env : Env) (serial : ℤ) (botRef : Option String) (a : CloseReplies) : Service Unit := do
  let found ← call a.found
  match found with
  | none => pure ()
  | some (symbol, side) => do
    call a.prepared
    let tag ← orderTag env botRef symbol side serial
    call a.order.priced
    let _ ← call a.order.placed
    placeOrder tag
    runIf a.order.crossed (placeOrder tag)
    call a.order.finished

/-- The symbol a position is looked up by. -/
def Position.key (py : Python) (p : Position) : String := py.upper (((given p.localSymbol).or p.symbol).getD "")

/-- `pos_qty`. -/
def positionQty (env : Env) (sym : String) : ℚ :=
  ((env.positions.find? (·.key env.py = sym)).map (·.quantity)).getD 0

/-- `_execute_close_symbol`. -/
def executeCloseSymbol (env : Env) (symbol : String) (botRef : Option String) (a : CloseReplies) :
    Service Unit := do
  call a.listed
  let sym := env.py.upper symbol
  let posQty := positionQty env sym
  if posQty = 0 then call a.swept
  else do
    executeOrder env (if 0 < posQty then .sell else .buy) sym botRef a.order
    call a.swept

/-- `execute_close`. -/
def executeClose (env : Env) (cmd : CloseCommand) (botRef : Option String) (a : CloseReplies) : Service Unit :=
  match given cmd.symbol with
  | some symbol => executeCloseSymbol env symbol botRef a
  | none =>
    match cmd.serial with
    | some serial => executeCloseSerial env serial botRef a
    | none => throw (.exception "No trade with serial #None")

-- ============================================================================
-- `execute_single_command`
-- ============================================================================

/-- `_notify_commands_changed`, of which only a cancel gets out. -/
def notifyCommandsChanged (env : Env) (cancelled : Bool) : Service Unit :=
  if env.redis ∧ cancelled then throw .taskCancelled else pure ()

/-- `complete` and the announcement, for an audited command. -/
def complete (env : Env) (c : Completion) (reply : Except String Bool) (cancelled : Bool) : Service Unit :=
  if env.audited then
    match reply with
    | .error text => throw (.exception text)
    | .ok written => do
      modify (·.withRow c written)
      notifyCommandsChanged env cancelled
  else pure ()

/-- `publish_terminal`. -/
def publishTerminal (env : Env) (m : Marker) (p : Publish) : Service Unit :=
  if env.redis then do
    modify (·.withMarker m p.added)
    runIf p.cancelled (throw .taskCancelled)
  else pure ()

/-- The answer to a command. -/
structure Result where
  status : Status
  output : String
  cmdId : String
  serial : Option ℤ := none
  ibOrderId : Option String := none
  orderRef : Option String := none
  deriving DecidableEq, Repr

/-- The `bot_ref` of a command that is given one. -/
def injected (botRef own : Option String) : Option String := (given botRef).or own

/-- The execution of a command that is not built in.  `modify` has none. -/
def execute (env : Env) (botRef : Option String) (r : Replies) (cmd : Command) : Service Unit := do
  match cmd with
  | .order cmd => do
    executeOrder env cmd.side cmd.symbol (injected botRef cmd.botRef) r.order
    modify fun s => { s with executed := true }
  | .close cmd => do
    executeClose env cmd (injected botRef cmd.botRef) r.close
    modify fun s => { s with executed := true }
  | .modify _ | .builtin _ => pure ()
  emit r.lines

/-- `encode_ref`, of which ValueError and AttributeError are passed over. -/
def resultRef (env : Env) (botRef : Option String) (cmd : Command) (serial : Option ℤ) : Service (Option String) :=
  match given botRef, serial with
  | some bot, some serial =>
    match cmd with
    | .order cmd => pure (encode env.py env.host bot cmd.symbol (sideCode cmd.side) serial).toOption
    | .close cmd =>
      match cmd.symbol with
      | some symbol => pure (encode env.py env.host bot symbol "S" serial).toOption
      | none =>
        -- the TypeError of `":" in None`, after the ValueErrors of the fields before it
        if ':' ∈ env.host.toList ∨ ':' ∈ bot.toList then pure none
        else throw (.exception "argument of type 'NoneType' is not iterable")
    | .modify _ | .builtin _ => pure none
  | _, _ => pure none

/-- The text of a line that is no command. -/
def answerUnknown (env : Env) (commandText cmdId : String) (r : Replies) : Service Result := do
  let error := "Unknown command: " ++ commandText
  complete env { status := .failure, error := some error } r.completed r.notified
  publishTerminal env { status := .failure, error } r.published
  pure { status := .failure, output := error, cmdId }

/-- A built-in command. -/
def answerBuiltin (env : Env) (cmdId : String) (r : Replies) : Service Result := do
  let output ← call (r.builtin.mapError .exception)
  complete env { status := .success, output := some output } r.completed r.notified
  publishTerminal env { status := .success } r.published
  pure { status := .success, output, cmdId }

/-- A buy, sell, close or modify. -/
def answerCommand (env : Env) (botRef : Option String) (cmdId : String) (r : Replies) (cmd : Command) :
    Service Result := do
  execute env botRef r cmd
  let output := "\n".intercalate (← get).messages
  complete env { status := .success, output := some output } r.completed r.notified
  let s ← get
  let orderRef ← resultRef env botRef cmd s.serial
  publishTerminal env { status := .success } r.published
  pure { status := .success, output, cmdId, serial := s.serial, ibOrderId := s.ibOrderId, orderRef }

/-- The body of the `try`. -/
def answer (env : Env) (commandText : String) (botRef : Option String) (cmdId : String) (r : Replies) :
    Service Result :=
  match parseLine env.py env.isalnum commandText with
  | .error .raised => throw (.exception "[<class 'decimal.InvalidOperation'>]")
  | .error (.emitted message) => do
    emit [message]
    answerUnknown env commandText cmdId r
  | .ok none => answerUnknown env commandText cmdId r
  | .ok (some (.builtin _)) => answerBuiltin env cmdId r
  | .ok (some cmd) => answerCommand env botRef cmdId r cmd

/-- The `except Exception`. -/
def handle (env : Env) (r : Replies) : Raised → Service Result
  | .taskCancelled => throw .taskCancelled
  | .exception error => do
    complete env { status := .failure, error := some error } r.failed r.failNotified
    publishTerminal env { status := .failure, error } r.failPublished
    throw (.exception error)

/-- The insert of the audit row. -/
def insertRow (env : Env) (r : Replies) : Service Unit :=
  if env.audited then
    match r.inserted with
    | some text => throw (.exception text)
    | none => notifyCommandsChanged env r.announced
  else pure ()

/-- `execute_single_command`. -/
def executeSingleCommand (env : Env) (commandText : String) (botRef : Option String) (cmdId : String)
    (r : Replies) : Service Result := do
  insertRow env r
  tryCatch (answer env commandText botRef cmdId r) (handle env r)

end IbTrader.Engine.SingleCommand
