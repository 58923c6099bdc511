/-
  IbTrader.Repl.CloseCommand

  The parsers of `close` and `modify`, and with them the whole of `parse_command`
  (`ib_trader/repl/commands.py`).

  Which characters are letters or digits is a parameter, as the other tables of Unicode
  are.
-/

import IbTrader.Repl.Commands

namespace IbTrader.Repl

open Data Lib

-- ============================================================================
-- Commands
-- ============================================================================

/-- `CloseCommand`: of a trade group by its serial, or of a ticker. -/
structure CloseCommand where
  serial : Option ℤ
  strategy : Strategy
  profitAmount : Option Decimal
  takeProfitPrice : Option Decimal
  limitPrice : Option Decimal := none
  stopPrice : Option Decimal := none
  botRef : Option String := none
  symbol : Option String := none
  securityType : String := "STK"
  deriving DecidableEq, Repr

/-- `ModifyCommand`. -/
structure ModifyCommand where
  serial : ℤ
  deriving DecidableEq, Repr

inductive Command
  | builtin (name : String)
  | order (cmd : OrderCommand)
  | close (cmd : CloseCommand)
  | modify (cmd : ModifyCommand)
  deriving DecidableEq, Repr

section Parser

variable (py : Python) (isalnum : Char → Bool)

-- ============================================================================
-- Close
-- ============================================================================

/-- What the flag of `close` sets, and the tokens that are none. -/
structure CloseFlags where
  takeProfitPrice : Option Decimal := none
  positional : List String := []
  deriving DecidableEq, Repr

/-- The tokens after the verb. -/
def scanClose : CloseFlags → List String → Except Failure CloseFlags
  | f, [] => .ok f
  | f, tok :: rest =>
    if tok = "--take-profit-price" then
      match rest with
      | [] => emitError "--take-profit-price requires a value"
      | value :: rest => do
        let d ← parseDecimal py value "--take-profit-price"
        scanClose { f with takeProfitPrice := some d } rest
    else if "--".toList.isPrefixOf tok.toList then emitError ("unknown option " ++ py.repr tok)
    else scanClose { f with positional := f.positional ++ [tok] } rest

/-- What is closed: a serial, or a symbol with its type. -/
structure Target where
  serial : Option ℤ := none
  symbol : Option String := none
  securityType : String := "STK"
  deriving DecidableEq, Repr

/-- The target of the first positional. -/
def closeTarget (takeProfitPrice : Option Decimal) (value : String) : Except Failure Target :=
  match integer py value with
  | some serial => .ok { serial := some serial }
  | none =>
    let token := py.upper value
    if token = "" ∨ ¬ token.toList.all isalnum then
      emitError ("expected a trade SERIAL or a SYMBOL, got " ++ py.repr value)
    else if takeProfitPrice ≠ none then emitError "--take-profit-price is not supported with close SYMBOL"
    else .ok {
      symbol := some token
      securityType := if isFuturesLocalSymbol py token then "FUT" else "STK" }

/-- The strategy of the second. -/
def closeStrategy (positional : List String) : Except Failure Strategy :=
  match positional[1]? with
  | none => return .smartMarket
  | some value =>
    match Strategy.ofValue (py.lower value) with
    | some strategy => return strategy
    | none =>
      emitError ("STRATEGY must be one of " ++
        ", ".intercalate (Strategy.all.map fun s => "'" ++ s.value ++ "'") ++ ", got " ++ py.repr value)

/-- The price of the third, where the strategy takes one, and the place after it. -/
def closePrice (priced : Bool) (positional : List String) (name missing : String) (nextPos : ℕ) :
    Except Failure (Option Decimal × ℕ) :=
  if priced then
    match positional[2]? with
    | none => emitError missing
    | some value => do
      let d ← parsePositive py value name
      return (some d, 3)
  else return (none, nextPos)

/-- A stop is for a symbol. -/
def checkStopTarget (strategy : Strategy) (target : Target) : Except Failure PUnit := do
  if strategy = .stop ∧ target.symbol = none then
    emitError "'stop' close is only supported in the close SYMBOL form (e.g. close GCV6 stop 3300)"

/-- A profit, which is for a serial; of what sign it is is not asked. -/
def closeProfit (target : Target) (value : Option String) : Except Failure (Option Decimal) :=
  match value with
  | none => return none
  | some value =>
    if target.symbol ≠ none then emitError "PROFIT is not supported with close SYMBOL"
    else some <$> parseDecimal py value "PROFIT"

/-- `parse_close`, of what the flag has set. -/
def assembleClose (f : CloseFlags) : Except Failure CloseCommand :=
  match f.positional with
  | [] => emitError "usage: close SERIAL|SYMBOL [STRATEGY] [PROFIT]"
  | first :: _ => do
    let target ← closeTarget py isalnum f.takeProfitPrice first
    let strategy ← closeStrategy py f.positional
    let (limitPrice, nextPos) ← closePrice py (strategy = .limit) f.positional "LIMIT_PRICE"
      "'limit' strategy requires a price: close SERIAL limit PRICE" 2
    checkStopTarget strategy target
    let (stopPrice, nextPos) ← closePrice py (strategy = .stop) f.positional "STOP_PRICE"
      "'stop' strategy requires a trigger price: close SYMBOL stop PRICE" nextPos
    let profitAmount ← closeProfit py target f.positional[nextPos]?
    return {
      serial := target.serial
      strategy, profitAmount
      takeProfitPrice := f.takeProfitPrice
      limitPrice, stopPrice
      symbol := target.symbol
      securityType := target.securityType }

/-- `parse_close`. -/
def parseClose (args : List String) : Except Failure CloseCommand := do
  let f ← scanClose py {} args
  assembleClose py isalnum f

-- ============================================================================
-- Modify
-- ============================================================================

/-- `parse_modify`. -/
def parseModify (args : List String) : Except Failure ModifyCommand :=
  match args with
  | [] => emitError "usage: modify SERIAL"
  | first :: _ =>
    match integer py first with
    | some serial => .ok { serial }
    | none => emitError ("SERIAL must be an integer, got " ++ py.repr first)

-- ============================================================================
-- Lines
-- ============================================================================

/-- The command of a line that is split; none where there is none. -/
def finish : Parsed → Except Failure (Option Command)
  | .nothing => return none
  | .builtin name => return some (.builtin name)
  | .order cmd => return some (.order cmd)
  | .handed verb tokens =>
    if verb = "close" then (some ∘ .close) <$> parseClose py isalnum (tokens.drop 1)
    else (some ∘ .modify) <$> parseModify py (tokens.drop 1)

/-- The whole of `parse_command`. -/
def parseLine (line : String) : Except Failure (Option Command) := do
  finish py isalnum (← parseCommand py line)

end Parser

end IbTrader.Repl
