/-
  IbTrader.Repl.Commands

  The command parser (`ib_trader/repl/commands.py`).

  A parse that prints an error and returns nothing is a failure with the text it
  prints; comparing a NaN raises.  `parse_close` and `parse_modify`, to which the
  verbs of their own are handed, are left out.
-/

import IbTrader.Data.Python

namespace IbTrader.Repl

open Data Lib

-- ============================================================================
-- Symbols
-- ============================================================================

/-- `_FUTURES_ROOTS`. -/
def futuresRoots : List String :=
  ["ES", "MES", "NQ", "MNQ", "YM", "MYM", "RTY", "M2K", "CL", "MCL", "GC", "MGC", "SI", "SIL",
    "HG", "MHG", "ZN", "ZB", "ZF", "ZT", "6E", "6J", "6B", "6A", "6C"]

section Symbols

variable (py : Python)

/-- `parse_month_code`: the month and the digits of the year, of which the decade that
    one digit stands in is left out. -/
def parseMonthCode (token : List Char) : Option (ℕ × List ℕ) :=
  match token with
  | [] => none
  | letter :: rest =>
    match monthCodes.findIdx? (· = py.upper (String.singleton letter)), rest.mapM py.digit with
    | some month, some year =>
      if year.length = 1 ∨ year.length = 2 then some (month + 1, year) else none
    | _, _ => none

/-- `_is_futures_local_symbol`. -/
def isFuturesLocalSymbol (symbol : String) : Bool :=
  let s := (py.upper symbol).toList
  futuresRoots.any fun root =>
    root.toList.isPrefixOf s && (parseMonthCode py (s.drop root.length)).isSome

end Symbols

-- ============================================================================
-- Commands
-- ============================================================================

inductive Strategy
  | mid
  | market
  | bid
  | ask
  | limit
  | stop
  | smartMarket
  deriving DecidableEq, Repr

def Strategy.all : List Strategy := [.mid, .market, .bid, .ask, .limit, .stop, .smartMarket]

/-- The text of a strategy. -/
def Strategy.value : Strategy → String
  | .mid => "mid"
  | .market => "market"
  | .bid => "bid"
  | .ask => "ask"
  | .limit => "limit"
  | .stop => "stop"
  | .smartMarket => "smart_market"

/-- `Strategy`, of a text. -/
def Strategy.ofValue (value : String) : Option Strategy := Strategy.all.find? (·.value = value)

inductive Side
  | buy
  | sell
  deriving DecidableEq, Repr

/-- `BuyCommand` and `SellCommand`, which differ in their side alone. -/
structure OrderCommand where
  side : Side
  symbol : String
  qty : Option Decimal
  dollars : Option Decimal
  strategy : Strategy
  profitAmount : Option Decimal
  takeProfitPrice : Option Decimal
  stopLoss : Option Decimal
  limitPrice : Option Decimal := none
  stopPrice : Option Decimal := none
  botRef : Option String := none
  securityType : String := "STK"
  expiry : Option String := none
  tradingClass : Option String := none
  exchange : Option String := none
  trailPercent : Option Decimal := none
  trailAmount : Option Decimal := none
  deriving DecidableEq, Repr

/-- An error that is printed, or InvalidOperation. -/
inductive Failure
  | emitted (message : String)
  | raised
  deriving DecidableEq, Repr

/-- `_emit_error`, after which there is no command. -/
def emitError {α : Type} (message : String) : Except Failure α := .error (.emitted ("✗ Error: " ++ message))

-- ============================================================================
-- Decimals
-- ============================================================================

/-- `d <= q`. -/
def atMost (d : Decimal) (q : ℚ) : Except Failure Bool :=
  match d with
  | .finite r => .ok (r ≤ q)
  | .infinite negative => .ok negative
  | .nan => .error .raised

/-- `d >= q`. -/
def atLeast (d : Decimal) (q : ℚ) : Except Failure Bool :=
  match d with
  | .finite r => .ok (q ≤ r)
  | .infinite negative => .ok !negative
  | .nan => .error .raised

section Parser

variable (py : Python)

/-- `_parse_decimal`. -/
def parseDecimal (value name : String) : Except Failure Decimal :=
  let raw := strip py value
  let stripped := if startsWith raw '$' then String.ofList (raw.toList.drop 1) else raw
  match decimal py stripped with
  | some d => .ok d
  | none => emitError ("'" ++ name ++ "' must be a number, got: " ++ py.repr value)

/-- A decimal that has to be positive. -/
def parsePositive (value name : String) : Except Failure Decimal := do
  let d ← parseDecimal py value name
  if ← atMost d 0 then emitError (name ++ " must be a positive number")
  else return d

-- ============================================================================
-- Flags
-- ============================================================================

/-- What the flags set, and the tokens that are none. -/
structure Flags where
  dollars : Option Decimal := none
  takeProfitPrice : Option Decimal := none
  profitAmount : Option Decimal := none
  trailPercent : Option Decimal := none
  trailAmount : Option Decimal := none
  limitPrice : Option Decimal := none
  stopPrice : Option Decimal := none
  stopLoss : Option Decimal := none
  secType : Option String := none
  expiry : Option String := none
  tradingClass : Option String := none
  exchange : Option String := none
  positional : List String := []
  deriving DecidableEq, Repr

/-- A flag of a decimal. -/
def decimalFlag (set : Flags → Decimal → Flags) (name : String) (f : Flags) (value : String) :
    Except Failure Flags := do
  return set f (← parseDecimal py value name)

/-- `--trail`. -/
def trailFlag (f : Flags) (value : String) : Except Failure Flags := do
  let raw := strip py value
  if endsWith raw '%' then
    let pct ← parseDecimal py (String.ofList raw.toList.dropLast) "--trail"
    if (← atMost pct 0) || (← atLeast pct 50) then emitError "--trail percent must be in (0, 50)"
    else return { f with trailPercent := some pct }
  else
    let amt ← parseDecimal py raw "--trail"
    if ← atMost amt 0 then emitError "--trail amount must be positive"
    else return { f with trailAmount := some amt }

/-- What a flag makes of its value; none where the token is no flag that is known. -/
def flag (tok : String) : Option (Flags → String → Except Failure Flags) :=
  if tok = "--dollars" then
    some (decimalFlag py (fun f d => { f with dollars := some d }) tok)
  else if tok = "--take-profit-price" then
    some (decimalFlag py (fun f d => { f with takeProfitPrice := some d }) tok)
  else if tok = "--profit" then
    some (decimalFlag py (fun f d => { f with profitAmount := some d }) tok)
  else if tok = "--trail" then some (trailFlag py)
  else if tok = "--price" then
    some (decimalFlag py (fun f d => { f with limitPrice := some d }) tok)
  else if tok = "--stop-price" then
    some (decimalFlag py (fun f d => { f with stopPrice := some d }) tok)
  else if tok = "--stop-loss" then
    some (decimalFlag py (fun f d => { f with stopLoss := some d }) tok)
  else if tok = "--sec-type" ∨ tok = "--security-type" then
    some fun f value => .ok { f with secType := some (py.upper value) }
  else if tok = "--expiry" then some fun f value => .ok { f with expiry := some value }
  else if tok = "--trading-class" then some fun f value => .ok { f with tradingClass := some value }
  else if tok = "--exchange" then some fun f value => .ok { f with exchange := some value }
  else none

/-- The tokens after the verb. -/
def scan : Flags → List String → Except Failure Flags
  | f, [] => .ok f
  | f, tok :: rest =>
    match flag py tok with
    | some set =>
      match rest with
      | [] => emitError (tok ++ " requires a value" ++ if tok = "--trail" then " (e.g. 0.5% or 2.0)" else "")
      | value :: rest => do
        let f ← set f value
        scan f rest
    | none =>
      if "--".toList.isPrefixOf tok.toList then emitError ("unknown option " ++ py.repr tok)
      else scan { f with positional := f.positional ++ [tok] } rest

-- ============================================================================
-- Orders
-- ============================================================================

/-- The price that `limit` and `stop` take: a flag has it or the positional after the
    strategy, and the next positional is then a profit. -/
def strategyPrice (priced : Bool) (price : Option Decimal) (positional : List String)
    (name missing : String) (nextPos : ℕ) : Except Failure (Option Decimal × ℕ) :=
  if priced ∧ price = none then
    match positional[3]? with
    | none => emitError missing
    | some value => do
      let d ← parsePositive py value name
      return (some d, 4)
  else return (price, nextPos)

/-- A price that a flag has is for one strategy, and positive. -/
def checkPrice (price : Option Decimal) (priced : Bool) (onlyValid : String) :
    Except Failure PUnit := do
  if price ≠ none ∧ !priced then emitError onlyValid

def checkPositive (price : Option Decimal) (name : String) : Except Failure PUnit :=
  match price with
  | none => return
  | some d => do
    if ← atMost d 0 then emitError (name ++ " must be a positive number")

/-- The strategy, the place after it, and the text that is none. -/
def parseStrategy (positional : List String) : Except Failure (Strategy × ℕ) :=
  match positional[2]? with
  | none => return (.smartMarket, 2)
  | some value =>
    match Strategy.ofValue (py.lower value) with
    | some strategy => return (strategy, 3)
    | none =>
      emitError ("STRATEGY must be one of " ++
        ", ".intercalate (Strategy.all.map fun s => "'" ++ s.value ++ "'") ++ ", got " ++ py.repr value)

/-- `parse_buy_sell`, of what the flags have set. -/
def assemble (verb : String) (f : Flags) : Except Failure OrderCommand :=
  match f.positional with
  | symbol :: quantity :: _ => do
    let symbol := py.upper symbol
    let securityType := f.secType.getD (if isFuturesLocalSymbol py symbol then "FUT" else "STK")
    let qty ← match f.dollars with
      | none => do
        let d ← parsePositive py quantity "QTY"
        pure (some d)
      | some _ => pure none
    let (strategy, nextPos) ← parseStrategy py f.positional
    let (limitPrice, nextPos) ← strategyPrice py (strategy = .limit) f.limitPrice f.positional "LIMIT_PRICE"
      ("'limit' strategy requires a price: " ++ verb ++ " SYMBOL QTY limit PRICE") nextPos
    let (stopPrice, nextPos) ← strategyPrice py (strategy = .stop) f.stopPrice f.positional "STOP_PRICE"
      ("'stop' strategy requires a trigger price: " ++ verb ++ " SYMBOL QTY stop PRICE") nextPos
    checkPrice limitPrice (strategy = .limit) "--price is only valid with the 'limit' strategy"
    checkPrice stopPrice (strategy = .stop) "--stop-price is only valid with the 'stop' strategy"
    checkPositive limitPrice "LIMIT_PRICE"
    checkPositive stopPrice "STOP_PRICE"
    let profitAmount ← match f.positional[nextPos]? with
      | none => pure f.profitAmount
      | some value => do
        let d ← parsePositive py value "PROFIT"
        pure (some d)
    let exchange := (given f.exchange).or (if securityType = "FUT" then some "CME" else none)
    if (f.trailPercent ≠ none ∨ f.trailAmount ≠ none) ∧ securityType ≠ "FUT" then
      emitError ("--trail is FUT-only (IB-simulated STK trailing stops " ++
        "only run during RTH and aren't reliable overnight)")
    return {
      side := if verb = "buy" then .buy else .sell
      symbol, qty
      dollars := f.dollars
      strategy, profitAmount
      takeProfitPrice := f.takeProfitPrice
      stopLoss := f.stopLoss
      limitPrice, stopPrice, securityType
      expiry := f.expiry
      tradingClass := f.tradingClass
      exchange
      trailPercent := f.trailPercent
      trailAmount := f.trailAmount }
  | _ => emitError ("usage: " ++ verb ++ " SYMBOL QTY [STRATEGY] [PROFIT]")

/-- `parse_buy_sell`. -/
def parseBuySell (verb : String) (args : List String) : Except Failure OrderCommand := do
  let f ← scan py {} args
  assemble py (py.lower verb) f

-- ============================================================================
-- Lines
-- ============================================================================

/-- What a line is: nothing, a built-in, an order, or a command of another parser. -/
inductive Parsed
  | nothing
  | builtin (name : String)
  | order (cmd : OrderCommand)
  | handed (verb : String) (tokens : List String)
  deriving DecidableEq, Repr

/-- `parse_command`. -/
def parseCommand (line : String) : Except Failure Parsed :=
  let line := strip py line
  if line = "" then return .nothing
  else
    match ShellWords.split line with
    | .error e => emitError e
    | .ok [] => return .nothing
    | .ok (first :: args) =>
      let verb := py.lower first
      if verb ∈ ["exit", "quit"] then return .builtin "exit"
      else if verb ∈ ["orders", "stats", "status", "refresh", "help"] then return .builtin verb
      else if verb ∈ ["buy", "sell"] then .order <$> parseBuySell py first args
      else if verb ∈ ["close", "modify"] then return .handed verb (first :: args)
      else emitError ("unknown command " ++ py.repr verb ++ ". Type 'help' for available commands.")

end Parser

end IbTrader.Repl
