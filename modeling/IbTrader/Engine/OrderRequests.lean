/-
  IbTrader.Engine.OrderRequests

  Orders over the engine's internal API: the request, the text that is made of it
  (`OrderRequest` and `place_order` in `ib_trader/engine/internal_api.py`), and the
  command that the engine reads in the text (`execute_single_command` in
  `ib_trader/engine/service.py`, as far as it parses).

  The fields of a request that `place_order` does not read, its serial and its schema
  version, are left out.
-/

import IbTrader.Repl.Commands

namespace IbTrader.Engine

open Data Repl

-- ============================================================================
-- Requests
-- ============================================================================

structure OrderRequest where
  symbol : String
  side : String
  qty : String
  orderType : String := Strategy.mid.value
  price : Option String := none
  stopPrice : Option String := none
  botRef : Option String := none
  profit : Option String := none
  stopLoss : Option String := none
  cmdId : Option String := none
  securityType : String := "STK"
  expiry : Option String := none
  tradingClass : Option String := none
  exchange : Option String := none
  trailPercent : Option String := none
  trailAmount : Option String := none
  originalCmdText : Option String := none
  deriving DecidableEq, Repr

/-- `HTTPException`. -/
structure HTTPException where
  statusCode : ℕ
  detail : String
  deriving DecidableEq, Repr

/-- What `execute_single_command` is called with. -/
structure SingleCommand where
  cmdText : String
  source : String
  botRef : Option String
  cmdId : Option String
  deriving DecidableEq, Repr

/-- `_VALID_SIDES`. -/
def validSides : List String := ["BUY", "SELL"]

/-- `_VALID_ORDER_TYPES`. -/
def validOrderTypes : List String := Strategy.all.map Strategy.value

/-- `cmd_text += " {flag} {value}"`, where there is a value. -/
def withFlag (cmdText flag : String) (value : Option String) : String :=
  match given value with
  | some value => cmdText ++ " " ++ flag ++ " " ++ value
  | none => cmdText

section Requests

variable (py : Python)

/-- `sec_type_u`. -/
def OrderRequest.secType (req : OrderRequest) : String := py.upper (either req.securityType "STK")

/-- The value of `--trail`: a percentage has its sign, and goes before an amount. -/
def OrderRequest.trail (req : OrderRequest) : Option String :=
  match given req.trailPercent with
  | some percent => some (percent ++ "%")
  | none => req.trailAmount

/-- The text that is made of a request. -/
def OrderRequest.cmdText (req : OrderRequest) : String :=
  let sideCmd := if py.upper req.side = "BUY" then "buy" else "sell"
  let cmdText := sideCmd ++ " " ++ req.symbol ++ " " ++ req.qty ++ " " ++ req.orderType
  let cmdText := withFlag cmdText "--profit" req.profit
  let cmdText := withFlag cmdText "--stop-loss" req.stopLoss
  let cmdText := withFlag cmdText "--price" req.price
  let cmdText := withFlag cmdText "--stop-price" req.stopPrice
  let cmdText :=
    if req.secType py ≠ "STK" then cmdText ++ " " ++ "--sec-type" ++ " " ++ req.secType py else cmdText
  let cmdText := withFlag cmdText "--expiry" req.expiry
  let cmdText := withFlag cmdText "--trading-class" req.tradingClass
  let cmdText := withFlag cmdText "--exchange" req.exchange
  withFlag cmdText "--trail" req.trail

/-- `place_order`, to the call of `execute_single_command`. -/
def placeOrder (req : OrderRequest) : Except HTTPException SingleCommand :=
  if py.upper req.side ∉ validSides then
    .error ⟨422, "Invalid side: " ++ py.repr req.side ++ ". Must be BUY or SELL."⟩
  else if req.orderType ∉ validOrderTypes then
    .error ⟨422, "Invalid order_type: " ++ py.repr req.orderType ++ ". Must be one of " ++
      py.printSet validOrderTypes ++ "."⟩
  else .ok
    { cmdText := (given req.originalCmdText).getD (req.cmdText py)
      source := match given req.botRef with
        | some ref => "bot:" ++ ref
        | none => "api"
      botRef := req.botRef
      cmdId := req.cmdId }

/-- The command that `execute_single_command` reads, under the reference of its bot. -/
def SingleCommand.parsed (call : SingleCommand) : Except Failure Parsed := do
  match ← parseCommand py call.cmdText with
  | .order cmd =>
    match given call.botRef with
    | some ref => return .order { cmd with botRef := some ref }
    | none => return .order cmd
  | parsed => return parsed

end Requests

end IbTrader.Engine
