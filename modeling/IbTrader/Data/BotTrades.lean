/-
  IbTrader.Data.BotTrades

  A row of the `bot_trades` table and the writers of its commission
  (`ib_trader/data/repositories/bot_trade_repository.py`,
  `ib_trader/data/commissions.py`).

  Every function of the repository treats each row by itself, so they are given
  for one row.  A commission that is null is zero wherever it is read.  The columns
  no writer of the commission reads are left out.
-/

import IbTrader.Data.Ledger

namespace IbTrader.Data

/-- A bot's round trip. -/
structure BotTrade where
  botId : String := ""
  symbol : String
  exitTime : Option ℚ
  commission : ℚ
  entrySerial : Option ℤ
  exitSerial : Option ℤ
  deriving DecidableEq, Repr

/-- `ROUND_TRIP_MIN`. -/
def roundTripMin : List (String × ℚ) :=
  [("MGCQ6", 194 / 100), ("MESM6", 124 / 100), ("MNQM6", 124 / 100)]

/-- `expected_min`. -/
def expectedMin (symbol : String) : ℚ := (roundTripMin.lookup symbol).getD 0

namespace BotTrade

variable (row : BotTrade)

/-- The serial number is that of the entry or of the exit. -/
def hasSerial (serial : ℤ) : Bool := row.entrySerial = some serial ∨ row.exitSerial = some serial

/-- `add_commission_by_serial`. -/
def addCommissionBySerial (serial : ℤ) (delta : ℚ) : BotTrade :=
  if row.hasSerial serial then { row with commission := row.commission + delta } else row

/-- `update_commission_if_higher`. -/
def updateCommissionIfHigher (newValue : ℚ) : BotTrade :=
  if newValue ≤ row.commission then row else { row with commission := newValue }

/-- `find_undercommissioned_trades` returns the row. -/
def undercommissioned (now hours : ℚ) (skipBotIds : List String) : Bool :=
  row.exitTime.any (now - 3600 * hours ≤ ·) ∧ (roundTripMin.lookup row.symbol).isSome ∧
    row.botId ∉ skipBotIds ∧ row.commission < expectedMin row.symbol

/-- The serial numbers of the two legs that are not null. -/
def serials : List ℤ := [row.entrySerial, row.exitSerial].reduceOption

end BotTrade

end IbTrader.Data
