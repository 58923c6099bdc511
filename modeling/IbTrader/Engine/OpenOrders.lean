/-
  IbTrader.Engine.OpenOrders

  The sweep that mirrors IB's open orders into the `orders:open` hash
  (`sync_orders_open_from_ib`, `ib_trader/engine/main.py`).

  A value of the hash is a row in JSON, or a text that does not read as one.  A field
  of a row is absent, null or a value; the fields that the sweep neither reads nor
  writes are kept as texts.  Of a live order a missing text, and a quantity or an
  average price of zero, is the empty text; prices are the values of their floats.

  The sweep takes the orders one after the other.  An order whose permId is stored
  under another key is moved from there, and its old key is deleted whatever has been
  written to it by then.
-/

import Mathlib.Algebra.Order.Ring.Rat
import IbTrader.Data.Symbols
import IbTrader.Lib.KeyedList

namespace IbTrader.Engine.OpenOrders

open Data Lib

-- ============================================================================
-- Live orders and rows
-- ============================================================================

/-- An order of `get_open_orders`. -/
structure LiveOrder where
  ibOrderId : String := ""
  permId : Option ℤ := none
  symbol : String := ""
  localSymbol : String := ""
  side : String := ""
  qty : String := ""
  orderType : String := ""
  limitPrice : Option ℚ := none
  status : String := ""
  qtyFilled : String := ""
  avgFillPrice : String := ""
  orderRef : String := ""
  secType : String := ""
  conId : ℤ := 0
  expiry : String := ""
  tradingClass : String := ""
  multiplier : String := ""
  stopPrice : Option ℚ := none
  trailingPercent : Option ℚ := none
  deriving DecidableEq, Repr

/-- A field of a row: absent, null or a value. -/
abbrev Field (α : Type) := Option (Option α)

/-- A field that is a text, empty where it is absent or null. -/
def Field.text (f : Field String) : String := f.join.getD ""

/-- A row of the hash. -/
structure Row where
  ibOrderId : Field String := none
  symbol : Field String := none
  side : Field String := none
  status : Field String := none
  terminal : Field Bool := none
  targetQty : Field String := none
  filledQty : Field String := none
  avgPrice : Field String := none
  orderType : Field String := none
  limitPrice : Field ℚ := none
  stopPrice : Field ℚ := none
  trailingPercent : Field ℚ := none
  secType : Field String := none
  conId : Field ℤ := none
  expiry : Field String := none
  tradingClass : Field String := none
  multiplier : Field String := none
  displaySymbol : Field String := none
  ts : Field String := none
  orderRef : Field String := none
  permId : Field ℤ := none
  extra : List (String × String) := []
  deriving DecidableEq, Repr

instance : EmptyCollection Row := ⟨{}⟩

/-- A time in ISO 8601. -/
abbrev Stamp := { s : String // s ≠ "" }

/-- The permId of an order or of a row; zero is none. -/
def perm (p : Option ℤ) : Option ℤ := p.filter (· ≠ 0)

/-- The permId a row is stored with. -/
def Row.perm (row : Row) : Option ℤ := OpenOrders.perm row.permId.join

-- ============================================================================
-- The row of a live order
-- ============================================================================

/-- `_f`. -/
def cleanPrice (v : Option ℚ) : Option ℚ := v.filter fun f => 0 < f ∧ f < 10 ^ 300

/-- The symbol of an order, of its contract month where IB gives it. -/
def LiveOrder.sym (o : LiveOrder) : String := upper (either o.localSymbol o.symbol)

/-- `o.get(..) or row.get(..)`, of texts. -/
def orRow (text : String) (f : Field String) : Option String := if text = "" then f.join else some text

/-- The security type of the merged row. -/
def mergedSecType (o : LiveOrder) (prev : Row) : String :=
  either (either o.secType prev.secType.text) "STK"

/-- The display symbol of the merged row. -/
def mergedDisplay (o : LiveOrder) (prev : Row) : String :=
  let expiry := (orRow o.expiry prev.expiry).getD ""
  either prev.displaySymbol.text
    (if mergedSecType o prev = "FUT" ∧ expiry ≠ "" then
      match formatDisplaySymbol (either o.symbol o.sym) "FUT" expiry with
      | some display => display
      | none => either o.symbol o.sym ++ " " ++ expiry
    else o.sym)

/-- The row of an order, over the row stored before. -/
def mergedRow (now : Stamp) (o : LiveOrder) (prev : Row) : Row :=
  { prev with
    ibOrderId := some (some o.ibOrderId)
    symbol := some (some o.sym)
    side := some (some (upper o.side))
    status := some (some (either o.status "Submitted"))
    terminal := some (some false)
    targetQty := some (some (either o.qty "0"))
    filledQty := some (some (either o.qtyFilled "0"))
    avgPrice := some (if o.avgFillPrice = "" then none else some o.avgFillPrice)
    orderType := some (orRow o.orderType prev.orderType)
    limitPrice := some (cleanPrice o.limitPrice)
    stopPrice := some (cleanPrice o.stopPrice)
    trailingPercent := some (cleanPrice o.trailingPercent)
    secType := some (some (mergedSecType o prev))
    conId := some (if o.conId = 0 then prev.conId.join else some o.conId)
    expiry := some (orRow o.expiry prev.expiry)
    tradingClass := some (orRow o.tradingClass prev.tradingClass)
    multiplier := some (orRow o.multiplier prev.multiplier)
    displaySymbol := some (some (mergedDisplay o prev))
    ts := some (some (either prev.ts.text now))
    orderRef := if prev.orderRef = none then some (some o.orderRef) else prev.orderRef
    permId := if perm o.permId = none then prev.permId else some o.permId }

-- ============================================================================
-- The sweep
-- ============================================================================

/-- The `orders:open` hash; a text that is not a row is none. -/
abbrev OpenHash := Dict String (Option Row)

/-- `existing`: the rows by key, as they are read. -/
def readRows (hash : OpenHash) : Dict String Row := hash.mapValues (·.getD ∅)

/-- `perm_to_key`: the last key whose row has a permId. -/
def permToKey (existing : Dict String Row) (p : ℤ) : Option String :=
  (existing.items.reverse.find? fun e => e.2.perm = some p).map Prod.fst

/-- `old_key`. -/
def oldKey (existing : Dict String Row) (o : LiveOrder) : Option String :=
  (perm o.permId).bind (permToKey existing)

/-- The key that the row of an order is moved from. -/
def movedFrom (existing : Dict String Row) (o : LiveOrder) : Option String :=
  (oldKey existing o).filter fun k => k ≠ "" ∧ k ≠ o.ibOrderId

/-- What the sweep has done. -/
structure Sync where
  existing : Dict String Row
  hash : OpenHash
  seen : List String := []
  upserts : ℕ := 0
  removals : ℕ := 0

/-- An order without a key or a symbol is passed over. -/
def LiveOrder.skipped (o : LiveOrder) : Bool :=
  o.ibOrderId = "" || o.ibOrderId = "0" || o.sym = ""

/-- Write the row of an order, where it is not the one it was made of. -/
def Sync.write (s : Sync) (now : Stamp) (o : LiveOrder) (prev : Row) : Sync :=
  let row := mergedRow now o prev
  if row = prev then { s with seen := o.ibOrderId :: s.seen }
  else
    { s with
      hash := s.hash.put o.ibOrderId (some row)
      seen := o.ibOrderId :: s.seen
      upserts := s.upserts + 1 }

/-- The step for one order, whose row is moved from `moved`. -/
def syncOrder (now : Stamp) (moved : Option String) (s : Sync) (o : LiveOrder) : Sync :=
  match moved with
  | some k =>
    { s with existing := s.existing.erase k, hash := s.hash.erase k }.write now o
      ((s.existing.value k).getD ∅)
  | none => s.write now o ((s.existing.value o.ibOrderId).getD ∅)

/-- Drop a row that no live order has. -/
def Sync.purgeKey (s : Sync) (k : String) : Sync :=
  if k ∈ s.seen then s else { s with hash := s.hash.erase k, removals := s.removals + 1 }

/-- The pass over the rows that are left. -/
def Sync.purge (s : Sync) : Sync := (s.existing.items.map Prod.fst).foldl Sync.purgeKey s

/-- `sync_orders_open_from_ib`; `clock` reads the time at each order. -/
def syncOrdersOpenFromIb (clock : LiveOrder → Stamp) (orders : List LiveOrder) (hash : OpenHash) : Sync :=
  let existing := readRows hash
  let step (s : Sync) (o : LiveOrder) : Sync :=
    if o.skipped then s else syncOrder (clock o) (movedFrom existing o) s o
  (orders.foldl step { existing, hash }).purge

end IbTrader.Engine.OpenOrders
