/-
  IbTrader.Frontend.Store

  What the frontend's store makes of snapshots and differences
  (`frontend/src/data/store.ts`, `utils/format.ts`).

  A value that JavaScript leaves undefined is none.  What the engine reads in a number,
  a date or a JSON text is a parameter; a date that cannot be read is none.  Times are
  milliseconds.  The parts of the store that no message of a channel touches are left
  out, and so are the fields of `global` that none sets.
-/

import IbTrader.Api.Channels

namespace IbTrader.Frontend

open Api (Json Row Channel)
open Lib (Diff KeyedList)

-- ============================================================================
-- JavaScript
-- ============================================================================

/-- What the engine reads in a value. -/
structure Js where
  /-- `Number`, none for NaN. -/
  number : Option Json → Option ℚ
  /-- `parseFloat`, none for NaN. -/
  parseFloat : Option Json → Option ℚ
  /-- The time that `new Date` reads in a text. -/
  date : String → Option ℚ
  /-- `JSON.parse`, of a list of texts. -/
  parseTexts : Json → List String

/-- Whether a value counts as true. -/
def truthy : Option Json → Bool
  | none => false
  | some .null => false
  | some (.bool b) => b
  | some (.num q) => q ≠ 0
  | some (.str s) => s ≠ ""
  | some (.nested _) => true

/-- `v || d`. -/
def orElse (v : Option Json) (d : Json) : Json := if truthy v then v.getD d else d

/-- `v || undefined`. -/
def orUndefined (v : Option Json) : Option Json := if truthy v then v else none

/-- `v ?? null`. -/
def orNull (v : Option Json) : Json := v.getD .null

def lowerText (s : String) : String := String.ofList (s.toList.map Char.toLower)

/-- `v?.toLowerCase()`, of a text. -/
def toLowerCase : Option Json → Option String
  | some (.str s) => some (lowerText s)
  | _ => none

/-- A text that says its time zone. -/
def zoned (ts : String) : Bool :=
  ts.toList.getLast? = some 'Z' || ts.toList.contains '+' || (ts.toList.drop 10).contains '-'

/-- `parseUTC`. -/
def parseUTC (js : Js) (now : ℚ) (ts : Option Json) : Option ℚ :=
  if !truthy ts then some now
  else match ts with
    | some (.str s) => js.date (if zoned s then s else s ++ "Z")
    | _ => none

/-- `new Date`. -/
def newDate (js : Js) : Option Json → Option ℚ
  | some (.str s) => js.date s
  | some (.num q) => some q
  | _ => none

-- ============================================================================
-- The store
-- ============================================================================

structure TradeGroup where
  id : String
  serialNumber : Option Json
  symbol : Option Json
  direction : Option Json
  status : Option Json
  realizedPnl : Option Json
  totalCommission : Option Json
  openedAt : Option Json
  closedAt : Option Json
  entryQty : Json
  entryPrice : Json
  exitQty : Json
  exitPrice : Json
  orderType : Json
  deriving DecidableEq, Repr

structure Order where
  id : String
  symbol : Option Json
  side : Option Json
  quantity : Option ℚ
  filledQty : Option ℚ
  orderType : Option Json
  status : Option String
  source : String
  submittedAt : Option ℚ
  lastUpdate : Option ℚ
  limitPrice : Option (Option ℚ)
  avgFillPrice : Option (Option ℚ)
  deriving DecidableEq, Repr

structure Alert where
  id : String
  severity : Option String
  title : Option Json
  message : Option Json
  timestamp : Option ℚ
  dismissed : Bool
  source : String
  deriving DecidableEq, Repr

structure CommandEntry where
  id : String
  command : Option Json
  status : Option String
  output : Option Json
  startedAt : Option ℚ
  completedAt : Option (Option ℚ)
  deriving DecidableEq, Repr

structure Bot where
  id : String
  name : Option Json
  strategy : Option Json
  status : Option String
  lastHeartbeat : Option ℚ
  lastSignal : Option Json
  lastAction : Option Json
  lastActionTime : Option (Option ℚ)
  errorMessage : Option Json
  tradesTotal : Json
  tradesToday : Json
  pnlToday : ℚ
  symbols : List String
  refId : Option Json
  uptime : ℚ
  deriving DecidableEq, Repr

structure GlobalState where
  connectionStatus : Json := .str "connected"
  accountMode : Json := .str "paper"
  accountId : Json := .str ""
  serviceHealth : Json :=
    .nested "ib_gateway: true, market_data: true, order_router: true, reconciler: true"
  staleData : Bool := false
  realizedPnl : Json := .num (626025 / 100)
  sessionUptime : Json := .num 15780
  engineStartedAt : Json := .null
  deriving DecidableEq, Repr

structure Store where
  tradeGroups : List TradeGroup := []
  orders : List Order := []
  alerts : List Alert := []
  dismissedAlertIds : List String := []
  commands : List CommandEntry := []
  bots : List Bot := []
  global : GlobalState := {}
  deriving DecidableEq, Repr

-- ============================================================================
-- Rows
-- ============================================================================

section Rows

variable (js : Js) (now : ℚ)

def mapTrade (t : Row) : TradeGroup where
  id := t.id
  serialNumber := t.get "serial_number"
  symbol := t.get "symbol"
  direction := t.get "direction"
  status := t.get "status"
  realizedPnl := t.get "realized_pnl"
  totalCommission := t.get "total_commission"
  openedAt := t.get "opened_at"
  closedAt := t.get "closed_at"
  entryQty := orNull (t.get "entry_qty")
  entryPrice := orNull (t.get "entry_price")
  exitQty := orNull (t.get "exit_qty")
  exitPrice := orNull (t.get "exit_price")
  orderType := orNull (t.get "order_type")

def mapOrder (o : Row) : Order where
  id := o.id
  symbol := o.get "symbol"
  side := o.get "side"
  quantity := js.number (o.get "qty_requested")
  filledQty := js.number (o.get "qty_filled")
  orderType := o.get "order_type"
  status := toLowerCase (o.get "status")
  source := "system"
  submittedAt := parseUTC js now (o.get "placed_at")
  lastUpdate := parseUTC js now (o.get "placed_at")
  limitPrice := if truthy (o.get "price_placed") then some (js.number (o.get "price_placed")) else none
  avgFillPrice :=
    if truthy (o.get "avg_fill_price") then some (js.number (o.get "avg_fill_price")) else none

def mapAlert (dismissedIds : List String) (a : Row) : Alert where
  id := a.id
  severity := toLowerCase (a.get "severity")
  title := a.get "trigger"
  message := a.get "message"
  timestamp := parseUTC js now (a.get "created_at")
  dismissed := truthy (a.get "resolved_at") || a.id ∈ dismissedIds
  source := "system"

/-- A command, under the text the operator typed where the store has it. -/
def mapCommand (commands : List CommandEntry) (c : Row) : CommandEntry where
  id := c.id
  command :=
    let typed := (commands.reverse.find? (·.id = c.id)).bind (·.command)
    if truthy typed then typed else c.get "command_text"
  status := toLowerCase (c.get "status")
  output := c.get "output"
  startedAt := parseUTC js now (c.get "submitted_at")
  completedAt :=
    if truthy (c.get "completed_at") then some (parseUTC js now (c.get "completed_at")) else none

/-- `mapApiBotData`. -/
def mapApiBotData (b : Row) : Bot where
  id := b.id
  name := b.get "name"
  strategy := b.get "strategy"
  status := toLowerCase (some (orElse (b.get "status") (.str "stopped")))
  lastHeartbeat := if truthy (b.get "last_heartbeat") then newDate js (b.get "last_heartbeat") else some now
  lastSignal := orUndefined (b.get "last_signal")
  lastAction := orUndefined (b.get "last_action")
  lastActionTime :=
    if truthy (b.get "last_action_at") then some (newDate js (b.get "last_action_at")) else none
  errorMessage := orUndefined (b.get "error_message")
  tradesTotal := orElse (b.get "trades_total") (.num 0)
  tradesToday := orElse (b.get "trades_today") (.num 0)
  pnlToday := (js.parseFloat (b.get "pnl_today")).getD 0
  symbols :=
    if truthy (b.get "symbols_json") then js.parseTexts (orNull (b.get "symbols_json")) else []
  refId := b.get "ref_id"
  uptime := 0

/-- `applyStatusPayload`. -/
def applyStatusPayload (g : GlobalState) (rows : List Row) : GlobalState :=
  match rows.head? with
  | none => g
  | some status =>
    { connectionStatus := orElse (status.get "connection_status") (.str "disconnected")
      accountMode := orElse (status.get "account_mode") (.str "unknown")
      accountId := orElse (status.get "account_id") (.str "")
      serviceHealth := orElse (status.get "service_health") (.nested "{}")
      staleData := false
      realizedPnl := orElse (status.get "realized_pnl") (.num 0)
      sessionUptime := orElse (status.get "engine_uptime_seconds") (.num 0)
      engineStartedAt := orElse (status.get "engine_started_at") .null }

/-- The connection as the heartbeats have it. -/
def applyHeartbeats (g : GlobalState) (rows : List Row) : GlobalState :=
  match rows.find? (·.id = "ENGINE") with
  | none => g
  | some engineHb =>
    let alive := (parseUTC js now (engineHb.get "last_seen_at")).any (now - · < 60000)
    { g with connectionStatus := .str (if alive then "connected" else "disconnected") }

-- ============================================================================
-- Messages
-- ============================================================================

/-- `handleSnapshot`. -/
def handleSnapshot (s : Store) (data : Channel → Option (List Row)) : Store where
  tradeGroups := match data .trades with
    | some rows => rows.map mapTrade
    | none => s.tradeGroups
  orders := match data .orders with
    | some rows => rows.map (mapOrder js now)
    | none => s.orders
  alerts := match data .alerts with
    | some rows =>
      s.alerts.filter (·.source = "engine") ++ rows.map (mapAlert js now s.dismissedAlertIds)
    | none => s.alerts
  dismissedAlertIds := s.dismissedAlertIds
  commands := match data .commands with
    | some rows => (rows.map (mapCommand js now s.commands)).reverse
    | none => s.commands
  bots := match data .bots with
    | some rows => rows.map (mapApiBotData js now)
    | none => s.bots
  global :=
    let g := match data .heartbeats with
      | some rows => applyHeartbeats js now s.global rows
      | none => s.global
    match data .status with
    | some rows => applyStatusPayload g rows
    | none => g

/-- A command, with what a difference says of it. -/
def CommandEntry.updatedWith (c : CommandEntry) (cmd : Row) : CommandEntry :=
  { c with
    status := toLowerCase (cmd.get "status")
    output := cmd.get "output"
    completedAt :=
      if truthy (cmd.get "completed_at") then some (newDate js (cmd.get "completed_at")) else none }

/-- `updateCommand`, with a row of a difference. -/
def updateCommand (commands : List CommandEntry) (cmd : Row) : List CommandEntry :=
  commands.map fun c => if c.id = cmd.id then c.updatedWith js cmd else c

/-- The bots after a difference. -/
def patchBots (bots : List Bot) (diff : Diff Row) : List Bot :=
  let next := bots.filter fun b => b.id ∉ diff.removed.map (·.id)
  let addOrUpdate := (diff.added ++ diff.updated).map (mapApiBotData js now)
  (addOrUpdate.foldl KeyedList.set (KeyedList.ofList Bot.id next)).items

/-- `handleDiff`. -/
def handleDiff (s : Store) (channel : Channel) (diff : Diff Row) : Store :=
  match channel with
  | .commands => { s with commands := diff.updated.foldl (updateCommand js) s.commands }
  | .status =>
    match (diff.updated.head?).or diff.added.head? with
    | some row => { s with global := applyStatusPayload s.global [row] }
    | none => s
  | .bots => { s with bots := patchBots js now s.bots diff }
  | _ => s

end Rows

end IbTrader.Frontend
