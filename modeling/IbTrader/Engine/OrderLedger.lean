/-
  IbTrader.Engine.OrderLedger

  The per-order fill ledger of the engine (`ib_trader/engine/order_ledger.py`):
  one entry per in-flight `ib_order_id`, progress events on every fill and
  status, one terminal event when IB reports a terminal status.

  `Decimal` amounts are rationals.  IB statuses, sides and order references are
  the strings IB and the callers pass, any string included.  A ledger carries
  its key invariant as a field: the entry stored under an id is the entry of
  that id, which `_entries[ib_order_id] = _LedgerEntry(ib_order_id=...)` keeps.
  The wall-clock fields (`ts` of an event, `created_at` of an entry) are read by
  no function modelled here and are left out.
-/

import Mathlib.Data.List.AList
import Mathlib.Algebra.BigOperators.Group.List.Basic
import Mathlib.Algebra.Order.Ring.Rat
import Mathlib.Data.Finset.Insert
import IbTrader.Lib.Mealy

namespace IbTrader.Engine.OrderLedger

-- ============================================================================
-- Entries and events
-- ============================================================================

/-- `_TERMINAL_STATUSES`. -/
def terminalStatuses : List String := ["Filled", "Cancelled", "Inactive", "ApiCancelled"]

/-- `_PHANTOM_IB_ORDER_IDS`: the ids ib_async reports for orders with no live
    client-side trade. -/
def phantomIbOrderIds : List String := ["", "0"]

/-- `_PREROUTE_PREV_STATUSES`. -/
def preroutePrevStatuses : List String := ["PreSubmitted", "Submitted", "PendingSubmit"]

/-- `_Fill`. -/
structure Fill where
  qty : ℚ
  price : ℚ
  commission : ℚ
  execId : String
  deriving DecidableEq, Repr

/-- `_LedgerEntry`. -/
structure LedgerEntry where
  ibOrderId : String
  orderRef : String
  symbol : String
  secType : String
  conId : Int
  side : String
  targetQty : ℚ
  fills : List Fill := []
  lastStatus : String := "PendingSubmit"
  prePosition : Option ℚ := none
  deriving DecidableEq, Repr

namespace LedgerEntry

/-- The `filled_qty` property. -/
def filledQty (e : LedgerEntry) : ℚ := (e.fills.map Fill.qty).sum

/-- The `avg_price` property. -/
def avgPrice (e : LedgerEntry) : Option ℚ :=
  if e.filledQty = 0 then none
  else some ((e.fills.map (fun f => f.qty * f.price)).sum / e.filledQty)

/-- The `total_commission` property. -/
def totalCommission (e : LedgerEntry) : ℚ := (e.fills.map Fill.commission).sum

/-- `entry.fills.append(fill)`. -/
def addFill (e : LedgerEntry) (f : Fill) : LedgerEntry := { e with fills := e.fills ++ [f] }

/-- `entry.last_status = status`. -/
def withStatus (e : LedgerEntry) (status : String) : LedgerEntry := { e with lastStatus := status }

@[simp] theorem addFill_ibOrderId (e : LedgerEntry) (f : Fill) :
    (e.addFill f).ibOrderId = e.ibOrderId := rfl

@[simp] theorem addFill_targetQty (e : LedgerEntry) (f : Fill) :
    (e.addFill f).targetQty = e.targetQty := rfl

@[simp] theorem addFill_filledQty (e : LedgerEntry) (f : Fill) :
    (e.addFill f).filledQty = e.filledQty + f.qty := by
  simp [addFill, filledQty]

@[simp] theorem withStatus_ibOrderId (e : LedgerEntry) (status : String) :
    (e.withStatus status).ibOrderId = e.ibOrderId := rfl

@[simp] theorem withStatus_targetQty (e : LedgerEntry) (status : String) :
    (e.withStatus status).targetQty = e.targetQty := rfl

@[simp] theorem withStatus_filledQty (e : LedgerEntry) (status : String) :
    (e.withStatus status).filledQty = e.filledQty := rfl

end LedgerEntry

/-- The payload published on the `order:updates` stream. -/
structure LedgerEvent where
  ibOrderId : String
  orderRef : String
  symbol : String
  secType : String
  conId : Int
  side : String
  terminal : Bool
  status : String
  targetQty : ℚ
  filledQty : ℚ
  avgPrice : Option ℚ
  totalCommission : ℚ
  lastFillQty : Option ℚ
  lastFillPrice : Option ℚ
  deriving DecidableEq, Repr

/-- `_make_event`. -/
def makeEvent (e : LedgerEntry) (terminal : Bool) (status : String)
    (lastFillQty lastFillPrice : Option ℚ := none) : LedgerEvent where
  ibOrderId := e.ibOrderId
  orderRef := e.orderRef
  symbol := e.symbol
  secType := e.secType
  conId := e.conId
  side := e.side
  terminal := terminal
  status := status
  targetQty := e.targetQty
  filledQty := e.filledQty
  avgPrice := e.avgPrice
  totalCommission := e.totalCommission
  lastFillQty := lastFillQty
  lastFillPrice := lastFillPrice

/-- `_resolve_terminal_status`. -/
def resolveTerminalStatus (e : LedgerEntry) : String :=
  if 0 < e.filledQty ∧ (e.targetQty ≤ e.filledQty ∨ e.targetQty = 0) then "Filled"
  else if e.filledQty = 0 then
    if e.lastStatus = "Inactive" then "Rejected" else "Cancelled"
  else "PartialFillCancelled"

-- ============================================================================
-- The ledger
-- ============================================================================

/-- What the broker answers when asked for the net position of a symbol and
    security type; `none` is a lookup that raises. -/
abbrev PositionGetter := String → String → Option ℚ

/-- `OrderLedger`: the live entries by id, the ids evicted with a terminal
    event, and whether a position getter was wired at construction. -/
structure Ledger where
  entries : AList (fun _ : String => LedgerEntry)
  recentlyEvicted : Finset String
  positionGetterWired : Bool
  keyed : ∀ id e, entries.lookup id = some e → e.ibOrderId = id

namespace Ledger

/-- `OrderLedger(position_getter)`. -/
def init (wired : Bool) : Ledger where
  entries := ∅
  recentlyEvicted := ∅
  positionGetterWired := wired
  keyed := by intro id e h; simp at h

/-- `self._entries.get(ib_order_id)`. -/
def get (l : Ledger) (id : String) : Option LedgerEntry := l.entries.lookup id

/-- `self._entries[entry.ib_order_id] = entry`, and every in-place update of a
    stored entry. -/
def put (l : Ledger) (e : LedgerEntry) : Ledger where
  entries := l.entries.insert e.ibOrderId e
  recentlyEvicted := l.recentlyEvicted
  positionGetterWired := l.positionGetterWired
  keyed := by
    intro id e' h
    by_cases hid : id = e.ibOrderId
    · subst hid
      rw [AList.lookup_insert] at h
      cases h
      rfl
    · rw [AList.lookup_insert_ne hid] at h
      exact l.keyed id e' h

/-- `self._entries.pop(id)` and `self._recently_evicted.add(id)`. -/
def evict (l : Ledger) (id : String) : Ledger where
  entries := l.entries.erase id
  recentlyEvicted := insert id l.recentlyEvicted
  positionGetterWired := l.positionGetterWired
  keyed := by
    intro id' e h
    by_cases hid : id' = id
    · subst hid
      rw [AList.lookup_erase] at h
      cases h
    · rw [AList.lookup_erase_ne hid] at h
      exact l.keyed id' e h

@[simp] theorem init_get (wired : Bool) (id : String) : (init wired).get id = none := rfl

@[simp] theorem init_recentlyEvicted (wired : Bool) : (init wired).recentlyEvicted = ∅ := rfl

@[simp] theorem put_get_self (l : Ledger) (e : LedgerEntry) :
    (l.put e).get e.ibOrderId = some e :=
  AList.lookup_insert l.entries

@[simp] theorem put_recentlyEvicted (l : Ledger) (e : LedgerEntry) :
    (l.put e).recentlyEvicted = l.recentlyEvicted := rfl

@[simp] theorem put_positionGetterWired (l : Ledger) (e : LedgerEntry) :
    (l.put e).positionGetterWired = l.positionGetterWired := rfl

@[simp] theorem evict_recentlyEvicted (l : Ledger) (id : String) :
    (l.evict id).recentlyEvicted = insert id l.recentlyEvicted := rfl

@[simp] theorem evict_positionGetterWired (l : Ledger) (id : String) :
    (l.evict id).positionGetterWired = l.positionGetterWired := rfl

theorem ibOrderId_of_get {l : Ledger} {id : String} {e : LedgerEntry} (h : l.get id = some e) :
    e.ibOrderId = id := l.keyed id e h

end Ledger

-- ============================================================================
-- Terminal emission
-- ============================================================================

/-- `_apply_position_diff`: the filled quantity the broker's position confirms,
    when it exceeds the tracked one; `none` leaves the tracked one alone. -/
def applyPositionDiff (wired : Bool) (position : PositionGetter) (e : LedgerEntry) : Option ℚ :=
  match wired, e.prePosition with
  | false, _ | _, none => none
  | true, some pre =>
    if e.targetQty ≤ 0 ∨ e.targetQty ≤ e.filledQty then none
    else if e.filledQty = 0 then none
    else match position e.symbol e.secType with
      | none => none
      | some current =>
        let delta? :=
          if e.side = "BUY" then some (current - pre)
          else if e.side = "SELL" then some (pre - current)
          else none
        match delta? with
        | none => none
        | some delta =>
          -- floor at the tracked fills, cap at the order's target
          let effective := min (max delta e.filledQty) e.targetQty
          if effective ≤ e.filledQty then none else some effective

/-- The ghost fill `_make_terminal` appends for quantity the broker's position
    confirms and no fill event reported. -/
def reconciledEntry (wired : Bool) (position : PositionGetter) (e : LedgerEntry) : LedgerEntry :=
  match applyPositionDiff wired position e with
  | none => e
  | some effective =>
    if e.filledQty < effective then
      e.addFill
        { qty := effective - e.filledQty
          price := (e.fills.getLast?.map Fill.price).getD 0
          commission := 0
          execId := "POSITION_DIFF_RECONCILE" }
    else e

/-- `_make_terminal`: the terminal event, and the ledger with the entry evicted
    and its id remembered. -/
def makeTerminal (l : Ledger) (position : PositionGetter) (e : LedgerEntry) :
    Ledger × LedgerEvent :=
  let e' := reconciledEntry l.positionGetterWired position e
  (l.evict e.ibOrderId, makeEvent e' true (resolveTerminalStatus e'))

/-- The order metadata the callers of the ledger pass along with an id. -/
structure OrderMeta where
  orderRef : String := ""
  symbol : String := ""
  secType : String := "STK"
  conId : Int := 0
  side : String := ""
  deriving DecidableEq, Repr

/-- `_LedgerEntry(ib_order_id=..., ..., target_qty=...)`. -/
def newEntry (ibOrderId : String) (order : OrderMeta) (targetQty : ℚ)
    (prePosition : Option ℚ := none) : LedgerEntry where
  ibOrderId := ibOrderId
  orderRef := order.orderRef
  symbol := order.symbol
  secType := order.secType
  conId := order.conId
  side := order.side
  targetQty := targetQty
  prePosition := prePosition

@[simp] theorem newEntry_ibOrderId (id : String) (order : OrderMeta) (t : ℚ) (p : Option ℚ) :
    (newEntry id order t p).ibOrderId = id := rfl

@[simp] theorem newEntry_targetQty (id : String) (order : OrderMeta) (t : ℚ) (p : Option ℚ) :
    (newEntry id order t p).targetQty = t := rfl

@[simp] theorem newEntry_filledQty (id : String) (order : OrderMeta) (t : ℚ) (p : Option ℚ) :
    (newEntry id order t p).filledQty = 0 := rfl

/-- `_make_untracked_terminal`. -/
def makeUntrackedTerminal (ibOrderId status : String) (order : OrderMeta) : LedgerEvent where
  ibOrderId := ibOrderId
  orderRef := order.orderRef
  symbol := order.symbol
  secType := order.secType
  conId := order.conId
  side := order.side
  terminal := true
  status := if status ∈ ["Cancelled", "ApiCancelled"] then "Cancelled" else "Rejected"
  targetQty := 0
  filledQty := 0
  avgPrice := none
  totalCommission := 0
  lastFillQty := none
  lastFillPrice := none

-- ============================================================================
-- The public calls
-- ============================================================================

/-- The entry `register` leaves behind when a fill or status created it first:
    what the auto-creation did not know is filled in, fills are kept. -/
def backfill (e : LedgerEntry) (targetQty : ℚ) (prePosition : Option ℚ) : LedgerEntry :=
  { e with
    targetQty := if e.targetQty = 0 ∧ 0 < targetQty then targetQty else e.targetQty
    prePosition := e.prePosition.or prePosition }

/-- `register`. -/
def register (l : Ledger) (ibOrderId : String) (order : OrderMeta) (targetQty : ℚ)
    (prePosition : Option ℚ) : Ledger × List LedgerEvent :=
  match l.get ibOrderId with
  | some existing =>
    let e := backfill existing targetQty prePosition
    (l.put e, [makeEvent e false "Submitted"])
  | none =>
    let e := newEntry ibOrderId order targetQty prePosition
    (l.put e, [makeEvent e false "Submitted"])

/-- The target quantity of an entry `record_fill` creates: the order's total when
    the caller knows it, else `qty + remaining`, else `qty` (`-1` is "not given"). -/
def fillTarget (qty remaining totalQty : ℚ) : ℚ :=
  if 0 < totalQty then totalQty else if remaining = -1 then qty else qty + remaining

/-- The progress event of a fill. -/
def fillEvent (e : LedgerEntry) (qty price : ℚ) : LedgerEvent :=
  let status :=
    if 0 < e.targetQty ∧ e.targetQty ≤ e.filledQty then "Filled" else "PartiallyFilled"
  makeEvent e false status (some qty) (some price)

/-- `record_fill`. -/
def recordFill (l : Ledger) (ibOrderId : String) (fill : Fill) (order : OrderMeta)
    (remaining totalQty : ℚ) : Ledger × List LedgerEvent :=
  -- a fill after the terminal event is dropped: it has been relayed downstream
  if ibOrderId ∈ l.recentlyEvicted then (l, [])
  else match l.get ibOrderId with
    | some entry =>
      let e := entry.addFill fill
      (l.put e, [fillEvent e fill.qty fill.price])
    | none =>
      if ibOrderId ∈ phantomIbOrderIds then (l, [])
      else
        let e := (newEntry ibOrderId order (fillTarget fill.qty remaining totalQty)).addFill fill
        (l.put e, [fillEvent e fill.qty fill.price])

/-- `cancel_might_be_preroute`: IB re-routing an order between venues sends a
    spurious cancel, which is held. -/
def cancelMightBePreroute (e : LedgerEntry) (prevStatus status : String) : Prop :=
  status ∈ ["Cancelled", "ApiCancelled"] ∧ prevStatus ∈ preroutePrevStatuses ∧
    (e.filledQty = 0 ∨ (0 < e.targetQty ∧ e.filledQty < e.targetQty))

instance (e : LedgerEntry) (prevStatus status : String) :
    Decidable (cancelMightBePreroute e prevStatus status) :=
  inferInstanceAs (Decidable (_ ∧ _ ∧ _))

/-- `record_status` from the lookup of the entry on. -/
def statusOnEntry (l : Ledger) (entry : LedgerEntry) (status : String)
    (position : PositionGetter) : Ledger × List LedgerEvent :=
  let e := entry.withStatus status
  if status ∈ terminalStatuses then
    if cancelMightBePreroute e entry.lastStatus status then
      (l.put e, [makeEvent e false "CancelHeld"])
    else
      let (l', event) := makeTerminal l position e
      (l', [event])
  else (l.put e, [makeEvent e false status])

/-- A status that `record_status` answers with a terminal event without an entry:
    `Inactive` for an order nobody tracks, seen without an order reference. -/
def untrackedTerminal (l : Ledger) (ibOrderId status : String) (order : OrderMeta) : Prop :=
  ibOrderId ∉ l.recentlyEvicted ∧ l.get ibOrderId = none ∧ ibOrderId ∉ phantomIbOrderIds ∧
    status = "Inactive" ∧ order.orderRef = ""

instance (l : Ledger) (ibOrderId status : String) (order : OrderMeta) :
    Decidable (untrackedTerminal l ibOrderId status order) :=
  inferInstanceAs (Decidable (_ ∧ _ ∧ _ ∧ _ ∧ _))

/-- `record_status`. -/
def recordStatus (l : Ledger) (ibOrderId status : String) (order : OrderMeta)
    (position : PositionGetter) : Ledger × List LedgerEvent :=
  if ibOrderId ∈ l.recentlyEvicted then (l, [])
  else match l.get ibOrderId with
    | some entry => statusOnEntry l entry status position
    | none =>
      if ibOrderId ∈ phantomIbOrderIds then (l, [])
      else if status = "Inactive" ∧ order.orderRef = "" then
        (l, [makeUntrackedTerminal ibOrderId status order])
      -- the original order size is unknown: target 0
      else statusOnEntry l (newEntry ibOrderId order 0) status position

/-- One call of the ledger's public API.  A status call carries what the broker
    answers if it is asked for a position during the call. -/
inductive Call where
  | register (ibOrderId : String) (order : OrderMeta) (targetQty : ℚ) (prePosition : Option ℚ)
  | recordFill (ibOrderId : String) (fill : Fill) (order : OrderMeta) (remaining totalQty : ℚ)
  | recordStatus (ibOrderId status : String) (order : OrderMeta) (position : PositionGetter)

namespace Call

/-- The order a call is about. -/
def ibOrderId : Call → String
  | register id .. | recordFill id .. | recordStatus id .. => id

/-- Is the call a `register`? -/
def isRegister : Call → Bool
  | register .. => true
  | recordFill .. | recordStatus .. => false

/-- Does the call take the untracked-terminal branch of `record_status`? -/
def untracked (l : Ledger) : Call → Prop
  | recordStatus id status order _ => untrackedTerminal l id status order
  | register .. | recordFill .. => False

end Call

/-- What a call does. -/
def step (l : Ledger) : Call → Ledger × List LedgerEvent
  | .register id order target pre => register l id order target pre
  | .recordFill id fill order remaining total => recordFill l id fill order remaining total
  | .recordStatus id status order position => recordStatus l id status order position

/-- The ledger as a machine: calls in, events out. -/
def machine : Lib.Mealy Ledger Call LedgerEvent where
  next l c := (step l c).1
  emit l c := (step l c).2

end IbTrader.Engine.OrderLedger
