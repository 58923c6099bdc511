/-
  IbTrader.Engine.TradeHistory

  Histories of one trade: its entry, the exit orders placed on the entry's fill,
  close commands, and the rows the daemon writes, in any order.

  The coroutines of `execute_order` and `execute_close` wait on the order they
  have placed and record its end once, so a history keeps which orders are waited
  on.  A close command reads what there is to close before it places its order;
  in between it is a sample.  Along every history no order gets two FILLED or
  PARTIAL_FILL rows and the entry gets one at most (`booked_run`), which makes the
  row sums of the code sums over orders.
-/

import Mathlib.Algebra.Order.Ring.Rat
import Mathlib.Tactic.Linarith
import IbTrader.Engine.Closing
import IbTrader.Lib.Run

namespace IbTrader.Engine.Closing

open Lib Data

-- ============================================================================
-- Histories
-- ============================================================================

inductive PendingKind where
  | entry
  | close
  deriving DecidableEq, Repr

def PendingKind.legType : PendingKind → LegType
  | .entry => .entry
  | .close => .close

/-- An order a coroutine of the engine waits on. -/
structure Pending extends CloseContext where
  kind : PendingKind
  deriving DecidableEq, Repr

/-- What a close command has read of the trade. -/
structure Sample where
  side : Side
  entryQty : ℚ
  closedQty : ℚ
  deriving DecidableEq, Repr

/-- `qty_to_close`. -/
def Sample.qty (s : Sample) : ℚ := s.entryQty - s.closedQty

inductive ExitKind where
  | profitTaker
  | stopLoss
  deriving DecidableEq, Repr

def ExitKind.legType : ExitKind → LegType
  | .profitTaker => .profitTaker
  | .stopLoss => .stopLoss

/-- An exit order placed when the entry has filled. -/
structure ExitLeg where
  kind : ExitKind
  ibOrderId : ℤ
  multiplier : Option ℚ := none
  deriving DecidableEq, Repr

structure History where
  trade : Trade := {}
  /-- The orders waited on. -/
  pending : List Pending := []
  /-- The close commands between their reading and their order. -/
  sampled : List Sample := []
  deriving DecidableEq, Repr

inductive Op where
  | entryPlaced (ibOrderId : ℤ) (side : Side) (qty : ℚ) (multiplier : Option ℚ)
  /-- `_handle_fill`, with the exit orders it places. -/
  | entryFilled (ibOrderId : ℤ) (qty avgPrice commission : ℚ) (exits : List ExitLeg)
  /-- `_handle_partial`, with the exit orders it places. -/
  | entryPartial (ibOrderId : ℤ) (qty avgPrice commission : ℚ) (exits : List ExitLeg)
  /-- The entry ends without a fill. -/
  | entryExpired (ibOrderId : ℤ)
  /-- `execute_close` reads the trade. -/
  | closeSampled
  /-- It places its order. -/
  | closePlaced (sample : Sample) (ibOrderId : ℤ) (multiplier : Option ℚ)
  | closeFilled (ibOrderId : ℤ) (qty avgPrice commission : ℚ)
  | closePartial (ibOrderId : ℤ) (qty avgPrice commission : ℚ) (settlement : Settlement)
  /-- The coroutine ends without recording a fill: the close has expired, or its
      limit order is left live. -/
  | givenUp (ibOrderId : ℤ)
  /-- A fill of a resting exit order. -/
  | exitFilled (ibOrderId : ℤ) (qty avgPrice commission : ℚ)
  /-- A row that records no fill is written for an order. -/
  | noted (action : TransactionAction) (ibOrderId : ℤ)
  /-- The daemon finds the order no longer open at IB. -/
  | reconciled (ibOrderId : ℤ) (status : FinalStatus)
  deriving DecidableEq, Repr

/-- The actions of the rows an order gets beside its placement and its fill. -/
def noteActions : List TransactionAction :=
  [.placeRejected, .amended, .cancelAttempt, .cancelled, .errorTerminal]

/-- IB gives out an order id once. -/
def History.IsFresh (h : History) (ibOrderId : ℤ) : Prop :=
  (∀ t ∈ h.trade.rows, t.ibOrderId ≠ some ibOrderId) ∧ ∀ p ∈ h.pending, p.ibOrderId ≠ ibOrderId

instance (h : History) (id : ℤ) : Decidable (h.IsFresh id) := by
  unfold History.IsFresh; infer_instance

/-- The PLACE_ATTEMPT and PLACE_ACCEPTED rows of an order. -/
def placementRow (action : TransactionAction) (ibOrderId : Option ℤ) (legType : LegType)
    (side : Side) (qty : ℚ) (multiplier : Option ℚ) : TransactionEvent where
  action := action
  ibOrderId := ibOrderId
  legType := legType
  side := side
  quantity := qty
  multiplier := multiplier

/-- One more row. -/
def History.write (h : History) (event : TransactionEvent) : History :=
  { h with trade := { h.trade with rows := insert h.trade.rows event } }

def History.place (h : History) (ibOrderId : ℤ) (legType : LegType) (side : Side) (qty : ℚ)
    (multiplier : Option ℚ) : History :=
  (h.write (placementRow .placeAttempt none legType side qty multiplier)).write
    (placementRow .placeAccepted (some ibOrderId) legType side qty multiplier)

/-- The order a coroutine of the kind waits on. -/
def History.waiting (h : History) (kind : PendingKind) (ibOrderId : ℤ) : Option Pending :=
  h.pending.find? fun p => p.ibOrderId = ibOrderId ∧ p.kind = kind

/-- The coroutine that waits on an order ends. -/
def History.finish (h : History) (ibOrderId : ℤ) : History :=
  { h with pending := h.pending.filter (·.ibOrderId ≠ ibOrderId) }

def History.withTrade (h : History) (trade : Trade) : History := { h with trade := trade }

/-- The FILLED or PARTIAL_FILL row of the entry. -/
def entryFillRow (p : Pending) (action : TransactionAction) (qty avgPrice commission : ℚ) :
    TransactionEvent where
  action := action
  ibOrderId := some p.ibOrderId
  legType := .entry
  side := p.side
  quantity := if action = .filled then qty else p.qtyRequested
  ibFilledQty := some qty
  ibAvgFillPrice := some avgPrice
  commission := some commission
  isTerminal := action = .filled

/-- The exit orders placed on the entry's fill, opposite to it and of its size. -/
def History.placeExits (h : History) (side : Side) (qty : ℚ) : List ExitLeg → History
  | [] => h
  | leg :: legs =>
    if h.IsFresh leg.ibOrderId then
      (h.place leg.ibOrderId leg.kind.legType side.opposite qty leg.multiplier).placeExits side qty
        legs
    else h.placeExits side qty legs

/-- The entry is recorded: `update_pnl(None, commission)`, its row, its exits. -/
def History.recordEntry (h : History) (p : Pending) (action : TransactionAction)
    (qty avgPrice commission : ℚ) (exits : List ExitLeg) : History :=
  let trade := { h.trade with group := h.trade.group.updatePnl none commission }
  (((h.withTrade trade).write (entryFillRow p action qty avgPrice commission)).finish
    p.ibOrderId).placeExits p.side qty exits

/-- The functions that record an exit and may close the group. -/
inductive HandlerName where
  | closeFill
  | closePartial
  | autonomousFill
  | maybeClose
  deriving DecidableEq, Repr

/-- What the exit recorded by an op makes of the trade, and which function
    records it. -/
def History.handled (h : History) : Op → Option (HandlerName × Recorded)
  | .closeFilled id qty avgPrice commission =>
    if 0 < qty then
      (h.waiting .close id).map fun p =>
        (.closeFill, handleCloseFill h.trade p.toCloseContext qty avgPrice commission)
    else none
  | .closePartial id qty avgPrice commission settlement =>
    if 0 < qty then
      (h.waiting .close id).map fun p =>
        (if settlement.resolution = .filled then .closeFill else .closePartial,
          handleClosePartial h.trade p.toCloseContext qty avgPrice commission settlement)
    else none
  | .exitFilled id qty avgPrice commission =>
    if 0 < qty then
      (handleAutonomousCloseFill h.trade id qty avgPrice commission).map (.autonomousFill, ·)
    else none
  | .reconciled id status => (reconcileOrder h.trade id status).map (.maybeClose, ·)
  | _ => none

/-- The rows in which an op records an exit. -/
def History.exitRows (h : History) : Op → List TransactionEvent
  | .closeFilled id qty avgPrice commission =>
    ((h.waiting .close id).map fun p =>
      closeFillRow p.toCloseContext qty avgPrice commission).toList
  | .closePartial id qty avgPrice commission settlement =>
    match h.waiting .close id with
    | some p => closePartialRows p.toCloseContext qty avgPrice commission settlement
    | none => []
  | .exitFilled id qty avgPrice commission =>
    ((placementOf h.trade.rows id).map fun placement =>
      autonomousFillRow placement qty avgPrice commission).toList
  | .reconciled id status =>
    ((latestByIbOrderId h.trade.rows id).map fun txn => reconciledRow txn status).toList
  | _ => []

/-- The rows with those in which an op records an exit. -/
def History.rowsWith (h : History) (op : Op) : List TransactionEvent :=
  (h.exitRows op).foldl insert h.trade.rows

/-- One op. -/
def History.step (h : History) (op : Op) : History :=
  match op with
  | .entryPlaced id side qty multiplier =>
    if h.trade.rows = [] ∧ h.pending = [] then
      { h.place id .entry side qty multiplier with
        pending := [{ ibOrderId := id, side, qtyRequested := qty, multiplier, kind := .entry }] }
    else h
  | .entryFilled id qty avgPrice commission exits =>
    match h.waiting .entry id with
    | some p => if 0 < qty then h.recordEntry p .filled qty avgPrice commission exits else h
    | none => h
  | .entryPartial id qty avgPrice commission exits =>
    match h.waiting .entry id with
    | some p => if 0 < qty then h.recordEntry p .partialFill qty avgPrice commission exits else h
    | none => h
  | .entryExpired id =>
    match h.waiting .entry id with
    | some p =>
      let trade := { h.trade with group := h.trade.group.closeIf true }
      ((h.withTrade trade).write { placementRow .cancelled (some id) .entry p.side p.qtyRequested
        none with isTerminal := true }).finish id
    | none => h
  | .closeSampled =>
    match getEntryFill h.trade.rows, closeQuantity h.trade.rows with
    | some entry, some _ =>
      { h with
        sampled := {
          side := entry.side.opposite
          entryQty := entryFilledQty h.trade.rows
          closedQty := countedQty closedLegs h.trade.rows } :: h.sampled }
    | _, _ => h
  | .closePlaced sample id multiplier =>
    if sample ∈ h.sampled ∧ h.IsFresh id then
      { h.place id .close sample.side sample.qty multiplier with
        sampled := h.sampled.erase sample
        pending := { ibOrderId := id, side := sample.side, qtyRequested := sample.qty, multiplier,
                     kind := .close } :: h.pending }
    else h
  | .closeFilled id .. | .closePartial id .. =>
    match h.handled op with
    | some (_, recorded) => (h.withTrade recorded.trade).finish id
    | none => h
  | .givenUp id => h.finish id
  | .exitFilled .. | .reconciled .. =>
    match h.handled op with
    | some (_, recorded) => h.withTrade recorded.trade
    | none => h
  | .noted action id =>
    match latestByIbOrderId h.trade.rows id with
    | some t =>
      if action ∈ noteActions then
        h.write (placementRow action (some id) t.legType t.side t.quantity t.multiplier)
      else h
    | none => h

/-- The history of a trade from its start. -/
def History.run (ops : List Op) : History := ops.foldl History.step {}

/-- How an op records an exit. -/
inductive Handles (h : History) : Op → HandlerName → Recorded → Prop where
  | closeFill {p : Pending} {id : ℤ} {qty avgPrice commission : ℚ}
      (hp : h.waiting .close id = some p) (hqty : 0 < qty) :
      Handles h (.closeFilled id qty avgPrice commission) .closeFill
        (handleCloseFill h.trade p.toCloseContext qty avgPrice commission)
  | closePartial {p : Pending} {id : ℤ} {qty avgPrice commission : ℚ} {settlement : Settlement}
      (hp : h.waiting .close id = some p) (hqty : 0 < qty) :
      Handles h (.closePartial id qty avgPrice commission settlement)
        (if settlement.resolution = .filled then .closeFill else .closePartial)
        (handleClosePartial h.trade p.toCloseContext qty avgPrice commission settlement)
  | autonomousFill {id : ℤ} {qty avgPrice commission : ℚ} {recorded : Recorded} (hqty : 0 < qty)
      (hfill : handleAutonomousCloseFill h.trade id qty avgPrice commission = some recorded) :
      Handles h (.exitFilled id qty avgPrice commission) .autonomousFill recorded
  | maybeClose {id : ℤ} {status : FinalStatus} {recorded : Recorded}
      (hfound : reconcileOrder h.trade id status = some recorded) :
      Handles h (.reconciled id status) .maybeClose recorded

theorem handled_some {h : History} {op : Op} {name : HandlerName} {recorded : Recorded}
    (hop : h.handled op = some (name, recorded)) : Handles h op name recorded := by
  cases op with
  | closeFilled id qty avgPrice commission | closePartial id qty avgPrice commission settlement =>
    unfold History.handled at hop
    dsimp only at hop
    split at hop
    case isFalse => cases hop
    case isTrue hqty =>
      obtain ⟨p, hp, hpair⟩ := Option.map_eq_some_iff.mp hop
      obtain ⟨rfl, rfl⟩ := Prod.mk.inj hpair
      constructor <;> assumption
  | exitFilled id qty avgPrice commission =>
    unfold History.handled at hop
    dsimp only at hop
    split at hop
    case isFalse => cases hop
    case isTrue hqty =>
      obtain ⟨recorded', hfill, hpair⟩ := Option.map_eq_some_iff.mp hop
      obtain ⟨rfl, rfl⟩ := Prod.mk.inj hpair
      exact .autonomousFill hqty hfill
  | reconciled id status =>
    obtain ⟨recorded', hfound, hpair⟩ := Option.map_eq_some_iff.mp hop
    obtain ⟨rfl, rfl⟩ := Prod.mk.inj hpair
    exact .maybeClose hfound
  | _ => cases hop

theorem waiting_some {h : History} {kind : PendingKind} {id : ℤ} {p : Pending}
    (hp : h.waiting kind id = some p) : p ∈ h.pending ∧ p.ibOrderId = id ∧ p.kind = kind := by
  have hfound := List.find?_some hp
  simp only [decide_eq_true_eq] at hfound
  exact ⟨List.mem_of_find?_eq_some hp, hfound⟩

-- ============================================================================
-- What an op can do
-- ============================================================================

/-- What a history becomes in one op, with what the op has found. -/
inductive Stepped (h : History) : History → Prop where
  /-- The op does not apply. -/
  | idle : Stepped h h
  | entryPlaced (hrows : h.trade.rows = []) (hpending : h.pending = []) (id : ℤ) (side : Side)
      (qty : ℚ) (multiplier : Option ℚ) :
      Stepped h { h.place id .entry side qty multiplier with
        pending := [{ ibOrderId := id, side, qtyRequested := qty, multiplier, kind := .entry }] }
  | entryRecorded {p : Pending} (hp : p ∈ h.pending) (hkind : p.kind = .entry)
      {action : TransactionAction} (haction : action ∈ [TransactionAction.filled, .partialFill])
      {qty : ℚ} (hqty : 0 < qty) (avgPrice commission : ℚ) (exits : List ExitLeg) :
      Stepped h (h.recordEntry p action qty avgPrice commission exits)
  | entryExpired {p : Pending} (hp : p ∈ h.pending) (hkind : p.kind = .entry) :
      Stepped h (((h.withTrade { h.trade with group := h.trade.group.closeIf true }).write
        { placementRow .cancelled (some p.ibOrderId) .entry p.side p.qtyRequested none with
          isTerminal := true }).finish p.ibOrderId)
  | closeSampled {entry : TransactionEvent} {qty : ℚ}
      (hentry : getEntryFill h.trade.rows = some entry)
      (hqty : closeQuantity h.trade.rows = some qty) :
      Stepped h { h with
        sampled := {
          side := entry.side.opposite
          entryQty := entryFilledQty h.trade.rows
          closedQty := countedQty closedLegs h.trade.rows } :: h.sampled }
  | closePlaced {sample : Sample} (hsample : sample ∈ h.sampled) {id : ℤ} (hfresh : h.IsFresh id)
      (multiplier : Option ℚ) :
      Stepped h { h.place id .close sample.side sample.qty multiplier with
        sampled := h.sampled.erase sample
        pending := { ibOrderId := id, side := sample.side, qtyRequested := sample.qty, multiplier,
                     kind := .close } :: h.pending }
  | closeFilled {p : Pending} (hp : p ∈ h.pending) (hkind : p.kind = .close) {qty : ℚ}
      (hqty : 0 < qty) (avgPrice commission : ℚ) :
      Stepped h ((h.withTrade
        (handleCloseFill h.trade p.toCloseContext qty avgPrice commission).trade).finish p.ibOrderId)
  | closePartial {p : Pending} (hp : p ∈ h.pending) (hkind : p.kind = .close) {qty : ℚ}
      (hqty : 0 < qty) (avgPrice commission : ℚ) (settlement : Settlement) :
      Stepped h ((h.withTrade (handleClosePartial h.trade p.toCloseContext qty avgPrice commission
        settlement).trade).finish p.ibOrderId)
  | givenUp (id : ℤ) : Stepped h (h.finish id)
  | exitFilled {id : ℤ} {qty avgPrice commission : ℚ} {recorded : Recorded} (hqty : 0 < qty)
      (hfill : handleAutonomousCloseFill h.trade id qty avgPrice commission = some recorded) :
      Stepped h (h.withTrade recorded.trade)
  | reconciled {id : ℤ} {status : FinalStatus} {recorded : Recorded}
      (hfound : reconcileOrder h.trade id status = some recorded) :
      Stepped h (h.withTrade recorded.trade)
  | noted {action : TransactionAction} (haction : action ∈ noteActions) {t : TransactionEvent}
      (ht : t ∈ h.trade.rows) {id : ℤ} (hid : t.ibOrderId = some id) :
      Stepped h (h.write (placementRow action (some id) t.legType t.side t.quantity t.multiplier))

theorem step_cases (h : History) (op : Op) : Stepped h (h.step op) := by
  unfold History.step
  cases op with
  | entryPlaced id side qty multiplier =>
    dsimp only
    split
    case isTrue hnew => exact .entryPlaced hnew.1 hnew.2 id side qty multiplier
    case isFalse => exact .idle
  | entryFilled id qty avgPrice commission exits
    | entryPartial id qty avgPrice commission exits =>
    dsimp only
    split
    case h_1 p hp =>
      obtain ⟨hmem, -, hkind⟩ := waiting_some hp
      split
      case isTrue hqty => exact .entryRecorded hmem hkind (by decide) hqty avgPrice commission exits
      case isFalse => exact .idle
    case h_2 => exact .idle
  | entryExpired id =>
    dsimp only
    split
    case h_1 p hp =>
      obtain ⟨hmem, rfl, hkind⟩ := waiting_some hp
      exact .entryExpired hmem hkind
    case h_2 => exact .idle
  | closeSampled =>
    dsimp only
    split
    case h_1 entry qty hentry hqty => exact .closeSampled hentry hqty
    case h_2 => exact .idle
  | closePlaced sample id multiplier =>
    dsimp only
    split
    case isTrue hplace => exact .closePlaced hplace.1 hplace.2 multiplier
    case isFalse => exact .idle
  | closeFilled id qty avgPrice commission =>
    dsimp only
    split
    case h_1 name recorded hop =>
      cases handled_some hop with
      | closeFill hp hqty =>
        obtain ⟨hmem, rfl, hkind⟩ := waiting_some hp
        exact .closeFilled hmem hkind hqty avgPrice commission
    case h_2 => exact .idle
  | closePartial id qty avgPrice commission settlement =>
    dsimp only
    split
    case h_1 name recorded hop =>
      cases handled_some hop with
      | closePartial hp hqty =>
        obtain ⟨hmem, rfl, hkind⟩ := waiting_some hp
        exact .closePartial hmem hkind hqty avgPrice commission settlement
    case h_2 => exact .idle
  | givenUp id => exact .givenUp id
  | exitFilled id qty avgPrice commission =>
    dsimp only
    split
    case h_1 name recorded hop =>
      cases handled_some hop with
      | autonomousFill hqty hfill => exact .exitFilled hqty hfill
    case h_2 => exact .idle
  | reconciled id status =>
    dsimp only
    split
    case h_1 name recorded hop =>
      cases handled_some hop with
      | maybeClose hfound => exact .reconciled hfound
    case h_2 => exact .idle
  | noted action id =>
    dsimp only
    split
    case h_1 t ht =>
      obtain ⟨hmem, hid⟩ := latestByIbOrderId_some ht
      split
      case isTrue haction => exact .noted haction hmem hid
      case isFalse => exact .idle
    case h_2 => exact .idle

-- ============================================================================
-- One fill row an order
-- ============================================================================

/-- The FILLED and PARTIAL_FILL rows of the entry. -/
def entryFills (rows : List TransactionEvent) : List TransactionEvent :=
  (getFilledLegs rows).filter (·.legType = .entry)

/-- What holds of the rows and the coroutines along every history. -/
structure Booked (h : History) : Prop where
  /-- No order has two FILLED or PARTIAL_FILL rows. -/
  orders_nodup : ((getFilledLegs h.trade.rows).map (·.ibOrderId)).Nodup
  filled_pos : ∀ t ∈ getFilledLegs h.trade.rows, 0 < t.filledQty
  entry_once : (entryFills h.trade.rows).length ≤ 1
  /-- An order waited on has no fill row yet, and its rows its leg type. -/
  pending_rows : ∀ p ∈ h.pending, ∀ t ∈ h.trade.rows, t.ibOrderId = some p.ibOrderId →
    t.legType = p.kind.legType ∧ t.isFill = false
  pending_entry : ∀ p ∈ h.pending, p.kind = .entry →
    entryFills h.trade.rows = [] ∧ ∀ q ∈ h.pending, q.kind = .entry → q.ibOrderId = p.ibOrderId
  pending_kind : ∀ p ∈ h.pending, ∀ q ∈ h.pending, p.ibOrderId = q.ibOrderId → p.kind = q.kind

theorem Booked.start : Booked {} where
  orders_nodup := List.nodup_nil
  filled_pos := fun _ ht => absurd ht List.not_mem_nil
  entry_once := Nat.zero_le 1
  pending_rows := fun _ hp => absurd hp List.not_mem_nil
  pending_entry := fun _ hp => absurd hp List.not_mem_nil
  pending_kind := fun _ hp => absurd hp List.not_mem_nil

/-- Fewer coroutines wait. -/
theorem Booked.drop {h : History} (hb : Booked h) {pending : List Pending}
    (hsub : pending ⊆ h.pending) (sampled : List Sample) :
    Booked { h with pending, sampled } where
  orders_nodup := hb.orders_nodup
  filled_pos := hb.filled_pos
  entry_once := hb.entry_once
  pending_rows := fun p hp => hb.pending_rows p (hsub hp)
  pending_entry := fun p hp hentry =>
    ⟨(hb.pending_entry p (hsub hp) hentry).1,
      fun q hq => (hb.pending_entry p (hsub hp) hentry).2 q (hsub hq)⟩
  pending_kind := fun p hp q hq => hb.pending_kind p (hsub hp) q (hsub hq)

theorem Booked.finish {h : History} (hb : Booked h) (id : ℤ) : Booked (h.finish id) :=
  hb.drop (List.filter_subset_self h.pending) h.sampled

/-- A trade with one more row. -/
theorem withTrade_eq_write {h : History} {trade : Trade} {event : TransactionEvent}
    (hrows : trade.rows = insert h.trade.rows event) :
    h.withTrade trade =
      (h.withTrade { h.trade with group := trade.group }).write event := by
  obtain ⟨rows, group⟩ := trade
  obtain rfl : rows = insert h.trade.rows event := hrows
  rfl

/-- The trade group is not looked at. -/
theorem Booked.regroup {h : History} (hb : Booked h) (group : TradeGroup) :
    Booked (h.withTrade { h.trade with group }) := ⟨hb.1, hb.2, hb.3, hb.4, hb.5, hb.6⟩

/-- A row that records no fill, for an order with the rows of its leg type. -/
theorem Booked.note {h : History} (hb : Booked h) {event : TransactionEvent}
    (hfill : event.isFill = false)
    (hleg : ∀ p ∈ h.pending, event.ibOrderId = some p.ibOrderId →
      event.legType = p.kind.legType) :
    Booked (h.write event) := by
  have hlegs : getFilledLegs (h.write event).trade.rows = getFilledLegs h.trade.rows :=
    getFilledLegs_insert_of_not_fill hfill h.trade.rows
  have hentries : entryFills (h.write event).trade.rows = entryFills h.trade.rows := by
    rw [entryFills, hlegs, entryFills]
  refine ⟨?_, ?_, ?_, ?_, ?_, hb.pending_kind⟩
  · rw [hlegs]; exact hb.orders_nodup
  · rw [hlegs]; exact hb.filled_pos
  · rw [hentries]; exact hb.entry_once
  · intro p hp t ht hid
    rcases List.mem_append.mp ht with ht | ht
    · exact hb.pending_rows p hp t ht hid
    · obtain rfl := List.mem_singleton.mp ht
      exact ⟨hleg p hp hid, hfill⟩
  · rw [hentries]; exact hb.pending_entry

/-- A fill row for an order that has none and is no longer waited on. -/
theorem Booked.fill {h : History} (hb : Booked h) {event : TransactionEvent} {id : ℤ}
    (hid : event.ibOrderId = some id) (hfill : event.isFill = true) (hpos : 0 < event.filledQty)
    (hnew : ∀ t ∈ getFilledLegs h.trade.rows, t.ibOrderId ≠ some id)
    (hdone : ∀ p ∈ h.pending, p.ibOrderId ≠ id)
    (hentry : event.legType = .entry →
      entryFills h.trade.rows = [] ∧ ∀ p ∈ h.pending, p.kind ≠ .entry) :
    Booked (h.write event) := by
  set row := event.stored
  have hlegs : getFilledLegs (h.write event).trade.rows = getFilledLegs h.trade.rows ++ [row] :=
    getFilledLegs_insert_of_fill hfill h.trade.rows
  have hentries : entryFills (h.write event).trade.rows =
      entryFills h.trade.rows ++ [row].filter (·.legType = .entry) := by
    rw [entryFills, hlegs, List.filter_append, entryFills]
  refine ⟨?_, ?_, ?_, ?_, ?_, hb.pending_kind⟩
  · rw [hlegs, List.map_append, List.nodup_append]
    refine ⟨hb.orders_nodup, List.nodup_singleton _, ?_⟩
    rintro i hi j hj rfl
    obtain ⟨t, ht, rfl⟩ := List.mem_map.mp hi
    have hj : t.ibOrderId = row.ibOrderId := by simpa using hj
    exact hnew t ht (hj.trans hid)
  · intro t ht
    rw [hlegs] at ht
    rcases List.mem_append.mp ht with ht | ht
    · exact hb.filled_pos t ht
    · obtain rfl := List.mem_singleton.mp ht
      exact hpos
  · rw [hentries]
    by_cases hleg : row.legType = .entry
    · rw [(hentry hleg).1]
      simp [hleg]
    · have hnone : [row].filter (·.legType = .entry) = [] := by simp [hleg]
      rw [hnone, List.append_nil]
      exact hb.entry_once
  · intro p hp t ht hpid
    rcases List.mem_append.mp ht with ht | ht
    · exact hb.pending_rows p hp t ht hpid
    · obtain rfl := List.mem_singleton.mp ht
      have : some id = some p.ibOrderId := hid.symm.trans hpid
      exact absurd (Option.some.inj this).symm (hdone p hp)
  · intro p hp hkind
    refine ⟨?_, (hb.pending_entry p hp hkind).2⟩
    have hleg : row.legType ≠ .entry := fun hleg => (hentry hleg).2 p hp hkind
    rw [hentries, (hb.pending_entry p hp hkind).1]
    simp [hleg]

/-- The fill row that ends the wait for an order. -/
theorem Booked.fillPending {h : History} (hb : Booked h) {p : Pending} (hp : p ∈ h.pending)
    {event : TransactionEvent} (hid : event.ibOrderId = some p.ibOrderId)
    (hfill : event.isFill = true) (hpos : 0 < event.filledQty)
    (hleg : event.legType = p.kind.legType) : Booked ((h.write event).finish p.ibOrderId) := by
  show Booked ((h.finish p.ibOrderId).write event)
  refine (hb.finish p.ibOrderId).fill hid hfill hpos ?_ ?_ ?_
  · intro t ht htid
    obtain ⟨hrow, hisfill⟩ := List.mem_filter.mp ht
    have hno := (hb.pending_rows p hp t hrow htid).2
    rw [hno] at hisfill
    exact absurd hisfill Bool.false_ne_true
  · intro q hq
    simpa using (List.mem_filter.mp hq).2
  · intro hentry
    have hkind : p.kind = .entry := by
      cases hk : p.kind with
      | entry => rfl
      | close => rw [hleg, hk] at hentry; cases hentry
    obtain ⟨hnone, honly⟩ := hb.pending_entry p hp hkind
    refine ⟨hnone, fun q hq hqkind => ?_⟩
    obtain ⟨hqmem, hqne⟩ := List.mem_filter.mp hq
    have hne : q.ibOrderId ≠ p.ibOrderId := by simpa using hqne
    exact hne (honly q hqmem hqkind)

theorem Booked.place {h : History} (hb : Booked h) {id : ℤ} (hfresh : h.IsFresh id)
    (legType : LegType) (side : Side) (qty : ℚ) (multiplier : Option ℚ) :
    Booked (h.place id legType side qty multiplier) := by
  refine Booked.note (hb.note rfl ?_) rfl ?_
  · intro p _ hid; cases hid
  · intro p hp hid
    exact absurd (Option.some.inj hid).symm (hfresh.2 p hp)

theorem Booked.placeExits {h : History} (hb : Booked h) {side : Side} {qty : ℚ}
    (legs : List ExitLeg) : Booked (h.placeExits side qty legs) := by
  induction legs generalizing h with
  | nil => exact hb
  | cons leg legs ih =>
    unfold History.placeExits
    split
    case isTrue hfresh => exact ih (hb.place hfresh leg.kind.legType side.opposite qty leg.multiplier)
    case isFalse => exact ih hb

theorem entryFillRow_isFill (p : Pending) {action : TransactionAction}
    (haction : action ∈ [TransactionAction.filled, .partialFill]) (qty avgPrice commission : ℚ) :
    (entryFillRow p action qty avgPrice commission).isFill = true := by
  simpa [TransactionEvent.isFill, entryFillRow] using haction

theorem Booked.recordEntry {h : History} (hb : Booked h) {p : Pending} (hp : p ∈ h.pending)
    (hkind : p.kind = .entry) {action : TransactionAction}
    (haction : action ∈ [TransactionAction.filled, .partialFill]) {qty : ℚ} (hqty : 0 < qty)
    (avgPrice commission : ℚ) (exits : List ExitLeg) :
    Booked (h.recordEntry p action qty avgPrice commission exits) := by
  have hfill := entryFillRow_isFill p haction qty avgPrice commission
  have hleg : (entryFillRow p action qty avgPrice commission).legType = p.kind.legType := by
    rw [hkind]; rfl
  have hrecorded := (hb.regroup (h.trade.group.updatePnl none commission)).fillPending hp
    rfl hfill hqty hleg
  exact hrecorded.placeExits exits

/-- The rows of an order just placed. -/
theorem place_rows {h : History} {id : ℤ} (hfresh : h.IsFresh id) {legType : LegType} {side : Side}
    {qty : ℚ} {multiplier : Option ℚ} {t : TransactionEvent}
    (ht : t ∈ (h.place id legType side qty multiplier).trade.rows) (hid : t.ibOrderId = some id) :
    t.legType = legType ∧ t.isFill = false := by
  rcases List.mem_append.mp ht with ht | ht
  · rcases List.mem_append.mp ht with ht | ht
    · exact absurd hid (hfresh.1 t ht)
    · obtain rfl := List.mem_singleton.mp ht
      cases hid
  · obtain rfl := List.mem_singleton.mp ht
    exact ⟨rfl, rfl⟩

/-- A close command's coroutine waits on the order it has placed. -/
theorem Booked.await {h : History} (hb : Booked h) {p : Pending} (hkind : p.kind = .close)
    (hrows : ∀ t ∈ h.trade.rows, t.ibOrderId = some p.ibOrderId →
      t.legType = .close ∧ t.isFill = false)
    (hids : ∀ q ∈ h.pending, q.ibOrderId ≠ p.ibOrderId) (sampled : List Sample) :
    Booked { h with sampled, pending := p :: h.pending } where
  orders_nodup := hb.orders_nodup
  filled_pos := hb.filled_pos
  entry_once := hb.entry_once
  pending_rows := by
    intro q hq t ht hid
    rcases List.mem_cons.mp hq with rfl | hq
    · rw [hkind]; exact hrows t ht hid
    · exact hb.pending_rows q hq t ht hid
  pending_entry := by
    intro q hq hqkind
    rcases List.mem_cons.mp hq with rfl | hq
    · rw [hkind] at hqkind; cases hqkind
    · refine ⟨(hb.pending_entry q hq hqkind).1, fun r hr hrkind => ?_⟩
      rcases List.mem_cons.mp hr with rfl | hr
      · rw [hkind] at hrkind; cases hrkind
      · exact (hb.pending_entry q hq hqkind).2 r hr hrkind
  pending_kind := by
    intro q hq r hr hid
    rcases List.mem_cons.mp hq with rfl | hqmem
    · rcases List.mem_cons.mp hr with rfl | hrmem
      · rfl
      · exact absurd hid.symm (hids r hrmem)
    · rcases List.mem_cons.mp hr with rfl | hrmem
      · exact absurd hid (hids q hqmem)
      · exact hb.pending_kind q hqmem r hrmem hid

/-- The entry's coroutine waits on the first order of the trade. -/
theorem Booked.entryPlaced {h : History} (hb : Booked h) (hrows : h.trade.rows = [])
    (hpending : h.pending = []) (id : ℤ) (side : Side) (qty : ℚ) (multiplier : Option ℚ) :
    Booked { h.place id .entry side qty multiplier with
      pending := [{ ibOrderId := id, side, qtyRequested := qty, multiplier, kind := .entry }] } := by
  have hfresh : h.IsFresh id :=
    ⟨fun t ht => absurd (hrows ▸ ht) List.not_mem_nil, fun p hp => absurd (hpending ▸ hp) List.not_mem_nil⟩
  have hplaced := hb.place hfresh .entry side qty multiplier
  refine ⟨hplaced.orders_nodup, hplaced.filled_pos, hplaced.entry_once, ?_, ?_, ?_⟩
  · intro p hp t ht hid
    obtain rfl := List.mem_singleton.mp hp
    exact place_rows hfresh ht hid
  · intro p hp _
    obtain rfl := List.mem_singleton.mp hp
    refine ⟨?_, fun q hq _ => by rw [List.mem_singleton.mp hq]⟩
    show entryFills (insert (insert h.trade.rows _) _) = []
    rw [entryFills, getFilledLegs_insert_of_not_fill rfl, getFilledLegs_insert_of_not_fill rfl, hrows]
    rfl
  · intro p hp q hq _
    rw [List.mem_singleton.mp hp, List.mem_singleton.mp hq]

/-- A note on an order that is waited on has its leg type. -/
theorem Booked.notePending {h : History} (hb : Booked h) {p : Pending} (hp : p ∈ h.pending)
    {event : TransactionEvent} (hid : event.ibOrderId = some p.ibOrderId)
    (hfill : event.isFill = false) (hleg : event.legType = p.kind.legType) :
    Booked (h.write event) := by
  refine hb.note hfill fun q hq hqid => ?_
  rw [hleg, hb.pending_kind p hp q hq (Option.some.inj (hid.symm.trans hqid))]

/-- A note on an order that has rows has the leg type of these. -/
theorem Booked.noteOrder {h : History} (hb : Booked h) {t event : TransactionEvent}
    (ht : t ∈ h.trade.rows) (hid : event.ibOrderId = t.ibOrderId) (hfill : event.isFill = false)
    (hleg : event.legType = t.legType) : Booked (h.write event) := by
  refine hb.note hfill fun p hp hpid => ?_
  rw [hleg]
  exact (hb.pending_rows p hp t ht (hid.symm.trans hpid)).1

/-- A trade with the fill row that ends the wait for an order. -/
theorem Booked.recordPending {h : History} (hb : Booked h) {p : Pending} (hp : p ∈ h.pending)
    {trade : Trade} {event : TransactionEvent} (hrows : trade.rows = insert h.trade.rows event)
    (hid : event.ibOrderId = some p.ibOrderId) (hfill : event.isFill = true)
    (hpos : 0 < event.filledQty) (hleg : event.legType = p.kind.legType) :
    Booked ((h.withTrade trade).finish p.ibOrderId) := by
  rw [withTrade_eq_write hrows]
  exact (hb.regroup trade.group).fillPending hp hid hfill hpos hleg

theorem Booked.closeFill {h : History} (hb : Booked h) {p : Pending} (hp : p ∈ h.pending)
    (hkind : p.kind = .close) {qty : ℚ} (hqty : 0 < qty) (avgPrice commission : ℚ) :
    Booked ((h.withTrade
      (handleCloseFill h.trade p.toCloseContext qty avgPrice commission).trade).finish
        p.ibOrderId) := by
  exact hb.recordPending hp (handleCloseFill_rows _ _ qty avgPrice commission) rfl rfl hqty
    (by rw [hkind]; rfl)

theorem Booked.closePartial {h : History} (hb : Booked h) {p : Pending} (hp : p ∈ h.pending)
    (hkind : p.kind = .close) {qty : ℚ} (hqty : 0 < qty) (avgPrice commission : ℚ)
    (s : Settlement) :
    Booked ((h.withTrade
      (handleClosePartial h.trade p.toCloseContext qty avgPrice commission s).trade).finish
        p.ibOrderId) := by
  have hattempt : Booked (h.write (cancelAttemptRow p.toCloseContext)) :=
    hb.notePending hp rfl rfl (by rw [hkind]; rfl)
  have hfinal : 0 < s.finalQty qty := hqty.trans_le (s.le_finalQty qty)
  rcases handleClosePartial_cases h.trade p.toCloseContext qty avgPrice commission s with
    ⟨-, price, c, hcase⟩ | ⟨-, price, c, hcase⟩
  · rw [hcase]
    exact hattempt.closeFill hp hkind hfinal price c
  · rw [hcase]
    exact hattempt.recordPending hp (recordClosePartial_rows _ _ (s.finalQty qty) price c) rfl rfl
      hfinal (by rw [hkind]; rfl)

theorem Booked.exitFilled {h : History} (hb : Booked h) {id : ℤ} {qty avgPrice commission : ℚ}
    (hqty : 0 < qty) {recorded : Recorded}
    (h' : handleAutonomousCloseFill h.trade id qty avgPrice commission = some recorded) :
    Booked (h.withTrade recorded.trade) := by
  obtain ⟨placement, entry, hplacement, hleg, hnone, -, hrows, -, -⟩ :=
    handleAutonomousCloseFill_some h'
  obtain ⟨hmem, hid⟩ := placementOf_some hplacement
  have hexit : placement.legType ≠ .entry ∧ placement.legType ≠ .close := by
    rcases List.mem_cons.mp hleg with hleg | hleg
    · rw [hleg]; decide
    · rw [List.mem_singleton.mp hleg]; decide
  rw [withTrade_eq_write hrows]
  refine (hb.regroup recorded.trade.group).fill hid rfl hqty hnone ?_ ?_
  · intro p hp hpid
    obtain ⟨hpleg, -⟩ := hb.pending_rows p hp placement hmem (by rw [hid, hpid])
    cases hk : p.kind with
    | entry => rw [hk] at hpleg; exact hexit.1 hpleg
    | close => rw [hk] at hpleg; exact hexit.2 hpleg
  · intro hentry
    exact absurd hentry hexit.1

theorem Booked.reconciled {h : History} (hb : Booked h) {id : ℤ} {status : FinalStatus}
    {recorded : Recorded} (h' : reconcileOrder h.trade id status = some recorded) :
    Booked (h.withTrade recorded.trade) := by
  obtain ⟨txn, htxn, rfl⟩ := reconcileOrder_some h'
  have hfill : (reconciledRow txn status).isFill = false := by
    rw [TransactionEvent.isFill, reconciledRow_action]
    rfl
  have hwrite : Booked (h.write (reconciledRow txn status)) :=
    hb.noteOrder (latestByIbOrderId_some htxn).1 (reconciledRow_ibOrderId txn status) hfill
      (reconciledRow_legType txn status)
  rw [withTrade_eq_write (maybeCloseTradeGroup_rows _)]
  exact hwrite.regroup _

/-- Every op keeps the rows so. -/
theorem Booked.step {h : History} (hb : Booked h) (op : Op) : Booked (h.step op) := by
  generalize h.step op = h', step_cases h op = hstep
  cases hstep with
  | idle => exact hb
  | entryPlaced hrows hpending id side qty multiplier =>
    exact hb.entryPlaced hrows hpending id side qty multiplier
  | entryRecorded hp hkind haction hqty avgPrice commission exits =>
    exact hb.recordEntry hp hkind haction hqty avgPrice commission exits
  | entryExpired hp hkind =>
    refine Booked.finish (Booked.notePending (hb.regroup (h.trade.group.closeIf true)) hp ?_ ?_ ?_) _
    · rfl
    · rfl
    · rw [hkind]; rfl
  | closeSampled => exact hb.drop (List.Subset.refl h.pending) _
  | closePlaced _ hfresh multiplier =>
    refine (hb.place hfresh .close _ _ multiplier).await rfl ?_ ?_ _
    · intro t ht hid
      exact place_rows hfresh ht hid
    · exact hfresh.2
  | closeFilled hp hkind hqty avgPrice commission => exact hb.closeFill hp hkind hqty avgPrice commission
  | closePartial hp hkind hqty avgPrice commission settlement =>
    exact hb.closePartial hp hkind hqty avgPrice commission settlement
  | givenUp id => exact hb.finish id
  | exitFilled hqty hfill => exact hb.exitFilled hqty hfill
  | reconciled hfound => exact hb.reconciled hfound
  | noted haction ht hid =>
    refine hb.noteOrder ht hid.symm ?_ rfl
    simp only [noteActions, List.mem_cons, List.not_mem_nil, or_false] at haction
    rcases haction with rfl | rfl | rfl | rfl | rfl <;> rfl

/-- Along every history no order has two fill rows. -/
theorem booked_run (ops : List Op) : Booked (History.run ops) :=
  List.foldlRecOn ops History.step Booked.start fun _ hb op _ => hb.step op

-- ============================================================================
-- Rows are only added
-- ============================================================================

theorem write_rows (h : History) (event : TransactionEvent) :
    h.trade.rows ⊆ (h.write event).trade.rows := List.subset_append_left _ _

theorem place_rows_subset (h : History) (id : ℤ) (legType : LegType) (side : Side) (qty : ℚ)
    (multiplier : Option ℚ) : h.trade.rows ⊆ (h.place id legType side qty multiplier).trade.rows :=
  List.Subset.trans (write_rows _ _) (write_rows _ _)

theorem placeExits_rows (side : Side) (qty : ℚ) (legs : List ExitLeg) (h : History) :
    h.trade.rows ⊆ (h.placeExits side qty legs).trade.rows := by
  induction legs generalizing h with
  | nil => exact List.Subset.refl _
  | cons leg legs ih =>
    unfold History.placeExits
    split
    · exact List.Subset.trans (place_rows_subset h _ _ _ _ _) (ih _)
    · exact ih h

/-- The entry's row is there after it is recorded. -/
theorem recordEntry_rows (h : History) (p : Pending) (action : TransactionAction)
    (qty avgPrice commission : ℚ) (exits : List ExitLeg) :
    insert h.trade.rows (entryFillRow p action qty avgPrice commission) ⊆
      (h.recordEntry p action qty avgPrice commission exits).trade.rows := by
  let trade : Trade := { h.trade with group := h.trade.group.updatePnl none commission }
  have hrows := placeExits_rows p.side qty exits (((h.withTrade trade).write
    (entryFillRow p action qty avgPrice commission)).finish p.ibOrderId)
  exact hrows

/-- What a handler records has the rows of the op. -/
theorem handled_rows {h : History} {op : Op} {name : HandlerName} {recorded : Recorded}
    (hop : h.handled op = some (name, recorded)) : recorded.trade.rows = h.rowsWith op := by
  unfold History.rowsWith History.exitRows
  cases handled_some hop with
  | closeFill hp hqty => simp [hp]
  | closePartial hp hqty => simp [hp]
  | autonomousFill hqty hfill =>
    obtain ⟨placement, entry, hplacement, -, -, -, hrows, -, -⟩ :=
      handleAutonomousCloseFill_some hfill
    simp [hplacement, hrows]
  | maybeClose hfound =>
    obtain ⟨txn, htxn, rfl⟩ := reconcileOrder_some hfound
    simp [htxn]

theorem rows_subset_foldl_insert (rows events : List TransactionEvent) :
    rows ⊆ events.foldl insert rows :=
  List.foldlRecOn events insert (List.Subset.refl rows) fun _ hsub _ _ =>
    List.Subset.trans hsub (List.subset_append_left _ _)

/-- An op that records an exit leaves the trade it records. -/
theorem step_handled {h : History} {op : Op} {name : HandlerName} {recorded : Recorded}
    (hop : h.handled op = some (name, recorded)) : (h.step op).trade = recorded.trade := by
  cases op with
  | closeFilled id qty avgPrice commission | closePartial id qty avgPrice commission settlement
    | exitFilled id qty avgPrice commission | reconciled id status =>
    unfold History.step
    dsimp only
    rw [hop]
    rfl
  | _ => cases hop

/-- No op takes a row away. -/
theorem step_rows (h : History) (op : Op) : h.trade.rows ⊆ (h.step op).trade.rows := by
  generalize h.step op = h', step_cases h op = hstep
  cases hstep with
  | idle | closeSampled | givenUp => exact List.Subset.refl _
  | entryPlaced | closePlaced => exact place_rows_subset h _ _ _ _ _
  | entryRecorded =>
    exact List.Subset.trans (List.subset_append_left _ _) (recordEntry_rows h _ _ _ _ _ _)
  | entryExpired | closeFilled | noted => exact write_rows h _
  | closePartial =>
    change h.trade.rows ⊆ (handleClosePartial ..).trade.rows
    rw [handleClosePartial_rows]
    exact rows_subset_foldl_insert _ _
  | exitFilled hqty hfill =>
    obtain ⟨placement, entry, -, -, -, -, hrows, -, -⟩ := handleAutonomousCloseFill_some hfill
    rw [History.withTrade, hrows]
    exact List.subset_append_left _ _
  | reconciled hfound =>
    obtain ⟨txn, -, rfl⟩ := reconcileOrder_some hfound
    rw [History.withTrade, maybeCloseTradeGroup_rows]
    exact List.subset_append_left _ _

-- ============================================================================
-- What is read of the trade
-- ============================================================================

theorem placeExits_sampled (side : Side) (qty : ℚ) (legs : List ExitLeg) (h : History) :
    (h.placeExits side qty legs).sampled = h.sampled := by
  induction legs generalizing h with
  | nil => rfl
  | cons leg legs ih =>
    unfold History.placeExits
    split
    · rw [ih]; rfl
    · exact ih h

/-- A sample is of an earlier step, or read by a close command from a trade with
    an entry fill. -/
theorem step_sampled {h : History} {op : Op} {sample : Sample} (hs : sample ∈ (h.step op).sampled) :
    sample ∈ h.sampled ∨ entryFills h.trade.rows ≠ [] ∧
      sample.entryQty = entryFilledQty h.trade.rows ∧
      closeQuantity h.trade.rows = some sample.qty := by
  generalize h.step op = h', step_cases h op = hstep at hs
  cases hstep with
  | closeSampled hentry hqty =>
    rcases List.mem_cons.mp hs with rfl | hs
    · obtain ⟨hfill, hleg⟩ := getEntryFill_some hentry
      refine .inr ⟨List.ne_nil_of_mem (List.mem_filter.mpr ⟨hfill, by simpa using hleg⟩), rfl, ?_⟩
      rw [hqty, (closeQuantity_some hqty).2]
      rfl
    · exact .inl hs
  | closePlaced => exact .inl (List.mem_of_mem_erase hs)
  | entryRecorded =>
    rw [History.recordEntry, placeExits_sampled] at hs
    exact .inl hs
  | _ => exact .inl hs

-- ============================================================================
-- The sums of the code
-- ============================================================================

/-- The entry fill row is the one row of the entry. -/
theorem entryFills_eq_singleton {rows : List TransactionEvent} {t : TransactionEvent}
    (honce : (entryFills rows).length ≤ 1) (hentry : getEntryFill rows = some t) :
    entryFills rows = [t] := by
  obtain ⟨hfill, hleg⟩ := getEntryFill_some hentry
  have ht : t ∈ entryFills rows := List.mem_filter.mpr ⟨hfill, by simpa using hleg⟩
  obtain ⟨u, hu⟩ := List.length_eq_one_iff.mp (le_antisymm honce (List.length_pos_of_mem ht))
  rw [hu] at ht ⊢
  rw [List.mem_singleton.mp ht]

/-- The entry fill row carries what the rows of the entry add up to. -/
theorem entryFilledQty_eq_countedQty {rows : List TransactionEvent}
    (honce : (entryFills rows).length ≤ 1) : entryFilledQty rows = countedQty [.entry] rows := by
  have hsum : countedQty [.entry] rows = ((entryFills rows).map (·.filledQty)).sum := by
    simp [countedQty, entryFills]
  rw [hsum, entryFilledQty]
  cases hentry : getEntryFill rows with
  | none =>
    have hnone : entryFills rows = [] := by
      rw [List.eq_nil_iff_forall_not_mem]
      intro t ht
      obtain ⟨hfill, hleg⟩ := List.mem_filter.mp ht
      have hsome := getEntryFill_isSome hfill (by simpa using hleg)
      rw [hentry] at hsome
      cases hsome
    rw [hnone]
    rfl
  | some t =>
    rw [entryFills_eq_singleton honce hentry]
    exact (add_zero t.filledQty).symm

theorem Booked.countedQty_eq {h : History} (hb : Booked h) (legs : List LegType) :
    countedQty legs h.trade.rows = engineQty legs h.trade.rows :=
  countedQty_eq_engineQty legs hb.orders_nodup fun t ht => (hb.filled_pos t ht).le

theorem Booked.entryFilledQty_eq {h : History} (hb : Booked h) :
    entryFilledQty h.trade.rows = engineQty [.entry] h.trade.rows := by
  rw [entryFilledQty_eq_countedQty hb.entry_once, hb.countedQty_eq]

end IbTrader.Engine.Closing
