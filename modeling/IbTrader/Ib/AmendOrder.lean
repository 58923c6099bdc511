/-
  IbTrader.Ib.AmendOrder

  `amend_order` of the IB client (`ib_trader/ib/insync_client.py`).

  The caller gets nothing back but a return or an exception.  Two of the returns have sent
  nothing: an order that the client does not know, and one that IB has not acknowledged
  after all the polls (`amendOrder_skipped_iff`).
-/

import IbTrader.Data.Symbols
import IbTrader.Lib.KeyedList
import Mathlib.Algebra.Order.Ring.Rat
import Mathlib.Data.List.Infix

namespace IbTrader.Ib

open Lib Data

-- ============================================================================
-- The call
-- ============================================================================

/-- The fields of an order that are read or set. -/
structure IbOrder where
  orderId : ℤ
  permId : ℤ := 0
  orderType : String := "LMT"
  lmtPrice : ℚ := 0
  auxPrice : ℚ := 0
  outsideRth : Bool := false
  includeOvernight : Bool := false
  tif : String := "GTC"
  deriving DecidableEq, Repr

structure Trade where
  order : IbOrder
  secType : String := "STK"
  deriving DecidableEq, Repr

/-- What the call meets, from the throttle to its end. -/
structure AmendView where
  activeTrades : Dict String Trade := ∅
  openTrades : List Trade := []
  /-- The status at each of the polls, 100 ms apart. -/
  statuses : Fin 50 → String
  isOvernightSession : Bool := false
  /-- `placeOrder` raises. -/
  refusal : Option String := none

inductive AmendResult where
  | placed (order : IbOrder)
  /-- A return that has sent nothing. -/
  | skipped
  | raised (message : String)
  deriving DecidableEq, Repr

/-- `str(n or "")`. -/
def idText (n : ℤ) : String := if n = 0 then "" else toString n

/-- The trade of the active cache, or else the open trade with that order id or perm id. -/
def AmendView.trade (view : AmendView) (ibOrderId : String) : Option Trade :=
  (view.activeTrades.value ibOrderId).or <| view.openTrades.find? fun t =>
    ibOrderId ∈ [idText t.order.orderId, idText t.order.permId] ∧ ibOrderId ∉ ["", "0"]

/-- `otype`. -/
def IbOrder.otype (order : IbOrder) : String := upper order.orderType

/-- `"TRAIL" in otype`. -/
def IbOrder.isTrail (order : IbOrder) : Prop := "TRAIL".toList <:+: order.otype.toList

instance (order : IbOrder) : Decidable order.isTrail := by unfold IbOrder.isTrail; infer_instance

/-- `otype.startswith("STP")`. -/
def IbOrder.isStop (order : IbOrder) : Prop := "STP".toList <+: order.otype.toList

instance (order : IbOrder) : Decidable order.isStop := by unfold IbOrder.isStop; infer_instance

/-- IB has recorded the order. -/
def Acknowledged (status : String) : Prop := status ≠ "" ∧ status ∉ ["", "PendingSubmit"]

instance (status : String) : Decidable (Acknowledged status) := by unfold Acknowledged; infer_instance

/-- The price that an amendment moves: the trigger of a stop order, else the limit. -/
def IbOrder.price (order : IbOrder) : ℚ := if order.isStop then order.auxPrice else order.lmtPrice

/-- Move the price. -/
def IbOrder.setPrice (order : IbOrder) (newPrice : ℚ) : IbOrder :=
  if order.isStop then
    if order.otype = "STP LMT" then { order with auxPrice := newPrice, lmtPrice := newPrice }
    else { order with auxPrice := newPrice }
  else { order with lmtPrice := newPrice }

/-- The order as it is placed again. -/
def Trade.amended (trade : Trade) (newPrice : ℚ) (isOvernightSession : Bool) : IbOrder :=
  let order := { trade.order.setPrice newPrice with outsideRth := true }
  if isOvernightSession ∧ either trade.secType "STK" = "STK" then
    { order with includeOvernight := true, tif := "DAY" }
  else order

/-- `amend_order`. -/
def amendOrder (view : AmendView) (ibOrderId : String) (newPrice : ℚ) : AmendResult :=
  match view.trade ibOrderId with
  | none => .skipped
  | some trade =>
    if trade.order.isTrail then
      .raised "TRAIL orders are IB-server-managed — the trigger walks on its own and cannot be price-amended"
    else if trade.order.orderId = 0 then
      .raised ("IB rejects amends from a non-owning client — this order " ++
        "is bound to another session (TWS); modify it there")
    else if ∃ n, Acknowledged (view.statuses n) then
      match view.refusal with
      | some message => .raised message
      | none => .placed (trade.amended newPrice view.isOvernightSession)
    else .skipped

-- ============================================================================
-- What it has done
-- ============================================================================

theorem IbOrder.isStop_congr {order order' : IbOrder} (h : order'.orderType = order.orderType) :
    order'.isStop ↔ order.isStop := by
  rw [IbOrder.isStop, IbOrder.isStop, IbOrder.otype, IbOrder.otype, h]

theorem IbOrder.price_congr (order order' : IbOrder) (htype : order'.orderType = order.orderType)
    (haux : order'.auxPrice = order.auxPrice) (hlmt : order'.lmtPrice = order.lmtPrice) : order'.price = order.price := by
  unfold IbOrder.price
  rw [haux, hlmt]
  exact if_congr (IbOrder.isStop_congr htype) rfl rfl

theorem IbOrder.setPrice_price (order : IbOrder) (newPrice : ℚ) : (order.setPrice newPrice).price = newPrice := by
  unfold IbOrder.setPrice
  split_ifs with hstop hlimit
  · exact if_pos ((IbOrder.isStop_congr rfl).mpr hstop)
  · exact if_pos ((IbOrder.isStop_congr rfl).mpr hstop)
  · exact if_neg fun h => hstop ((IbOrder.isStop_congr rfl).mp h)

theorem Trade.amended_price (trade : Trade) (newPrice : ℚ) (isOvernightSession : Bool) :
    (trade.amended newPrice isOvernightSession).price = newPrice := by
  have hset := trade.order.setPrice_price newPrice
  unfold Trade.amended
  generalize trade.order.setPrice newPrice = order at hset ⊢
  dsimp only
  split_ifs
  · refine (IbOrder.price_congr order _ ?_ ?_ ?_).trans hset <;> rfl
  · refine (IbOrder.price_congr order _ ?_ ?_ ?_).trans hset <;> rfl

/-- What is placed is the order known under the id, at the new price. -/
theorem amendOrder_placed {view : AmendView} {ibOrderId : String} {newPrice : ℚ} {order : IbOrder}
    (h : amendOrder view ibOrderId newPrice = .placed order) :
    (∃ trade ∈ view.trade ibOrderId, order = trade.amended newPrice view.isOvernightSession) ∧ order.price = newPrice := by
  unfold amendOrder at h
  split at h
  case h_1 => cases h
  case h_2 trade htrade =>
    split_ifs at h
    split at h
    · cases h
    · cases h
      exact ⟨⟨trade, htrade, rfl⟩, trade.amended_price newPrice view.isOvernightSession⟩

/-- The client knows the order and either refuses to amend it or gets an acknowledgement
    of it within the polls. -/
def AmendView.Reaches (view : AmendView) (ibOrderId : String) : Prop :=
  ∃ trade ∈ view.trade ibOrderId,
    trade.order.isTrail ∨ trade.order.orderId = 0 ∨ ∃ n, Acknowledged (view.statuses n)

instance (view : AmendView) (ibOrderId : String) : Decidable (view.Reaches ibOrderId) := by
  unfold AmendView.Reaches; infer_instance

/-- Exactly the other calls return without having sent anything. -/
theorem amendOrder_skipped_iff (view : AmendView) (ibOrderId : String) (newPrice : ℚ) :
    amendOrder view ibOrderId newPrice = .skipped ↔ ¬ view.Reaches ibOrderId := by
  unfold amendOrder AmendView.Reaches
  cases view.trade ibOrderId with
  | none => exact iff_of_true rfl fun ⟨trade, htrade, _⟩ => nomatch htrade
  | some trade =>
    have hsome {p : Trade → Prop} : (∃ t ∈ some trade, p t) ↔ p trade :=
      ⟨fun ⟨t, ht, hp⟩ => Option.some.inj ht ▸ hp, fun hp => ⟨trade, rfl, hp⟩⟩
    rw [hsome]
    dsimp only
    split_ifs with htrail hforeign hheard
    · exact iff_of_false nofun fun h => h (.inl htrail)
    · exact iff_of_false nofun fun h => h (.inr (.inl hforeign))
    · refine iff_of_false (fun h => ?_) fun h => h (.inr (.inr hheard))
      split at h <;> cases h
    · refine iff_of_true rfl ?_
      rintro (h | h | h)
      · exact htrail h
      · exact hforeign h
      · exact hheard h

end IbTrader.Ib
