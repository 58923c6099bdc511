/-
  IbTrader.Engine.TwoLegs

  A smart-market entry or close that has sent its market order: what is recorded of
  the fills of the limit order and of the market order.

  The engine reads the limit order when its cancel wait ends and the market order
  when the wait for it ends, adds the two up, and short of the request reads one of
  them again: an entry the market order, which `_handle_partial` cancels, a close the
  limit order.  That second reading is of one order alone but is compared with the
  sum, so a fill that comes after the first readings is counted only if the other
  order has filled nothing.  An entry rounds the average price to whole cents.  The
  record is right exactly if nothing of this makes a difference
  (`twoLegs_accounted_iff`).
-/

import IbTrader.Engine.FillEntries
import IbTrader.Engine.SmartMarketExposure
import IbTrader.Lib.Executions

namespace IbTrader.Engine.OrderFlow

open Lib Fallible Data Closing Pricing Executions
open SmartMarket (OrderStatus Residual Input Phase getOrderStatus runFrom)

-- ============================================================================
-- What IB executes and what the engine reads of it
-- ============================================================================

/-- What IB executes of the limit order and of the market order, cancels included. -/
structure Legs where
  limit : List (Execution ℚ)
  market : List (Execution ℚ)
  limit_positive : Positive limit
  market_positive : Positive market

/-- The quantity both orders fill. -/
def Legs.qty (legs : Legs) : ℚ := Executions.qty (legs.limit ++ legs.market)

/-- The quantity-weighted average price of both orders. -/
def Legs.avgPrice (legs : Legs) : ℚ := Executions.avgPrice (legs.limit ++ legs.market)

/-- The status reports the executions IB has made of the order by then. -/
def Reports (xs : List (Execution ℚ)) (status : OrderStatus) : Prop :=
  ∃ seen, seen <+: xs ∧ status.qtyFilled = Executions.qty seen ∧
    status.avgFillPrice = if seen = [] then none else some (Executions.avgPrice seen)

/-- The rows account for the fills: their quantity, their average price, and FILLED
    exactly if the request is reached. -/
structure Accounts (request : ℚ) (legs : Legs) (entries : List FillEntry) : Prop where
  qty : (entries.map (·.qty)).sum = legs.qty
  avgPrice : ∀ entry ∈ entries, entry.avgPrice = some legs.avgPrice
  filled : (∃ entry ∈ entries, entry.action = .filled) ↔ request ≤ legs.qty

/-- The engine has read all fills when it records them.  `again` is the order that is
    read a second time, `other` the one that is not; `seen` and `seenOther` are the
    quantities read first. -/
def AllRead (request : ℚ) (legs : Legs) (round : ℚ → ℚ) (again other : List (Execution ℚ))
    (seen seenOther : ℚ) (second : Reply SettleReading) : Prop :=
  (seen = Executions.qty again ∧ seenOther = Executions.qty other ∧
    round legs.avgPrice = legs.avgPrice ∧
    (legs.qty < request → ∃ reading, second.value = .ok reading)) ∨
  (other = [] ∧ 0 < seen ∧ seen < Executions.qty again ∧
    ∃ reading, second.value = .ok reading ∧ reading.status.qtyFilled = Executions.qty again ∧
      (Executions.qty again = request → reading.timedOut = false))

section Reports

variable {xs : List (Execution ℚ)} {status : OrderStatus}

theorem Reports.nothing (xs : List (Execution ℚ)) (text : String) (commission : Option ℚ) :
    Reports xs { status := text, commission } :=
  ⟨[], List.nil_prefix, rfl, rfl⟩

theorem Reports.qty_nonneg (h : Reports xs status) (hxs : Positive xs) : 0 ≤ status.qtyFilled := by
  obtain ⟨seen, hseen, hqty, -⟩ := h
  rw [hqty]
  exact Executions.qty_nonneg (hxs.of_prefix hseen)

theorem Reports.qty_le (h : Reports xs status) (hxs : Positive xs) :
    status.qtyFilled ≤ Executions.qty xs := by
  obtain ⟨seen, hseen, hqty, -⟩ := h
  rw [hqty]
  exact qty_le_of_prefix hxs hseen

/-- A report of the whole quantity has the average price of all executions. -/
theorem Reports.avgPrice_of_full (h : Reports xs status) (hxs : Positive xs) (hne : xs ≠ [])
    (hfull : status.qtyFilled = Executions.qty xs) :
    status.avgFillPrice = some (Executions.avgPrice xs) := by
  obtain ⟨seen, hseen, hqty, havg⟩ := h
  obtain rfl := eq_of_prefix_of_qty hxs hseen (hqty.symm.trans hfull)
  rw [havg, if_neg hne]

theorem Reports.avgPrice_ne_zero (h : Reports xs status) (hxs : Positive xs) :
    status.avgFillPrice ≠ some 0 := by
  obtain ⟨seen, hseen, -, havg⟩ := h
  rw [havg]
  split
  · exact fun hzero => by cases hzero
  case isFalse hne =>
    intro hzero
    exact (avgPrice_pos (hxs.of_prefix hseen) hne).ne' (Option.some.inj hzero)

end Reports

section Legs

variable {legs : Legs} {request : ℚ}

theorem Legs.qty_eq (legs : Legs) :
    legs.qty = Executions.qty legs.limit + Executions.qty legs.market := qty_append _ _

theorem accounts_nil (hrequest : 0 < request) : Accounts request legs [] ↔ legs.qty = 0 := by
  constructor
  · intro h
    exact h.qty.symm
  · intro hzero
    refine ⟨hzero.symm, fun _ hentry => absurd hentry List.not_mem_nil, ?_⟩
    rw [hzero]
    refine iff_of_false ?_ (not_le.mpr hrequest)
    rintro ⟨_, hentry, -⟩
    exact absurd hentry List.not_mem_nil

theorem accounts_singleton {entry : FillEntry} :
    Accounts request legs [entry] ↔ entry.qty = legs.qty ∧ entry.avgPrice = some legs.avgPrice ∧
      (entry.action = .filled ↔ request ≤ legs.qty) := by
  constructor
  · rintro ⟨hqty, havg, hfilled⟩
    exact ⟨by simpa using hqty, havg entry (List.mem_singleton_self entry), by simpa using hfilled⟩
  · rintro ⟨hqty, havg, hfilled⟩
    refine ⟨by simpa using hqty, fun e he => ?_, by simpa using hfilled⟩
    rw [List.mem_singleton.mp he]
    exact havg

end Legs

-- ============================================================================
-- One record for two orders
-- ============================================================================

section Record

variable {legs : Legs} {request seen seenOther avg : ℚ} {round : ℚ → ℚ}
  {again other : List (Execution ℚ)} {second : Reply SettleReading}

/-- The orders in the order in which they are read again. -/
def IsLegs (legs : Legs) (again other : List (Execution ℚ)) : Prop :=
  (again = legs.limit ∧ other = legs.market) ∨ (again = legs.market ∧ other = legs.limit)

theorem IsLegs.positive (h : IsLegs legs again other) : Positive again ∧ Positive other := by
  rcases h with ⟨rfl, rfl⟩ | ⟨rfl, rfl⟩
  · exact ⟨legs.limit_positive, legs.market_positive⟩
  · exact ⟨legs.market_positive, legs.limit_positive⟩

theorem IsLegs.qty_eq (h : IsLegs legs again other) :
    legs.qty = Executions.qty again + Executions.qty other := by
  rcases h with ⟨rfl, rfl⟩ | ⟨rfl, rfl⟩
  · exact legs.qty_eq
  · rw [legs.qty_eq, add_comm]

/-- Where one order has filled nothing the average is the other's. -/
theorem IsLegs.avgPrice_eq (h : IsLegs legs again other) (hnone : other = []) :
    legs.avgPrice = Executions.avgPrice again := by
  unfold Legs.avgPrice
  rcases h with ⟨rfl, rfl⟩ | ⟨rfl, rfl⟩
  · rw [hnone, List.append_nil]
  · rw [hnone, List.nil_append]

/-- What the engine has read of the two orders at first: at most what they fill. -/
structure FirstReadings (legs : Legs) (request : ℚ) (again other : List (Execution ℚ))
    (seen seenOther : ℚ) : Prop where
  isLegs : IsLegs legs again other
  fits : legs.qty ≤ request
  seen_nonneg : 0 ≤ seen
  seen_le : seen ≤ Executions.qty again
  seenOther_nonneg : 0 ≤ seenOther
  seenOther_le : seenOther ≤ Executions.qty other

namespace FirstReadings

variable (h : FirstReadings legs request again other seen seenOther)
include h

theorem sum_le : seen + seenOther ≤ legs.qty := by
  rw [h.isLegs.qty_eq]
  exact add_le_add h.seen_le h.seenOther_le

/-- What adds up to all that is filled is all of each order. -/
theorem all_of_sum (hall : legs.qty ≤ seen + seenOther) :
    seen = Executions.qty again ∧ seenOther = Executions.qty other := by
  have hsum := h.isLegs.qty_eq
  have hle := h.seen_le
  have hle' := h.seenOther_le
  exact ⟨by linarith, by linarith⟩

theorem sum_of_all (hall : seen = Executions.qty again) (hallOther : seenOther = Executions.qty other) :
    seen + seenOther = legs.qty := by
  rw [h.isLegs.qty_eq, hall, hallOther]

/-- Nothing read, nothing recorded. -/
theorem accounts_none (hrequest : 0 < request) (hzero : seen + seenOther ≤ 0) :
    Accounts request legs [] ↔
      legs.qty = 0 ∨ AllRead request legs round again other seen seenOther second := by
  rw [accounts_nil hrequest]
  refine ⟨.inl, ?_⟩
  rintro (hnone | ⟨hall, hallOther, -⟩ | ⟨-, hsome, -⟩)
  · exact hnone
  · have hsum := h.sum_of_all hall hallOther
    have hseen := h.seen_nonneg
    have hseenOther := h.seenOther_nonneg
    linarith
  · have hseenOther := h.seenOther_nonneg
    linarith

/-- Where the first readings reach the request nothing has been missed. -/
theorem accounts_full (hfull : request ≤ seen + seenOther) {entry : FillEntry}
    (haction : entry.action = .filled) (hqty : entry.qty = seen + seenOther)
    (havg : entry.avgPrice = some (round legs.avgPrice)) :
    Accounts request legs [entry] ↔
      AllRead request legs round again other seen seenOther second := by
  obtain ⟨hall, hallOther⟩ := h.all_of_sum (h.fits.trans hfull)
  have hsum := h.sum_of_all hall hallOther
  rw [accounts_singleton, hqty, havg, haction]
  constructor
  · rintro ⟨-, hround, -⟩
    refine .inl ⟨hall, hallOther, Option.some.inj hround, fun hshort => ?_⟩
    linarith
  · rintro (⟨-, -, hround, -⟩ | ⟨-, -, hless, -⟩)
    · refine ⟨hsum, congrArg some hround, iff_of_true rfl ?_⟩
      linarith
    · linarith

/-- A second reading of no more than the first two together adds nothing. -/
theorem accounts_first {reading : SettleReading} (hread : second.value = .ok reading)
    (hshort : seen + seenOther < request) (hless : reading.status.qtyFilled ≤ seen + seenOther)
    {entry : FillEntry} (haction : entry.action = .partialFill) (hqty : entry.qty = seen + seenOther)
    (havg : entry.avgPrice = some avg)
    (haverage : seen = Executions.qty again → seenOther = Executions.qty other →
      avg = round legs.avgPrice) :
    Accounts request legs [entry] ↔
      AllRead request legs round again other seen seenOther second := by
  rw [accounts_singleton, hqty, havg, haction]
  constructor
  · rintro ⟨hsum, hround, -⟩
    obtain ⟨hall, hallOther⟩ := h.all_of_sum hsum.ge
    rw [haverage hall hallOther] at hround
    exact .inl ⟨hall, hallOther, Option.some.inj hround, fun _ => ⟨reading, hread⟩⟩
  · rintro (⟨hall, hallOther, hround, -⟩ | ⟨hnone, -, hmore, reading', hread', hall, -⟩)
    · have hsum := h.sum_of_all hall hallOther
      refine ⟨hsum, ?_, iff_of_false TransactionAction.noConfusion ?_⟩
      · rw [haverage hall hallOther, hround]
      · linarith
    · -- the other order has filled nothing
      obtain rfl := Except.ok.inj (hread.symm.trans hread')
      have hzero : Executions.qty other = 0 := by rw [hnone, qty_nil]
      have hseenOther := h.seenOther_le
      linarith

/-- A second reading of more than the first two together: nothing is missed exactly
    if the other order has filled nothing and this one is read in full. -/
theorem accounts_second {reading : SettleReading} (hread : second.value = .ok reading)
    (hpos : 0 < seen + seenOther) (hsecond : Reports again reading.status)
    (hmore : seen + seenOther < reading.status.qtyFilled) {entry : FillEntry}
    (haction : entry.action =
      if (reading.settlement request).resolution = .filled then .filled else .partialFill)
    (hqty : entry.qty = reading.status.qtyFilled)
    (havg : entry.avgPrice = some (reading.status.avgFillPrice.getD avg)) :
    Accounts request legs [entry] ↔
      AllRead request legs round again other seen seenOther second := by
  obtain ⟨hagain, hother⟩ := h.isLegs.positive
  have hsum := h.isLegs.qty_eq
  have hfits := h.fits
  have hseenOther := h.seenOther_nonneg
  have hseenOtherLe := h.seenOther_le
  have hother0 := Executions.qty_nonneg hother
  have hle := hsecond.qty_le hagain
  have hfilled : entry.action = .filled ↔
      reading.timedOut = false ∧ request ≤ reading.status.qtyFilled := by
    rw [haction, SettleReading.settlement]
    cases reading.timedOut with
    | true => simp
    | false =>
      by_cases hfull : request ≤ reading.status.qtyFilled
      · simp [hfull]
      · simp only [hfull, Bool.false_eq_true, if_false, and_false, iff_false]
        split <;> simp_all
  rw [accounts_singleton, hqty, havg, hfilled]
  constructor
  · rintro ⟨hall, -, hreached⟩
    have hnone : other = [] := eq_nil_of_qty hother (by linarith)
    have hzero : Executions.qty other = 0 := by rw [hnone, qty_nil]
    refine .inr ⟨hnone, by linarith, by linarith, reading, hread, by linarith, fun hrequest => ?_⟩
    exact (hreached.mpr (by linarith)).1
  · rintro (⟨hall, -⟩ | ⟨hnone, -, -, reading', hread', hall, hintime⟩)
    · linarith
    · obtain rfl := Except.ok.inj (hread.symm.trans hread')
      have hzero : Executions.qty other = 0 := by rw [hnone, qty_nil]
      have hne : again ≠ [] := by
        rintro rfl
        rw [qty_nil] at hle
        linarith
      refine ⟨by linarith, ?_, ?_⟩
      · rw [hsecond.avgPrice_of_full hagain hne hall, h.isLegs.avgPrice_eq hnone, Option.getD_some]
      · rw [hsum, hzero, add_zero, hall]
        refine ⟨fun hfull => hfull.2, fun hreached => ⟨hintime ?_, hreached⟩⟩
        linarith

/-- The record is right exactly if all fills are read. -/
theorem accounts_recordedFill_iff (hrequest : 0 < request)
    (hsecond : ∀ reading, second.value = .ok reading → Reports again reading.status)
    (havg : seen = Executions.qty again → seenOther = Executions.qty other → legs.qty ≠ 0 →
      avg = round legs.avgPrice) :
    Accounts request legs (recordedFill request (seen + seenOther) avg second).toList ↔
      legs.qty = 0 ∨ AllRead request legs round again other seen seenOther second := by
  by_cases hpos : seen + seenOther ≤ 0
  · rw [recordedFill, if_pos hpos]
    exact h.accounts_none hrequest hpos
  have hpos' : 0 < seen + seenOther := not_le.mp hpos
  have hne : legs.qty ≠ 0 := (hpos'.trans_le h.sum_le).ne'
  have haverage := fun hall hallOther => havg hall hallOther hne
  rw [recordedFill, if_neg hpos, or_iff_right hne]
  by_cases hfull : request ≤ seen + seenOther
  · obtain ⟨hall, hallOther⟩ := h.all_of_sum (h.fits.trans hfull)
    rw [if_pos hfull]
    exact h.accounts_full hfull rfl rfl (congrArg some (haverage hall hallOther))
  rw [if_neg hfull]
  have hshort : seen + seenOther < request := not_le.mp hfull
  cases hvalue : second.value with
  | error e =>
    dsimp only
    rw [Option.toList_none, accounts_nil hrequest]
    refine iff_of_false hne ?_
    rintro (⟨hall, hallOther, -, hread⟩ | ⟨-, -, -, reading, hread, -⟩)
    · rw [h.sum_of_all hall hallOther] at hshort
      obtain ⟨reading, hread⟩ := hread hshort
      cases hvalue.symm.trans hread
    · cases hvalue.symm.trans hread
  | ok reading =>
    dsimp only
    rw [Option.toList_some]
    by_cases hmore : seen + seenOther < reading.status.qtyFilled
    · exact h.accounts_second hvalue hpos' (hsecond reading hvalue) hmore rfl (if_pos hmore)
        (congrArg some (if_pos hmore))
    · have hpartial : (reading.settlement request).resolution ≠ .filled := by
        have hless : ¬request ≤ reading.status.qtyFilled := by linarith
        unfold SettleReading.settlement
        dsimp only
        rw [if_neg hless]
        split
        · exact Resolution.noConfusion
        · split <;> exact Resolution.noConfusion
      exact h.accounts_first hvalue hshort (not_lt.mp hmore) (if_neg hpartial) (if_neg hmore)
        (congrArg some (if_neg hmore)) haverage

end FirstReadings

end Record

-- ============================================================================
-- What a run of the entry reads
-- ============================================================================

/-- The quantities a phase carries on from the cancel wait. -/
def residualOf : Phase → Option Residual
  | .placingMarket residual | .awaitingMarket residual _ | .marketStatus residual => some residual
  | _ => none

/-- What is carried on is a report of the limit order. -/
def ReadResidual (xs : List (Execution ℚ)) (residual : Residual) : Prop :=
  ∃ status, Reports xs status ∧ residual.finalQty = status.qtyFilled ∧
    ∀ avg, status.avgFillPrice = some avg → residual.effectiveAvg = some avg

theorem ReadResidual.qty_bounds {xs : List (Execution ℚ)} {residual : Residual}
    (h : ReadResidual xs residual) (hxs : Positive xs) :
    0 ≤ residual.finalQty ∧ residual.finalQty ≤ Executions.qty xs := by
  obtain ⟨status, hstatus, hqty, -⟩ := h
  rw [hqty]
  exact ⟨hstatus.qty_nonneg hxs, hstatus.qty_le hxs⟩

/-- The statuses IB sends report its executions. -/
def ReportsInput (legs : Legs) : Input → Prop
  | .limit (.orderStatus status) => Reports legs.limit status
  | .market (.orderStatus status) => Reports legs.market status
  | _ => True

/-- All that a run has read reports the executions. -/
structure ReadsFrom (legs : Legs) (run : SmartMarket.Run) : Prop where
  limit : ∀ leg, run.limit = some leg → Reports legs.limit leg.status
  market : ∀ leg, run.market = some leg → Reports legs.market leg.status
  residual : ∀ residual, residualOf run.phase = some residual → ReadResidual legs.limit residual

section ReadsFrom

variable {legs : Legs} {order : SmartMarket.Order} {run : SmartMarket.Run}

theorem ReadsFrom.start (legs : Legs) : ReadsFrom legs {} where
  limit := fun _ hleg => by cases hleg
  market := fun _ hleg => by cases hleg
  residual := fun _ hphase => by cases hphase

theorem reports_getOrderStatus {xs : List (Execution ℚ)} {leg : Option SmartMarket.Leg}
    (h : ∀ l, leg = some l → Reports xs l.status) : Reports xs (getOrderStatus leg) := by
  cases leg with
  | none => exact Reports.nothing xs "UNKNOWN" none
  | some l => exact h l rfl

theorem reports_handle {xs : List (Execution ℚ)} {leg : SmartMarket.Leg}
    {event : SmartMarket.LegEvent} (h : Reports xs leg.status)
    (hevent : ∀ status, event = .orderStatus status → Reports xs status) :
    Reports xs (leg.handle event).status := by
  cases event with
  | fill qty => exact h
  | takenOff => exact h
  | orderStatus status =>
    unfold SmartMarket.Leg.handle
    dsimp only
    split
    · exact hevent status rfl
    · exact h
  | onStatus status =>
    unfold SmartMarket.Leg.handle
    dsimp only
    split <;> exact h
  | onFill commission => exact h

theorem residualOf_eq_none {phase : Phase} (h : phase.stage ≠ .crossing ∧ phase.stage ≠ .bothOut) :
    residualOf phase = none := by
  cases phase with
  | placingMarket residual => exact absurd rfl h.1
  | awaitingMarket residual deadline => exact absurd rfl h.2
  | marketStatus residual => exact absurd rfl h.2
  | _ => rfl

theorem residualOf_of_limitOut {phase : Phase} (h : phase.stage = .limitOut ∨ phase.stage = .ended) :
    residualOf phase = none := by
  refine residualOf_eq_none ?_
  rcases h with h | h <;> rw [h] <;> decide

/-- The cancel wait hands on the status it has read. -/
theorem readResidual_settled {xs : List (Execution ℚ)} {cross : SmartMarket.Cross}
    {status : OrderStatus} (h : Reports xs status) {residual : Residual}
    (hresidual : residualOf (SmartMarket.settled order cross status) = some residual) :
    ReadResidual xs residual := by
  unfold SmartMarket.settled at hresidual
  dsimp only at hresidual
  split at hresidual
  · cases hresidual
  · split at hresidual
    · cases hresidual
    · obtain rfl := Option.some.inj hresidual
      refine ⟨status, h, rfl, fun avg havg => ?_⟩
      show status.avgFillPrice.or cross.avgPrice = some avg
      rw [havg, Option.some_or]

/-- A piece of the coroutine carries on what was, or what the cancel wait has read. -/
theorem ReadsFrom.resumed (h : ReadsFrom legs run) (r : SmartMarket.Reading) :
    ∀ residual, residualOf (SmartMarket.resume order run r).phase = some residual →
      ReadResidual legs.limit residual := by
  intro residual hresidual
  have hsame := h.residual residual
  have hlimit := reports_getOrderStatus h.limit
  have hnone : ∀ {phase : Phase}, phase.stage = .limitOut ∨ phase.stage = .ended →
      residualOf phase = some residual → ReadResidual legs.limit residual := by
    intro phase hstage hphase
    cases (residualOf_of_limitOut hstage).symm.trans hphase
  unfold SmartMarket.resume at hresidual
  cases hphase : run.phase with
  | quoting =>
    rw [hphase] at hresidual
    have hstage : (SmartMarket.quote order r).stage ≠ .crossing ∧
        (SmartMarket.quote order r).stage ≠ .bothOut := by
      rcases SmartMarket.quote_stage order r with hstage | hstage <;> rw [hstage] <;> decide
    cases (residualOf_eq_none hstage).symm.trans hresidual
  | placingLimit triggerPrice floorPrice rth => rw [hphase] at hresidual; cases hresidual
  | walkTop walk =>
    rw [hphase] at hresidual
    dsimp only at hresidual
    split at hresidual
    · cases hresidual
    · split at hresidual <;> cases hresidual
  | walkStatus walk =>
    rw [hphase] at hresidual
    dsimp only at hresidual
    split at hresidual
    · cases hresidual
    · split at hresidual <;> cases hresidual
  | walkPrices walk =>
    rw [hphase] at hresidual
    exact hnone (.inl (SmartMarket.walkReprice_stage order walk _ r)) hresidual
  | walkPreAmend walk stepPrice =>
    rw [hphase] at hresidual
    exact hnone (.inl (SmartMarket.walkCheck_stage order walk stepPrice _)) hresidual
  | walkAmend walk stepPrice => rw [hphase] at hresidual; cases hresidual
  | walkAmendCheck walk =>
    rw [hphase] at hresidual
    exact hnone (.inl (SmartMarket.amendCheck_stage order walk _)) hresidual
  | postWalk walk exit =>
    rw [hphase] at hresidual
    exact hnone (SmartMarket.postWalk_stage order run.limit walk exit) hresidual
  | cancelling cross => rw [hphase] at hresidual; cases hresidual
  | settleTop cross deadline =>
    rw [hphase] at hresidual
    dsimp only at hresidual
    split at hresidual <;> cases hresidual
  | settleStatus cross deadline =>
    rw [hphase] at hresidual
    dsimp only at hresidual
    split at hresidual
    · exact readResidual_settled hlimit hresidual
    · cases hresidual
  | settleTimeout cross =>
    rw [hphase] at hresidual
    exact readResidual_settled hlimit hresidual
  | placingMarket carried =>
    rw [hphase] at hresidual hsame
    exact hsame hresidual
  | awaitingMarket carried deadline =>
    rw [hphase] at hresidual hsame
    dsimp only at hresidual
    split at hresidual
    · exact hsame hresidual
    · rw [hphase] at hresidual
      exact hsame hresidual
  | marketStatus carried => rw [hphase] at hresidual; cases hresidual
  | done outcome =>
    rw [hphase] at hresidual
    dsimp only at hresidual
    rw [hphase] at hresidual
    cases hresidual

/-- Nothing is carried on past an exception. -/
theorem residualOf_raises (order : SmartMarket.Order) (run : SmartMarket.Run) (now : ℚ) :
    residualOf (SmartMarket.raises order run now).phase = none := by
  unfold SmartMarket.raises
  cases hphase : run.phase with
  | walkPreAmend walk stepPrice =>
    dsimp only
    exact residualOf_of_limitOut (.inl (SmartMarket.walkCheck_stage order walk stepPrice _))
  | walkAmendCheck walk =>
    dsimp only
    exact residualOf_of_limitOut (.inl (SmartMarket.amendCheck_stage order walk _))
  | done outcome =>
    dsimp only
    rw [hphase]
    rfl
  | _ => rfl

theorem residualOf_taskCancelled (run : SmartMarket.Run) :
    residualOf (SmartMarket.taskCancelled run).phase = none := by
  unfold SmartMarket.taskCancelled
  cases hphase : run.phase with
  | done outcome =>
    dsimp only
    rw [hphase]
    rfl
  | _ => rfl

/-- An exception moves no order. -/
theorem ReadsFrom.interrupted (h : ReadsFrom legs run) {next : SmartMarket.Run}
    (hkeeps : SmartMarket.KeepsOrders order run next) (hnone : residualOf next.phase = none) :
    ReadsFrom legs next where
  limit := by rw [hkeeps.limit]; exact h.limit
  market := by rw [hkeeps.market]; exact h.market
  residual := fun _ hresidual => by cases hnone.symm.trans hresidual

theorem ReadsFrom.step (h : ReadsFrom legs run) {i : Input} (hi : ReportsInput legs i) :
    ReadsFrom legs (SmartMarket.step order run i) := by
  cases i with
  | limit event =>
    refine ⟨?_, h.market, h.residual⟩
    intro leg hleg
    obtain ⟨before, hbefore, rfl⟩ := Option.map_eq_some_iff.mp hleg
    exact reports_handle (h.limit before hbefore) fun status hstatus => by rw [hstatus] at hi; exact hi
  | market event =>
    refine ⟨h.limit, ?_, h.residual⟩
    intro leg hleg
    obtain ⟨before, hbefore, rfl⟩ := Option.map_eq_some_iff.mp hleg
    exact reports_handle (h.market before hbefore) fun status hstatus => by rw [hstatus] at hi; exact hi
  | resume r =>
    refine ⟨?_, ?_, h.resumed r⟩
    · show ∀ leg, (SmartMarket.resume order run r).limit = some leg → _
      rcases SmartMarket.resume_cases order run r with hkeeps | ⟨-, walk, hplaced⟩ |
        ⟨residual, deadline, -, hplaced⟩
      · rw [hkeeps.limit]
        exact h.limit
      · rw [hplaced]
        rintro leg ⟨⟩
        exact Reports.nothing legs.limit "PendingSubmit" none
      · rw [hplaced]
        exact h.limit
    · show ∀ leg, (SmartMarket.resume order run r).market = some leg → _
      rcases SmartMarket.resume_cases order run r with hkeeps | ⟨-, walk, hplaced⟩ |
        ⟨residual, deadline, -, hplaced⟩
      · rw [hkeeps.market]
        exact h.market
      · rw [hplaced]
        exact h.market
      · rw [hplaced]
        rintro leg ⟨⟩
        exact Reports.nothing legs.market "PendingSubmit" none
  | raises now =>
    exact h.interrupted (SmartMarket.raises_keepsOrders order run now)
      (residualOf_raises order run now)
  | taskCancelled =>
    exact h.interrupted (SmartMarket.taskCancelled_keepsOrders order run)
      (residualOf_taskCancelled run)

/-- Along every run all that is read reports the executions. -/
theorem readsFrom_run {inputs : List Input} (hinputs : ∀ i ∈ inputs, ReportsInput legs i) :
    ReadsFrom legs (runFrom order inputs) :=
  List.foldlRecOn inputs (SmartMarket.step order) (ReadsFrom.start legs)
    fun _ h i hi => h.step (hinputs i hi)

end ReadsFrom

-- ============================================================================
-- Entries
-- ============================================================================

/-- A smart-market entry that has sent its market order. -/
structure EntryCrossing where
  order : SmartMarket.Order
  o : OrderContext
  cmd : Command
  placed : Reply Unit
  marketId : ℤ
  /-- The run up to the input that ends it, that input, and what comes after. -/
  inputs : List Input
  last : Input
  later : List Input
  residual : Residual
  a : Replies
  c : Ctx
  legs : Legs
  requested : o.qtyRequested = order.qty
  accepted : placed.value = .ok ()
  /-- The limit order's cancel wait is over and the market order is out. -/
  crossed : (∃ deadline, (runFrom order inputs).phase = .awaitingMarket residual deadline) ∨
    (runFrom order inputs).phase = .marketStatus residual
  ended : ∃ outcome, (SmartMarket.step order (runFrom order inputs) last).phase = .done outcome
  reports : ∀ i ∈ inputs, ReportsInput legs i
  /-- `_handle_partial` reads the market order again. -/
  secondReports : ∀ reading, a.settle.value = .ok reading → Reports legs.market reading.status
  fits : legs.qty ≤ order.qty

namespace EntryCrossing

variable (e : EntryCrossing)

/-- The run of the walk and the cross to market. -/
def run : SmartMarket.Run := runFrom e.order (e.inputs ++ e.last :: e.later)

/-- What the fill rows of the command record. -/
def entries : List FillEntry :=
  fillEntries ((left (executeOrder e.o e.cmd e.placed (.smartMarket e.marketId e.run) e.a)
    e.c).trade.rows.drop e.c.trade.rows.length)

/-- The quantity read of the market order, if its status is read. -/
def marketRead : Option ℚ :=
  match (runFrom e.order e.inputs).phase, e.last with
  | .marketStatus _, .resume _ => some (getOrderStatus (runFrom e.order e.inputs).market).qtyFilled
  | _, _ => none

/-- All fills are read. -/
def Complete : Prop :=
  e.legs.qty = 0 ∨ ∃ seen, e.marketRead = some seen ∧
    AllRead e.order.qty e.legs quantizeCents e.legs.market e.legs.limit seen e.residual.finalQty
      e.a.settle

end EntryCrossing

/-- A run that is over stays over. -/
theorem phase_of_done {order : SmartMarket.Order} {outcome : SmartMarket.Outcome}
    (inputs : List Input) {run : SmartMarket.Run} (h : run.phase = .done outcome) :
    (inputs.foldl (SmartMarket.step order) run).phase = .done outcome := by
  induction inputs generalizing run with
  | nil => exact h
  | cons i inputs ih =>
    refine ih ?_
    cases i with
    | limit event | market event => exact h
    | resume r | raises now | taskCancelled =>
      simp only [SmartMarket.step, SmartMarket.resume, SmartMarket.raises,
        SmartMarket.taskCancelled, h]

section Ends

variable {order : SmartMarket.Order} {run : SmartMarket.Run} {residual : Residual}
  {outcome : SmartMarket.Outcome} {i : Input}

/-- While the market order is waited for only an exception ends the run. -/
theorem step_ends_awaitingMarket {deadline : ℚ} (hphase : run.phase = .awaitingMarket residual deadline)
    (hended : (SmartMarket.step order run i).phase = .done outcome) : outcome = .raised := by
  cases i with
  | limit event | market event => cases hphase.symm.trans hended
  | resume r =>
    simp only [SmartMarket.step, SmartMarket.resume, hphase] at hended
    split at hended
    · cases hended
    · cases hphase.symm.trans hended
  | raises now =>
    simp only [SmartMarket.step, SmartMarket.raises, hphase] at hended
    exact (Phase.done.inj hended).symm
  | taskCancelled =>
    simp only [SmartMarket.step, SmartMarket.taskCancelled, hphase] at hended
    exact (Phase.done.inj hended).symm

theorem step_ends_marketStatus (hphase : run.phase = .marketStatus residual)
    (hended : (SmartMarket.step order run i).phase = .done outcome) :
    (∃ r, i = .resume r ∧ outcome = SmartMarket.combined order residual run.market) ∨
      (∀ r, i ≠ .resume r) ∧ outcome = .raised := by
  cases i with
  | limit event | market event => cases hphase.symm.trans hended
  | resume r =>
    simp only [SmartMarket.step, SmartMarket.resume, hphase] at hended
    exact .inl ⟨r, rfl, (Phase.done.inj hended).symm⟩
  | raises now =>
    simp only [SmartMarket.step, SmartMarket.raises, hphase] at hended
    exact .inr ⟨fun _ => Input.noConfusion, (Phase.done.inj hended).symm⟩
  | taskCancelled =>
    simp only [SmartMarket.step, SmartMarket.taskCancelled, hphase] at hended
    exact .inr ⟨fun _ => Input.noConfusion, (Phase.done.inj hended).symm⟩

end Ends

/-- How a run that has sent its market order ends: with the two orders combined, or
    with an exception. -/
theorem EntryCrossing.run_phase (e : EntryCrossing) :
    (e.marketRead = some (getOrderStatus (runFrom e.order e.inputs).market).qtyFilled ∧
      e.run.phase = .done
        (SmartMarket.combined e.order e.residual (runFrom e.order e.inputs).market)) ∨
    (e.marketRead = none ∧ e.run.phase = .done .raised) := by
  obtain ⟨outcome, hended⟩ := e.ended
  have hrun : e.run.phase = .done outcome := by
    rw [EntryCrossing.run, runFrom, List.foldl_append, List.foldl_cons]
    exact phase_of_done e.later hended
  rw [hrun]
  unfold EntryCrossing.marketRead
  rcases e.crossed with ⟨deadline, hphase⟩ | hphase
  · rw [step_ends_awaitingMarket hphase hended, hphase]
    exact .inr ⟨rfl, rfl⟩
  · rcases step_ends_marketStatus hphase hended with ⟨r, hlast, rfl⟩ | ⟨hlast, rfl⟩
    · rw [hphase, hlast]
      exact .inl ⟨rfl, rfl⟩
    · refine .inr ⟨?_, rfl⟩
      rw [hphase]
      cases hcase : e.last with
      | resume r => exact absurd hcase (hlast r)
      | _ => rfl

/-- What is recorded of the two orders combined. -/
theorem adds_combined {o : OrderContext} {cmd : Command} {a : Replies} {c : Ctx}
    {order : SmartMarket.Order} {limitId marketId : ℤ} {run : SmartMarket.Run} {residual : Residual}
    {market : Option SmartMarket.Leg} (hrequested : o.qtyRequested = order.qty)
    (hphase : run.phase = .done (SmartMarket.combined order residual market)) :
    Adds (recordedFill order.qty (residual.finalQty + (getOrderStatus market).qtyFilled)
        (SmartMarket.aggregateAvg [(residual.finalQty, residual.effectiveAvg),
          ((getOrderStatus market).qtyFilled, (getOrderStatus market).avgFillPrice)]
          residual.triggerPrice) a.settle).toList
      (finish o cmd a (smartEnding limitId marketId run)) c := by
  unfold smartEnding
  rw [hphase]
  unfold SmartMarket.combined
  dsimp only
  by_cases hpos : 0 < residual.finalQty + (getOrderStatus market).qtyFilled
  · rw [if_pos hpos]
    by_cases hfull : order.qty ≤ residual.finalQty + (getOrderStatus market).qtyFilled
    · rw [if_pos hfull, recordedFill, if_neg (not_le.mpr hpos), if_pos hfull]
      exact adds_handleFill
    · rw [if_neg hfull, ← hrequested]
      refine adds_handlePartial hpos ?_
      rw [hrequested]
      exact not_le.mp hfull
  · rw [if_neg hpos, recordedFill, if_pos (not_lt.mp hpos)]
    exact (addsNone_closeGroup.bind fun _ => addsNone_writeCancelled _ _) c

/-- The placement rows of the entry's order, then what its ending records. -/
theorem adds_executeOrder {o : OrderContext} {cmd : Command} {placed : Reply Unit} {run : EntryRun}
    {a : Replies} {entries : List FillEntry} (hplaced : placed.value = .ok ())
    (hfinish : ∀ c, Adds entries (finish o cmd a (run.ending o)) c) (c : Ctx) :
    Adds entries (executeOrder o cmd placed run a) c := by
  unfold executeOrder
  refine adds_writeTxn_bind rfl fun c => ?_
  unfold Adds
  rw [wp_bind, wp_await, hplaced]
  dsimp only
  refine Adds.from_rows (adds_writeTxn_bind rfl fun c => ?_) rfl
  unfold Adds
  rw [wp_bind, wp_modify, wp_bind, wp_hear]
  exact Adds.from_rows (hfinish _) rfl

/-- The priced part of an order that is read in full: its quantity and notional. -/
theorem pricedPart_eq {xs : List (Execution ℚ)} (hxs : Positive xs) {qty : ℚ} {avg : Option ℚ}
    (hqty : qty = Executions.qty xs) (havg : xs ≠ [] → avg = some (Executions.avgPrice xs)) :
    let priced := [(qty, avg)].filterMap fun part : ℚ × Option ℚ =>
      if 0 < part.1 then part.2.map (part.1, ·) else none
    (priced.map Prod.fst).sum = Executions.qty xs ∧
      (priced.map fun part => part.2 * part.1).sum = Executions.notional xs := by
  by_cases hne : xs = []
  · simp [hqty, hne]
  · have hpos : 0 < Executions.qty xs := Executions.qty_pos hxs hne
    have hnotional : Executions.avgPrice xs * Executions.qty xs = Executions.notional xs := by
      rw [mul_comm]
      exact qty_mul_avgPrice hxs
    simp [hqty, havg hne, hpos, hnotional]

theorem Legs.avgPrice_eq (legs : Legs) :
    legs.avgPrice =
      (Executions.notional legs.limit + Executions.notional legs.market) / legs.qty := by
  rw [Legs.avgPrice, Executions.avgPrice, notional_append]
  rfl

/-- The rounded average of what is read in full. -/
theorem aggregateAvg_eq {legs : Legs} {residual : Residual} {status : OrderStatus}
    (hresidual : ReadResidual legs.limit residual) (hstatus : Reports legs.market status)
    (hlimit : residual.finalQty = Executions.qty legs.limit)
    (hmarket : status.qtyFilled = Executions.qty legs.market) (hne : legs.qty ≠ 0) :
    SmartMarket.aggregateAvg [(residual.finalQty, residual.effectiveAvg),
      (status.qtyFilled, status.avgFillPrice)] residual.triggerPrice =
        quantizeCents legs.avgPrice := by
  obtain ⟨read, hread, hreadQty, hreadAvg⟩ := hresidual
  have hlimitAvg : legs.limit ≠ [] → residual.effectiveAvg = some (Executions.avgPrice legs.limit) :=
    fun hsome => hreadAvg _
      (hread.avgPrice_of_full legs.limit_positive hsome (hreadQty.symm.trans hlimit))
  have hmarketAvg : legs.market ≠ [] → status.avgFillPrice = some (Executions.avgPrice legs.market) :=
    fun hsome => hstatus.avgPrice_of_full legs.market_positive hsome hmarket
  obtain ⟨hqty, hnotional⟩ := pricedPart_eq legs.limit_positive hlimit hlimitAvg
  obtain ⟨hqty', hnotional'⟩ := pricedPart_eq legs.market_positive hmarket hmarketAvg
  have hpos : 0 < Executions.qty legs.limit + Executions.qty legs.market := by
    have hnonneg := Executions.qty_nonneg legs.limit_positive
    have hnonneg' := Executions.qty_nonneg legs.market_positive
    rw [legs.qty_eq] at hne
    exact lt_of_le_of_ne (add_nonneg hnonneg hnonneg') hne.symm
  have hsplit : ∀ (part part' : ℚ × Option ℚ) (f : ℚ × Option ℚ → Option (ℚ × ℚ)),
      [part, part'].filterMap f = [part].filterMap f ++ [part'].filterMap f := by
    intro part part' f
    rw [← List.filterMap_append]
    rfl
  unfold SmartMarket.aggregateAvg
  simp only [hsplit, List.map_append, List.sum_append, hqty, hqty', hnotional, hnotional']
  rw [if_pos hpos, legs.avgPrice_eq, legs.qty_eq]

/-- The rows of an entry account for both orders exactly if all fills are read. -/
theorem EntryCrossing.accounts_iff (e : EntryCrossing) :
    Accounts e.order.qty e.legs e.entries ↔ e.Complete := by
  have hreads : ReadsFrom e.legs (runFrom e.order e.inputs) := readsFrom_run e.reports
  have hresidual : ReadResidual e.legs.limit e.residual := by
    refine hreads.residual e.residual ?_
    rcases e.crossed with ⟨deadline, hphase⟩ | hphase <;> rw [hphase] <;> rfl
  set status := getOrderStatus (runFrom e.order e.inputs).market with hmarket
  have hstatus : Reports e.legs.market status := reports_getOrderStatus hreads.market
  unfold EntryCrossing.Complete
  rcases e.run_phase with ⟨hseen, hphase⟩ | ⟨hnone, hphase⟩
  · have hfinish : ∀ c, Adds (recordedFill e.order.qty (e.residual.finalQty + status.qtyFilled)
        (SmartMarket.aggregateAvg [(e.residual.finalQty, e.residual.effectiveAvg),
          (status.qtyFilled, status.avgFillPrice)] e.residual.triggerPrice) e.a.settle).toList
        (finish e.o e.cmd e.a (EntryRun.ending e.o (.smartMarket e.marketId e.run))) c :=
      fun c => adds_combined e.requested hphase
    have hread : FirstReadings e.legs e.order.qty e.legs.market e.legs.limit status.qtyFilled
        e.residual.finalQty := {
      isLegs := .inr ⟨rfl, rfl⟩
      fits := e.fits
      seen_nonneg := hstatus.qty_nonneg e.legs.market_positive
      seen_le := hstatus.qty_le e.legs.market_positive
      seenOther_nonneg := (hresidual.qty_bounds e.legs.limit_positive).1
      seenOther_le := (hresidual.qty_bounds e.legs.limit_positive).2 }
    rw [EntryCrossing.entries, fillEntries_drop (adds_executeOrder e.accepted hfinish e.c), add_comm,
      hread.accounts_recordedFill_iff e.order.qty_pos e.secondReports
        (fun hall hallOther hne => aggregateAvg_eq hresidual hstatus hallOther hall hne)]
    refine or_congr Iff.rfl ⟨fun h => ⟨_, hseen, h⟩, ?_⟩
    rintro ⟨seen, hread, h⟩
    obtain rfl := Option.some.inj (hseen.symm.trans hread)
    exact h
  · have hfinish : ∀ c, Adds []
        (finish e.o e.cmd e.a (EntryRun.ending e.o (.smartMarket e.marketId e.run))) c := by
      intro c
      show Adds [] (finish e.o e.cmd e.a (smartEnding e.o.ibOrderId e.marketId e.run)) c
      unfold smartEnding
      rw [hphase]
      exact added_of_rows rfl
    rw [EntryCrossing.entries, fillEntries_drop (adds_executeOrder e.accepted hfinish e.c),
      accounts_nil e.order.qty_pos]
    refine ⟨.inl, ?_⟩
    rintro (hzero | ⟨seen, hread, -⟩)
    · exact hzero
    · cases hnone.symm.trans hread

-- ============================================================================
-- Closes
-- ============================================================================

/-- A smart-market close that has sent its market order. -/
structure CloseCrossing where
  cmd : CloseCommand
  a : CloseReplies
  c : Ctx
  entry : TransactionEvent
  request : ℚ
  ibOrderId : ℤ
  ack : OrderStatus
  walk : CloseWalk
  /-- The reading that ends the limit order's cancel wait. -/
  settled : SettleReading
  marketId : ℤ
  legs : Legs
  smartMarket : cmd.strategy = .smartMarket
  hasEntry : getEntryFill c.trade.rows = some entry
  toClose : closeQuantity c.trade.rows = some request
  siblings : siblingsCancelled a.cancelled (openExits c.trade.rows) = true
  prepared : a.prepared.value = .ok ()
  placed : a.placed.value = .ok ibOrderId
  acknowledged : a.ack.value = .ok ack ∧ ackRefused ack.status = false
  walked : a.walk.value = .ok walk
  expired : walk.rth = true ∧ walk.status = .durationExpired ∧ walk.qtyFilled < request
  settles : a.settle.value = .ok settled
  short : settled.status.qtyFilled < request
  sent : a.market.value = .ok marketId
  limitReports : Reports legs.limit settled.status
  marketReports : ∀ status, a.marketStatus.value = .ok status → Reports legs.market status
  /-- `_handle_close_partial` reads the limit order again. -/
  secondReports : ∀ reading, a.settlePartial.value = .ok reading → Reports legs.limit reading.status
  fits : legs.qty ≤ request

namespace CloseCrossing

variable (k : CloseCrossing)

/-- What the fill rows of the command record. -/
def entries : List FillEntry :=
  fillEntries ((left (executeClose k.cmd k.a) k.c).trade.rows.drop k.c.trade.rows.length)

/-- All fills are read. -/
def Complete : Prop :=
  k.legs.qty = 0 ∨ ∃ status, k.a.marketStatus.value = .ok status ∧
    AllRead k.request k.legs id k.legs.limit k.legs.market k.settled.status.qtyFilled
      status.qtyFilled k.a.settlePartial

end CloseCrossing

/-- The context of the close's order. -/
def CloseCrossing.context (k : CloseCrossing) : CloseContext where
  ibOrderId := k.ibOrderId
  side := k.entry.side.opposite
  qtyRequested := k.request
  multiplier := some k.cmd.multiplier

/-- From the placement of the close's order to the cross to market nothing is
    recorded. -/
theorem adds_executeClose (k : CloseCrossing) {entries : List FillEntry}
    (hcross : ∀ c, Adds entries (crossToMarket k.context k.a) c) :
    Adds entries (executeClose k.cmd k.a) k.c := by
  have hwatch : ∀ c, Adds entries (watchClose k.cmd k.context k.a) c := by
    intro c
    unfold watchClose Adds
    rw [k.smartMarket, if_neg CloseStrategy.noConfusion, wp_bind, wp_await, k.acknowledged.1]
    dsimp only
    rw [k.acknowledged.2]
    unfold smartMarketClose
    rw [if_neg Bool.false_ne_true, wp_bind, wp_await, k.walked]
    dsimp only
    have hcap : k.walk.status.hitCap = false := by rw [k.expired.2.1]; rfl
    have hexpired : k.walk.rth = true ∧ k.walk.status = .durationExpired ∧
        k.walk.qtyFilled < k.context.qtyRequested := k.expired
    rw [hcap, if_neg Bool.false_ne_true, if_pos hexpired]
    exact Adds.from_rows (hcross _) rfl
  have hplace : ∀ c, Adds entries (do
      await k.a.prepared
      writeTxn (closeRow .placeAttempt none k.entry.side.opposite k.request k.cmd.multiplier)
      let ibOrderId ← await k.a.placed
      writeTxn (closeRow .placeAccepted (some ibOrderId) k.entry.side.opposite k.request
        k.cmd.multiplier)
      modify fun c => { c with orders := [ibOrderId] }
      watchClose k.cmd { k.context with ibOrderId } k.a) c := by
    intro c
    unfold Adds
    rw [wp_bind, wp_await, k.prepared]
    refine Adds.from_rows (adds_writeTxn_bind rfl fun c => ?_) rfl
    unfold Adds
    rw [wp_bind, wp_await, k.placed]
    refine Adds.from_rows (adds_writeTxn_bind rfl fun c => ?_) rfl
    unfold Adds
    rw [wp_bind, wp_modify]
    exact Adds.from_rows (hwatch _) rfl
  unfold executeClose Adds
  rw [wp_bind, wp_get]
  dsimp only
  rw [k.hasEntry, k.toClose]
  dsimp only
  rw [wp_bind]
  refine wp_mono (adds_cancelSiblings (openExits k.c.trade.rows) k.siblings k.c)
    (fun _ c' hc' => ?_) (fun _ _ h => h.elim)
  exact (hplace c').after hc'

/-- The cross to market records what the market order's status says, if it is read. -/
theorem adds_crossToMarket (k : CloseCrossing) {entries : List FillEntry}
    (hrecord : ∀ c, match k.a.marketStatus.value with
      | .ok status =>
        Adds entries (recordCrossed k.context k.a (k.settled.settlement k.request) status) c
      | .error _ => entries = []) (c : Ctx) :
    Adds entries (crossToMarket k.context k.a) c := by
  have hresidual : 0 < k.context.qtyRequested - (k.settled.settlement k.request).qty :=
    sub_pos.mpr k.short
  unfold crossToMarket Adds
  rw [wp_bind, wp_cancelAndAwaitResolution, k.settles]
  dsimp only
  rw [show k.context.qtyRequested = k.request from rfl] at hresidual ⊢
  rw [if_pos hresidual, wp_bind, wp_exceptException, wp_bind, wp_await, k.sent]
  dsimp only
  rw [wp_pure]
  dsimp only
  rw [wp_bind, wp_modify, wp_bind, wp_await]
  cases hvalue : k.a.marketStatus.value with
  | error e =>
    have hnone := hrecord c
    rw [hvalue] at hnone
    obtain rfl : entries = [] := hnone
    exact added_of_rows rfl
  | ok status =>
    have hstatus : ∀ c, Adds entries
        (recordCrossed k.context k.a (k.settled.settlement k.request) status) c := by
      intro c
      have hc := hrecord c
      rw [hvalue] at hc
      exact hc
    dsimp only
    rw [wp_bind, wp_runIf]
    split
    · exact Adds.from_rows (hstatus _) rfl
    · exact Adds.from_rows (hstatus _) rfl

/-- The average of what is read in full. -/
theorem blendedAvg_eq {legs : Legs} {limit market : OrderStatus} (hlimit : Reports legs.limit limit)
    (hmarket : Reports legs.market market) (hall : limit.qtyFilled = Executions.qty legs.limit)
    (hallMarket : market.qtyFilled = Executions.qty legs.market) :
    (limit.qtyFilled * limit.avgFillPrice.getD 0 + market.qtyFilled * market.avgFillPrice.getD 0) /
      (limit.qtyFilled + market.qtyFilled) = legs.avgPrice := by
  have hpart : ∀ {xs : List (Execution ℚ)} {status : OrderStatus}, Positive xs → Reports xs status →
      status.qtyFilled = Executions.qty xs →
      status.qtyFilled * status.avgFillPrice.getD 0 = Executions.notional xs := by
    intro xs status hxs hreports hfull
    by_cases hne : xs = []
    · simp [hfull, hne]
    · rw [hreports.avgPrice_of_full hxs hne hfull, hfull, Option.getD_some, qty_mul_avgPrice hxs]
  rw [hpart legs.limit_positive hlimit hall, hpart legs.market_positive hmarket hallMarket, hall,
    hallMarket, legs.avgPrice_eq, legs.qty_eq]

/-- The rows of a close account for both orders exactly if all fills are read. -/
theorem CloseCrossing.accounts_iff (k : CloseCrossing) :
    Accounts k.request k.legs k.entries ↔ k.Complete := by
  have hrequest : 0 < k.request := (closeQuantity_some k.toClose).1
  have hlimit := k.limitReports
  unfold CloseCrossing.Complete
  cases hvalue : k.a.marketStatus.value with
  | error e =>
    have hadds : ∀ c, Adds [] (crossToMarket k.context k.a) c :=
      adds_crossToMarket k fun _ => by rw [hvalue]
    rw [CloseCrossing.entries, fillEntries_drop (adds_executeClose k hadds), accounts_nil hrequest]
    refine ⟨.inl, ?_⟩
    rintro (hzero | ⟨status, hread, -⟩)
    · exact hzero
    · cases hread
  | ok status =>
    have hmarket := k.marketReports status hvalue
    set avg := (k.settled.status.qtyFilled * k.settled.status.avgFillPrice.getD 0 +
      status.qtyFilled * status.avgFillPrice.getD 0) /
        (k.settled.status.qtyFilled + status.qtyFilled) with havg
    have hadds : ∀ c, Adds (recordedFill k.request (k.settled.status.qtyFilled + status.qtyFilled) avg
        k.a.settlePartial).toList (crossToMarket k.context k.a) c := by
      refine adds_crossToMarket k fun c => ?_
      rw [hvalue]
      exact adds_recordCrossed fun reading hreading =>
        (k.secondReports reading hreading).avgPrice_ne_zero k.legs.limit_positive
    have haverage : k.settled.status.qtyFilled = Executions.qty k.legs.limit →
        status.qtyFilled = Executions.qty k.legs.market → k.legs.qty ≠ 0 →
          avg = id k.legs.avgPrice :=
      fun hall hallMarket _ => blendedAvg_eq hlimit hmarket hall hallMarket
    have hread : FirstReadings k.legs k.request k.legs.limit k.legs.market
        k.settled.status.qtyFilled status.qtyFilled := {
      isLegs := .inl ⟨rfl, rfl⟩
      fits := k.fits
      seen_nonneg := hlimit.qty_nonneg k.legs.limit_positive
      seen_le := hlimit.qty_le k.legs.limit_positive
      seenOther_nonneg := hmarket.qty_nonneg k.legs.market_positive
      seenOther_le := hmarket.qty_le k.legs.market_positive }
    rw [CloseCrossing.entries, fillEntries_drop (adds_executeClose k hadds),
      hread.accounts_recordedFill_iff hrequest k.secondReports haverage]
    refine or_congr Iff.rfl ⟨fun h => ⟨status, rfl, h⟩, ?_⟩
    rintro ⟨status', hread, h⟩
    obtain rfl := Except.ok.inj hread
    exact h

/-- A long position of ten. -/
def boughtTen : TransactionEvent where
  action := .filled
  ibOrderId := some 5
  legType := .entry
  side := .buy
  quantity := 10
  ibFilledQty := some 10
  ibAvgFillPrice := some 100
  isTerminal := true

/-- Of its close the limit order sells 4 and the market order the other 6. -/
def soldByBoth : Legs where
  limit := [⟨4, 101, 1⟩]
  market := [⟨6, 102, 1⟩]
  limit_positive := by simp [Positive]
  market_positive := by simp [Positive]

/-- The reading that ends the limit order's cancel wait. -/
def limitTakenOff : SettleReading where
  status := { status := "Cancelled", qtyFilled := 4, avgFillPrice := some 101 }

/-- The status of the market order. -/
def marketFilled : OrderStatus := { status := "Filled", qtyFilled := 6, avgFillPrice := some 102 }

/-- The close of `soldByBoth`, with both orders read in full. -/
def closedByBoth : CloseCrossing where
  cmd := { strategy := .smartMarket }
  a := {
    placed := { value := .ok 7 },
    walk := { value := .ok { status := .durationExpired, qtyFilled := 4 } },
    settle := { value := .ok limitTakenOff },
    market := { value := .ok 8 },
    marketStatus := { value := .ok marketFilled } }
  c := { trade := { rows := [boughtTen] } }
  entry := boughtTen
  request := 10
  ibOrderId := 7
  ack := { status := "Submitted" }
  walk := { status := .durationExpired, qtyFilled := 4 }
  settled := limitTakenOff
  marketId := 8
  legs := soldByBoth
  smartMarket := rfl
  hasEntry := by decide +kernel
  toClose := by decide +kernel
  siblings := by decide +kernel
  prepared := rfl
  placed := rfl
  acknowledged := ⟨rfl, by decide +kernel⟩
  walked := rfl
  expired := by decide +kernel
  settles := rfl
  short := by decide +kernel
  sent := rfl
  limitReports := ⟨soldByBoth.limit, List.prefix_refl _, by decide +kernel, by decide +kernel⟩
  marketReports := by
    intro status hstatus
    obtain rfl := Except.ok.inj hstatus
    exact ⟨soldByBoth.market, List.prefix_refl _, by decide +kernel, by decide +kernel⟩
  secondReports := fun _ hreading => by cases hreading
  fits := by decide +kernel

example : Accounts 10 soldByBoth closedByBoth.entries := by
  have hfull : ¬soldByBoth.qty < 10 := by decide +kernel
  have hread : AllRead 10 soldByBoth id soldByBoth.limit soldByBoth.market 4 6
      closedByBoth.a.settlePartial :=
    .inl ⟨by decide +kernel, by decide +kernel, rfl, fun hshort => absurd hshort hfull⟩
  exact closedByBoth.accounts_iff.mpr (.inr ⟨marketFilled, rfl, hread⟩)

-- ============================================================================
-- Two-leg fill accounting
-- ============================================================================

/-- A smart-market entry or close that has sent its market order. -/
inductive Crossing where
  | entry (e : EntryCrossing)
  | close (k : CloseCrossing)

namespace Crossing

/-- The requested quantity. -/
def request : Crossing → ℚ
  | .entry e => e.order.qty
  | .close k => k.request

def legs : Crossing → Legs
  | .entry e => e.legs
  | .close k => k.legs

/-- What the fill rows of the command record. -/
def entries : Crossing → List FillEntry
  | .entry e => e.entries
  | .close k => k.entries

/-- All fills are read. -/
def Complete : Crossing → Prop
  | .entry e => e.Complete
  | .close k => k.Complete

end Crossing

/-- The fill rows carry what both orders fill at the average price of both, and the
    order is recorded FILLED exactly if that reaches the request, if and only if all
    fills are read before they are recorded and the average needs no rounding. -/
theorem twoLegs_accounted_iff (x : Crossing) :
    Accounts x.request x.legs x.entries ↔ x.Complete := by
  cases x with
  | entry e => exact e.accounts_iff
  | close k => exact k.accounts_iff

/-- The limit order of `buyTen` fills 4 and is cancelled, and the market order for
    the other 6 has filled 2 when the wait for it ends. -/
def marketShort : List Input :=
  SmartMarket.walkUsedUp ++ [.limit (.fill 4), .limit .takenOff,
    .limit (.orderStatus { status := "Cancelled", qtyFilled := 4, avgFillPrice := some 100 }),
    .limit (.onStatus "Cancelled"), .resume { now := 11 }, .resume { now := 11 },
    .resume { now := 11 }, .market (.fill 2),
    .market (.orderStatus { status := "Submitted", qtyFilled := 2, avgFillPrice := some 100 }),
    .resume { now := 41 }]

theorem crossed_of_stage {phase : Phase} {residual : Residual} (hstage : phase.stage = .bothOut)
    (hresidual : residualOf phase = some residual) :
    (∃ deadline, phase = .awaitingMarket residual deadline) ∨ phase = .marketStatus residual := by
  cases phase with
  | awaitingMarket carried deadline =>
    obtain rfl := Option.some.inj hresidual
    exact .inl ⟨deadline, rfl⟩
  | marketStatus carried =>
    obtain rfl := Option.some.inj hresidual
    exact .inr rfl
  | _ => cases hstage

theorem done_of_stage {phase : Phase} (hstage : phase.stage = .ended) :
    ∃ outcome, phase = .done outcome := by
  cases phase with
  | done outcome => exact ⟨outcome, rfl⟩
  | _ => cases hstage

/-- What the market order of `marketShort` is sent for. -/
def sentSix : Residual :=
  (residualOf (runFrom SmartMarket.buyTen marketShort).phase).get (by decide +kernel)

/-- Two more shares fill while `_handle_partial` cancels the market order. -/
def lateFill : Legs where
  limit := [⟨4, 100, 1⟩]
  market := [⟨2, 100, 1⟩, ⟨2, 100, 1⟩]
  limit_positive := by simp [Positive]
  market_positive := by simp [Positive]

/-- The second reading of the market order. -/
def lateReading : SettleReading where
  status := { status := "Cancelled", qtyFilled := 4, avgFillPrice := some 100 }
  isCanceled := true

/-- The run of `lateFill`: short of the request by what fills late. -/
def lateFillEntry : EntryCrossing where
  order := SmartMarket.buyTen
  o := { tradeSerial := 1, ibOrderId := 7, side := .buy, qtyRequested := 10 }
  cmd := {}
  placed := { value := .ok () }
  marketId := 8
  inputs := marketShort
  last := .resume { now := 41 }
  later := []
  residual := sentSix
  a := { settle := { value := .ok lateReading } }
  c := {}
  legs := lateFill
  requested := rfl
  accepted := rfl
  crossed := crossed_of_stage (by decide +kernel) (Option.some_get _).symm
  ended := done_of_stage (by decide +kernel)
  reports := by
    simp only [marketShort, SmartMarket.walkUsedUp, List.cons_append, List.nil_append,
      List.forall_mem_cons, ReportsInput, true_and]
    exact ⟨⟨lateFill.limit, by decide, by decide +kernel, by decide +kernel⟩,
      ⟨[⟨2, 100, 1⟩], by decide, by decide +kernel, by decide +kernel⟩, fun _ h => by cases h⟩
  secondReports := by
    intro reading hreading
    obtain rfl := Except.ok.inj hreading
    exact ⟨lateFill.market, List.prefix_refl _, by decide +kernel, by decide +kernel⟩
  fits := by decide +kernel

/-- Some fills are missed: six shares are recorded of the eight filled. -/
theorem twoLegs_accounted_late_fill : ¬∀ x : Crossing, Accounts x.request x.legs x.entries := by
  intro hall
  have hqty := (hall (.entry lateFillEntry)).qty
  exact absurd hqty (by decide +kernel)

end IbTrader.Engine.OrderFlow
