/-
  IbTrader.Engine.SmartMarketExposure

  How much a smart-market run can end up filling.

  The exposure of a run is what its two orders have filled and can still fill.
  Only the coroutine's two placements add to it (`resume_cases`): the limit order
  adds the quantity of the run, the market order the residual.  The residual is
  taken from the status that ended the cancel wait, so it is room the limit
  order has left exactly when that order was then off the book and its fills all
  reported.  A wait that ends by its timeout, or by the flag `on_status` has set
  once, gives neither.
-/

import Mathlib.Algebra.Order.Ring.Rat
import Mathlib.Tactic.Linarith
import IbTrader.Engine.SmartMarket
import IbTrader.Lib.Run

namespace IbTrader.Engine.SmartMarket

open Lib Data

-- ============================================================================
-- Exposure
-- ============================================================================

/-- What an order has filled and can still fill. -/
def legExposure : Option Leg → ℚ
  | some leg => leg.order.exposure
  | none => 0

/-- What the run has filled and its orders at IB can still fill. -/
def exposure (run : Run) : ℚ := legExposure run.limit + legExposure run.market

/-- Nothing that happens to an order outside the coroutine adds to its exposure. -/
theorem handle_exposure_le (leg : Leg) (event : LegEvent) :
    (leg.handle event).order.exposure ≤ leg.order.exposure := by
  cases event with
  | fill qty => exact (leg.order.exposure_fill qty).le
  | takenOff => exact leg.order.exposure_takeOff_le
  | orderStatus status => dsimp only [Leg.handle]; split <;> exact le_rfl
  | onStatus status => dsimp only [Leg.handle]; split <;> exact le_rfl
  | onFill commission => exact le_rfl

@[simp] theorem place_exposure {qty : ℚ} (h : 0 < qty) : (Leg.place qty h).order.exposure = qty :=
  VenueOrder.place_exposure qty h.le

theorem legExposure_handle_le (leg : Option Leg) (event : LegEvent) :
    legExposure (leg.map (·.handle event)) ≤ legExposure leg := by
  cases leg with
  | none => exact le_rfl
  | some leg => exact handle_exposure_le leg event

@[simp] theorem handle_requested (leg : Leg) (event : LegEvent) :
    (leg.handle event).order.requested = leg.order.requested := by
  cases event with
  | fill qty => exact leg.order.fill_requested qty
  | takenOff => rfl
  | orderStatus status => dsimp only [Leg.handle]; split <;> rfl
  | onStatus status => dsimp only [Leg.handle]; split <;> rfl
  | onFill commission => rfl

/-- The cached status never reports more than has filled. -/
theorem handle_reported {leg : Leg} (h : leg.status.qtyFilled ≤ leg.order.filled)
    (event : LegEvent) :
    (leg.handle event).status.qtyFilled ≤ (leg.handle event).order.filled := by
  cases event with
  | fill qty => exact h.trans (leg.order.filled_le_fill qty)
  | takenOff => exact h
  | orderStatus status =>
    dsimp only [Leg.handle]
    split
    case isTrue hle => exact hle
    case isFalse => exact h
  | onStatus status => dsimp only [Leg.handle]; split <;> exact h
  | onFill commission => exact h

-- ============================================================================
-- What a piece of the coroutine does
-- ============================================================================

/-- How far a run has come. -/
inductive Stage where
  | unplaced
  | limitOut
  | crossing
  | bothOut
  | ended
  deriving DecidableEq, Repr

def Phase.stage : Phase → Stage
  | .quoting | .placingLimit .. => .unplaced
  | .placingMarket .. => .crossing
  | .awaitingMarket .. | .marketStatus .. => .bothOut
  | .done .. => .ended
  | _ => .limitOut

/-- The cancel wait ends at the next status read, short of a full fill. -/
def EndsWaitShort (order : Order) (run : Run) : Prop :=
  (getOrderStatus run.limit).qtyFilled < order.qty ∧
    match run.phase with
    | .settleStatus _ _ => Resolves order run.limit
    | .settleTimeout _ => True
    | _ => False

instance (order : Order) (run : Run) : Decidable (EndsWaitShort order run) := by
  unfold EndsWaitShort; split <;> infer_instance

/-- The limit order is off the book and its fills are all reported. -/
def LimitSettled (run : Run) : Prop :=
  ∀ leg ∈ run.limit, leg.order.live = false ∧ leg.status.qtyFilled = leg.order.filled

instance (run : Run) : Decidable (LimitSettled run) := by
  unfold LimitSettled; cases run.limit <;> infer_instance

/-- The condition on a step: the coroutine leaves the cancel wait short of a full
    fill only with a limit order that can fill no more. -/
def LeavesWaitSettled (order : Order) (run : Run) : Input → Prop
  | .resume _ => EndsWaitShort order run → LimitSettled run
  | _ => True

instance (order : Order) (run : Run) (i : Input) : Decidable (LeavesWaitSettled order run i) := by
  cases i <;> unfold LeavesWaitSettled <;> infer_instance

/-- A piece of the coroutine that places no order: the stage stays, or the run
    ends, or the cancel wait does with something left to send. -/
structure KeepsOrders (order : Order) (run next : Run) : Prop where
  limit : next.limit = run.limit
  market : next.market = run.market
  stage : (next.phase.stage = run.phase.stage ∧ run.phase.stage ≠ .crossing) ∨
    next.phase.stage = .ended ∨
    run.phase.stage = .limitOut ∧ EndsWaitShort order run ∧
      ∃ residual, next.phase = .placingMarket residual ∧
        residual.residual = order.qty - (getOrderStatus run.limit).qtyFilled

theorem keepsOrders_of_stage (order : Order) {run : Run} {phase : Phase} {stage : Stage}
    (hne : stage ≠ .crossing) (hrun : run.phase.stage = stage)
    (h : phase.stage = stage ∨ phase.stage = .ended) :
    KeepsOrders order run { run with phase := phase } where
  limit := rfl
  market := rfl
  stage := by
    rw [hrun]
    exact h.imp (⟨·, hne⟩) .inl

theorem keepsOrders_of_limitOut (order : Order) {run : Run} {phase : Phase}
    (hrun : run.phase.stage = .limitOut) (h : phase.stage = .limitOut ∨ phase.stage = .ended) :
    KeepsOrders order run { run with phase := phase } :=
  keepsOrders_of_stage order (by decide) hrun h

theorem keepsOrders_of_ended (order : Order) {run : Run} {phase : Phase}
    (h : phase.stage = .ended) : KeepsOrders order run { run with phase := phase } where
  limit := rfl
  market := rfl
  stage := .inr (.inl h)

theorem quote_stage (order : Order) (r : Reading) :
    (quote order r).stage = .unplaced ∨ (quote order r).stage = .ended := by
  unfold quote
  split
  · exact .inr rfl
  · split
    · exact .inr rfl
    · exact .inl rfl

theorem walkReprice_stage (order : Order) (walk : Walk) (canceled : Bool) (r : Reading) :
    (walkReprice order walk canceled r).stage = .limitOut := by
  unfold walkReprice
  split
  · rfl
  · dsimp only
    repeat' split
    all_goals rfl

theorem walkCheck_stage (order : Order) (walk : Walk) (stepPrice : ℚ) (status : OrderStatus) :
    (walkCheck order walk stepPrice status).stage = .limitOut := by
  unfold walkCheck
  split
  · rfl
  · split <;> rfl

theorem amendCheck_stage (order : Order) (walk : Walk) (status : OrderStatus) :
    (amendCheck order walk status).stage = .limitOut := by
  unfold amendCheck
  split <;> rfl

theorem postWalk_stage (order : Order) (limit : Option Leg) (walk : Walk) (exit : WalkStatus) :
    (postWalk order limit walk exit).stage = .limitOut ∨
      (postWalk order limit walk exit).stage = .ended := by
  unfold postWalk
  dsimp only
  repeat' split
  all_goals first | exact .inl rfl | exact .inr rfl

/-- A cancel wait that ends with a full fill ends the run. -/
theorem settled_of_full {order : Order} {status : OrderStatus} (cross : Cross)
    (h : order.qty ≤ status.qtyFilled) : (settled order cross status).stage = .ended := by
  unfold settled
  dsimp only
  rw [if_pos h]
  rfl

/-- A cancel wait that ends short goes on to send the rest. -/
theorem settled_of_short {order : Order} {status : OrderStatus} (cross : Cross)
    (h : status.qtyFilled < order.qty) :
    ∃ residual, settled order cross status = .placingMarket residual ∧
      residual.residual = order.qty - status.qtyFilled := by
  unfold settled
  dsimp only
  rw [if_neg (not_le.mpr h), dif_neg (by linarith)]
  exact ⟨_, rfl, rfl⟩

theorem keepsOrders_settled {order : Order} {run : Run} (cross : Cross)
    (hstage : run.phase.stage = .limitOut)
    (hends : (getOrderStatus run.limit).qtyFilled < order.qty → EndsWaitShort order run) :
    KeepsOrders order run
      { run with phase := settled order cross (getOrderStatus run.limit) } where
  limit := rfl
  market := rfl
  stage := by
    rcases le_or_gt order.qty (getOrderStatus run.limit).qtyFilled with hfull | hshort
    · exact .inr (.inl (settled_of_full cross hfull))
    · exact .inr (.inr ⟨hstage, hends hshort, settled_of_short cross hshort⟩)

/-- A piece of the coroutine places no order, the limit order or the market
    order. -/
theorem resume_cases (order : Order) (run : Run) (r : Reading) :
    KeepsOrders order run (resume order run r) ∨
      (run.phase.stage = .unplaced ∧ ∃ walk, resume order run r =
        { run with
          limit := some (Leg.place order.qty order.qty_pos)
          phase := .walkTop walk }) ∨
      ∃ residual deadline, run.phase = .placingMarket residual ∧ resume order run r =
        { run with
          market := some (Leg.place residual.residual residual.residual_pos)
          phase := .awaitingMarket residual deadline } := by
  unfold resume
  cases hphase : run.phase with
  | quoting =>
    exact .inl (keepsOrders_of_stage order (by decide) (by rw [hphase]; rfl) (quote_stage order r))
  | placingLimit triggerPrice floorPrice rth => exact .inr (.inl ⟨rfl, _, rfl⟩)
  | walkTop walk =>
    have hrun : run.phase.stage = .limitOut := by rw [hphase]; rfl
    dsimp only
    split
    · exact .inl (keepsOrders_of_limitOut order hrun (.inl rfl))
    · split <;> exact .inl (keepsOrders_of_limitOut order hrun (.inl rfl))
  | walkStatus walk =>
    have hrun : run.phase.stage = .limitOut := by rw [hphase]; rfl
    dsimp only
    split
    · exact .inl (keepsOrders_of_limitOut order hrun (.inl rfl))
    · split <;> exact .inl (keepsOrders_of_limitOut order hrun (.inl rfl))
  | walkPrices walk =>
    exact .inl (keepsOrders_of_limitOut order (by rw [hphase]; rfl)
      (.inl (walkReprice_stage order walk _ r)))
  | walkPreAmend walk stepPrice =>
    exact .inl (keepsOrders_of_limitOut order (by rw [hphase]; rfl)
      (.inl (walkCheck_stage order walk stepPrice _)))
  | walkAmend walk stepPrice =>
    exact .inl (keepsOrders_of_limitOut order (by rw [hphase]; rfl) (.inl rfl))
  | walkAmendCheck walk =>
    exact .inl (keepsOrders_of_limitOut order (by rw [hphase]; rfl)
      (.inl (amendCheck_stage order walk _)))
  | postWalk walk exit =>
    exact .inl (keepsOrders_of_limitOut order (by rw [hphase]; rfl)
      (postWalk_stage order run.limit walk exit))
  | cancelling cross =>
    exact .inl (keepsOrders_of_limitOut order (by rw [hphase]; rfl) (.inl rfl))
  | settleTop cross deadline =>
    have hrun : run.phase.stage = .limitOut := by rw [hphase]; rfl
    dsimp only
    split <;> exact .inl (keepsOrders_of_limitOut order hrun (.inl rfl))
  | settleStatus cross deadline =>
    have hrun : run.phase.stage = .limitOut := by rw [hphase]; rfl
    dsimp only
    split
    case isTrue hresolves =>
      exact .inl (keepsOrders_settled cross hrun
        (fun hshort => ⟨hshort, by rw [hphase]; exact hresolves⟩))
    case isFalse => exact .inl (keepsOrders_of_limitOut order hrun (.inl rfl))
  | settleTimeout cross =>
    exact .inl (keepsOrders_settled cross (by rw [hphase]; rfl)
      (fun hshort => ⟨hshort, by rw [hphase]; trivial⟩))
  | placingMarket residual => exact .inr (.inr ⟨residual, _, rfl, rfl⟩)
  | awaitingMarket residual deadline =>
    have hrun : run.phase.stage = .bothOut := by rw [hphase]; rfl
    have hne : run.phase.stage ≠ .crossing := by rw [hrun]; decide
    dsimp only
    split
    · exact .inl (keepsOrders_of_stage order (by decide) hrun (.inl rfl))
    · exact .inl ⟨rfl, rfl, .inl ⟨rfl, hne⟩⟩
  | marketStatus residual => exact .inl (keepsOrders_of_ended order rfl)
  | done outcome => exact .inl ⟨rfl, rfl, .inr (.inl (by rw [hphase]; rfl))⟩

theorem raises_keepsOrders (order : Order) (run : Run) (now : ℚ) :
    KeepsOrders order run (raises order run now) := by
  unfold raises
  cases hphase : run.phase with
  | walkPreAmend walk stepPrice =>
    exact keepsOrders_of_limitOut order (by rw [hphase]; rfl)
      (.inl (walkCheck_stage order walk stepPrice _))
  | walkAmend walk stepPrice =>
    exact keepsOrders_of_limitOut order (by rw [hphase]; rfl) (.inl rfl)
  | walkAmendCheck walk =>
    exact keepsOrders_of_limitOut order (by rw [hphase]; rfl) (.inl (amendCheck_stage order walk _))
  | cancelling cross => exact keepsOrders_of_limitOut order (by rw [hphase]; rfl) (.inl rfl)
  | done outcome => exact ⟨rfl, rfl, .inr (.inl (by rw [hphase]; rfl))⟩
  | _ => exact keepsOrders_of_ended order rfl

theorem raises_not_crossing (order : Order) (run : Run) (now : ℚ) :
    (raises order run now).phase.stage ≠ .crossing := by
  unfold raises
  cases hphase : run.phase with
  | walkPreAmend walk stepPrice =>
    rw [show ((walkCheck order walk stepPrice { status := "" }).stage) = .limitOut from
      walkCheck_stage order walk stepPrice _]
    decide
  | walkAmendCheck walk =>
    rw [show ((amendCheck order walk { status := "" }).stage) = .limitOut from
      amendCheck_stage order walk _]
    decide
  | done outcome =>
    show run.phase.stage ≠ .crossing
    rw [hphase]
    exact Stage.noConfusion
  | _ => exact Stage.noConfusion

theorem taskCancelled_keepsOrders (order : Order) (run : Run) :
    KeepsOrders order run (taskCancelled run) := by
  unfold taskCancelled
  cases hphase : run.phase with
  | done outcome => exact ⟨rfl, rfl, .inr (.inl (by rw [hphase]; rfl))⟩
  | _ => exact keepsOrders_of_ended order rfl

theorem taskCancelled_not_crossing (run : Run) : (taskCancelled run).phase.stage ≠ .crossing := by
  unfold taskCancelled
  cases hphase : run.phase with
  | done outcome =>
    show run.phase.stage ≠ .crossing
    rw [hphase]
    exact Stage.noConfusion
  | _ => exact Stage.noConfusion

-- ============================================================================
-- Which orders are out
-- ============================================================================

/-- The orders at IB are those the stage of the run says. -/
structure Placed (order : Order) (run : Run) : Prop where
  unplaced : run.phase.stage = .unplaced → run.limit = none ∧ run.market = none
  alone : run.phase.stage = .limitOut ∨ run.phase.stage = .crossing → run.market = none ∧
    ∃ leg, run.limit = some leg ∧ leg.order.requested = order.qty ∧
      leg.status.qtyFilled ≤ leg.order.filled

theorem Placed.start (order : Order) : Placed order {} where
  unplaced := fun _ => ⟨rfl, rfl⟩
  alone := by rintro (h | h) <;> cases h

theorem Placed.limitEvent {order : Order} {run : Run} (h : Placed order run) (event : LegEvent) :
    Placed order { run with limit := run.limit.map (·.handle event) } where
  unplaced := by
    intro hstage
    obtain ⟨hlimit, hmarket⟩ := h.unplaced hstage
    exact ⟨by rw [hlimit]; rfl, hmarket⟩
  alone := by
    intro hstage
    obtain ⟨hmarket, leg, hlimit, hrequested, hreported⟩ := h.alone hstage
    refine ⟨hmarket, leg.handle event, by rw [hlimit]; rfl, ?_, handle_reported hreported event⟩
    rw [handle_requested, hrequested]

theorem Placed.marketEvent {order : Order} {run : Run} (h : Placed order run) (event : LegEvent) :
    Placed order { run with market := run.market.map (·.handle event) } where
  unplaced := by
    intro hstage
    obtain ⟨hlimit, hmarket⟩ := h.unplaced hstage
    exact ⟨hlimit, by rw [hmarket]; rfl⟩
  alone := by
    intro hstage
    obtain ⟨hmarket, hlimit⟩ := h.alone hstage
    exact ⟨by rw [hmarket]; rfl, hlimit⟩

theorem Placed.keeps {order : Order} {run next : Run} (h : Placed order run)
    (hkeeps : KeepsOrders order run next) : Placed order next where
  unplaced := by
    intro hstage
    rw [hkeeps.limit, hkeeps.market]
    rcases hkeeps.stage with ⟨hsame, -⟩ | hend | ⟨-, -, residual, hsend, -⟩
    · exact h.unplaced (hsame ▸ hstage)
    · rw [hend] at hstage; cases hstage
    · rw [hsend] at hstage; cases hstage
  alone := by
    intro hstage
    rw [hkeeps.limit, hkeeps.market]
    rcases hkeeps.stage with ⟨hsame, -⟩ | hend | ⟨hlimitOut, -, -⟩
    · exact h.alone (hsame ▸ hstage)
    · rw [hend] at hstage; rcases hstage with hstage | hstage <;> cases hstage
    · exact h.alone (.inl hlimitOut)

theorem Placed.step {order : Order} {run : Run} (h : Placed order run) (i : Input) :
    Placed order (step order run i) := by
  cases i with
  | limit event => exact h.limitEvent event
  | market event => exact h.marketEvent event
  | raises now => exact h.keeps (raises_keepsOrders order run now)
  | taskCancelled => exact h.keeps (taskCancelled_keepsOrders order run)
  | resume r =>
    show Placed order (resume order run r)
    rcases resume_cases order run r with hkeeps | ⟨hstage, walk, hnext⟩ | ⟨residual, deadline, -, hnext⟩
    · exact h.keeps hkeeps
    · rw [hnext]
      exact {
        unplaced := fun hno => by cases hno
        alone := fun _ => ⟨(h.unplaced hstage).2, _, rfl, rfl, le_rfl⟩ }
    · rw [hnext]
      exact {
        unplaced := fun hno => by cases hno
        alone := fun hno => by rcases hno with hno | hno <;> cases hno }

/-- The orders are so in every run. -/
theorem placed_runFrom (order : Order) (inputs : List Input) : Placed order (runFrom order inputs) :=
  List.foldlRecOn inputs (step order) (Placed.start order) fun _ h i _ => h.step i

-- ============================================================================
-- The exposure of a run
-- ============================================================================

/-- What bounds the exposure: the market order about to be sent has room. -/
structure Bounded (order : Order) (run : Run) : Prop where
  exposure_le : exposure run ≤ order.qty
  room : ∀ residual, run.phase = .placingMarket residual →
    legExposure run.limit + residual.residual ≤ order.qty

/-- A limit order short of a full fill has all the room its status leaves exactly
    when it is settled. -/
theorem limitSettled_iff {order : Order} {run : Run} {leg : Leg} (hleg : run.limit = some leg)
    (hrequested : leg.order.requested = order.qty)
    (hreported : leg.status.qtyFilled ≤ leg.order.filled)
    (hshort : leg.status.qtyFilled < order.qty) :
    LimitSettled run ↔ legExposure run.limit ≤ leg.status.qtyFilled := by
  have hsettled : LimitSettled run ↔
      leg.order.live = false ∧ leg.status.qtyFilled = leg.order.filled := by
    simp [LimitSettled, hleg]
  rw [hsettled, hleg]
  show _ ↔ leg.order.exposure ≤ _
  cases hlive : leg.order.live with
  | true =>
    rw [VenueOrder.exposure_of_live hlive, hrequested]
    exact ⟨fun h => absurd h.1 Bool.noConfusion, fun h => absurd h (not_le.mpr hshort)⟩
  | false =>
    rw [VenueOrder.exposure_of_not_live hlive]
    exact ⟨fun h => h.2.ge, fun h => ⟨rfl, le_antisymm hreported h⟩⟩

theorem Bounded.start (order : Order) : Bounded order {} where
  exposure_le := by
    show (0 : ℚ) + 0 ≤ order.qty
    have := order.qty_pos
    linarith
  room := fun residual h => by cases h

theorem Bounded.keeps {order : Order} {run next : Run} (h : Bounded order run)
    (hplaced : Placed order run)
    (hsettled : next.phase.stage = .crossing → EndsWaitShort order run → LimitSettled run)
    (hkeeps : KeepsOrders order run next) : Bounded order next where
  exposure_le := by
    show legExposure next.limit + legExposure next.market ≤ order.qty
    rw [hkeeps.limit, hkeeps.market]
    exact h.exposure_le
  room := by
    intro residual hphase
    rw [hkeeps.limit]
    rcases hkeeps.stage with ⟨hsame, hne⟩ | hend | ⟨hstage, hends, residual', hsend, hqty⟩
    · rw [hphase] at hsame
      exact absurd hsame.symm hne
    · rw [hphase] at hend; cases hend
    · obtain rfl : residual' = residual := by
        rw [hphase] at hsend
        exact (Phase.placingMarket.inj hsend).symm
      obtain ⟨-, leg, hleg, hrequested, hreported⟩ := hplaced.alone (.inl hstage)
      have hstatus : getOrderStatus run.limit = leg.status := by rw [hleg]; rfl
      have hroom := (limitSettled_iff hleg hrequested hreported
        (hstatus ▸ hends.1)).mp (hsettled (by rw [hphase]; rfl) hends)
      rw [hqty, hstatus]
      linarith

theorem Bounded.step {order : Order} {run : Run} (h : Bounded order run)
    (hplaced : Placed order run) (i : Input) (hi : LeavesWaitSettled order run i) :
    Bounded order (step order run i) := by
  cases i with
  | limit event =>
    have hle := legExposure_handle_le run.limit event
    refine ⟨?_, fun residual hphase => ?_⟩
    · show legExposure (run.limit.map (·.handle event)) + legExposure run.market ≤ order.qty
      have := h.exposure_le
      unfold exposure at this
      linarith
    · have := h.room residual hphase
      show legExposure (run.limit.map (·.handle event)) + residual.residual ≤ order.qty
      linarith
  | market event =>
    have hle := legExposure_handle_le run.market event
    refine ⟨?_, h.room⟩
    show legExposure run.limit + legExposure (run.market.map (·.handle event)) ≤ order.qty
    have := h.exposure_le
    unfold exposure at this
    linarith
  | raises now =>
    exact h.keeps hplaced (fun hcross => absurd hcross (raises_not_crossing order run now))
      (raises_keepsOrders order run now)
  | taskCancelled =>
    exact h.keeps hplaced (fun hcross => absurd hcross (taskCancelled_not_crossing run))
      (taskCancelled_keepsOrders order run)
  | resume r =>
    show Bounded order (resume order run r)
    rcases resume_cases order run r with
      hkeeps | ⟨hstage, walk, hnext⟩ | ⟨residual, deadline, hphase, hnext⟩
    · exact h.keeps hplaced (fun _ => hi) hkeeps
    · obtain ⟨-, hmarket⟩ := hplaced.unplaced hstage
      rw [hnext]
      refine ⟨?_, fun residual hno => by cases hno⟩
      show (Leg.place order.qty order.qty_pos).order.exposure + legExposure run.market ≤ order.qty
      rw [hmarket, place_exposure]
      exact (add_zero order.qty).le
    · rw [hnext]
      refine ⟨?_, fun residual hno => by cases hno⟩
      show legExposure run.limit + (Leg.place residual.residual residual.residual_pos).order.exposure ≤ order.qty
      rw [place_exposure]
      exact h.room residual hphase

/-- The bound holds after every run that leaves the cancel wait settled. -/
theorem bounded_runFrom {order : Order} {inputs : List Input}
    (h : Along (step order) (LeavesWaitSettled order) {} inputs) :
    Bounded order (runFrom order inputs) := by
  have hinv : Placed order (runFrom order inputs) ∧ Bounded order (runFrom order inputs) := by
    refine Along.invariant (I := fun run => Placed order run ∧ Bounded order run) ?_ inputs ?_ h
    · intro run i hrun hi
      exact ⟨hrun.1.step i, hrun.2.step hrun.1 i hi⟩
    · exact ⟨Placed.start order, Bounded.start order⟩
  exact hinv.2

/-- Where the cancel wait ends short the rest is sent next. -/
theorem resume_of_endsWaitShort {order : Order} {run : Run} (h : EndsWaitShort order run)
    (r : Reading) :
    run.phase.stage = .limitOut ∧ ∃ residual : Residual,
      residual.residual = order.qty - (getOrderStatus run.limit).qtyFilled ∧
      resume order run r = { run with phase := .placingMarket residual } := by
  obtain ⟨hshort, hphase⟩ := h
  unfold resume
  cases h : run.phase <;> rw [h] at hphase
  case settleStatus cross deadline =>
    obtain ⟨residual, hsettled, hqty⟩ := settled_of_short cross hshort
    refine ⟨rfl, residual, hqty, ?_⟩
    dsimp only
    rw [if_pos hphase, hsettled]
  case settleTimeout cross =>
    obtain ⟨residual, hsettled, hqty⟩ := settled_of_short cross hshort
    refine ⟨rfl, residual, hqty, ?_⟩
    dsimp only
    rw [hsettled]
  all_goals exact hphase.elim

/-- Where the cancel wait ends short, sending the residual next keeps the exposure
    within the quantity exactly when the limit order is settled. -/
theorem send_exposure_le_iff {order : Order} {run : Run} (hplaced : Placed order run)
    (hends : EndsWaitShort order run) (r r' : Reading) :
    exposure (step order (step order run (.resume r)) (.resume r')) ≤ order.qty ↔
      LimitSettled run := by
  obtain ⟨hstage, residual, hqty, hnext⟩ := resume_of_endsWaitShort hends r
  obtain ⟨hmarket, leg, hleg, hrequested, hreported⟩ := hplaced.alone (.inl hstage)
  have hstatus : getOrderStatus run.limit = leg.status := by rw [hleg]; rfl
  have hshort : leg.status.qtyFilled < order.qty := hstatus ▸ hends.1
  have hsent : exposure (step order (step order run (.resume r)) (.resume r')) =
      legExposure run.limit + residual.residual := by
    show exposure (resume order (resume order run r) r') = _
    rw [hnext]
    show legExposure run.limit + (Leg.place residual.residual residual.residual_pos).order.exposure = _
    rw [place_exposure]
  rw [hsent, limitSettled_iff hleg hrequested hreported hshort, hqty, hstatus]
  constructor <;> intro h <;> linarith

/-- In a run that leaves the cancel wait settled, the exposure never exceeds the
    quantity and the market order is sent only for quantity the limit order can
    no longer fill.  Where a cancel wait ends short with a limit order that is not
    settled, sending the residual exceeds the quantity. -/
theorem smartMarket_exposure_le (order : Order) (inputs : List Input) :
    (Along (step order) (LeavesWaitSettled order) {} inputs → ∀ sofar, sofar <+: inputs →
        exposure (runFrom order sofar) ≤ order.qty ∧
        ∀ residual, (runFrom order sofar).phase = .placingMarket residual →
          legExposure (runFrom order sofar).limit + residual.residual ≤ order.qty) ∧
      (EndsWaitShort order (runFrom order inputs) → ∀ r r',
        (exposure (runFrom order (inputs ++ [.resume r, .resume r'])) ≤ order.qty ↔
          LimitSettled (runFrom order inputs))) := by
  constructor
  · rintro halong sofar ⟨rest, rfl⟩
    have hbounded := bounded_runFrom ((Along.append sofar rest).mp halong).1
    exact ⟨hbounded.exposure_le, hbounded.room⟩
  · intro hends r r'
    have hsplit : runFrom order (inputs ++ [.resume r, .resume r']) =
        step order (step order (runFrom order inputs) (.resume r)) (.resume r') := by
      simp [runFrom, List.foldl_append]
    rw [hsplit]
    exact send_exposure_le_iff (placed_runFrom order inputs) hends r r'

/-- Ten shares to buy. -/
def buyTen : Order where
  side := .buy
  qty := 10
  tickSize := 1 / 100
  qty_pos := by decide

/-- The walk of `buyTen` used up at once, a cancel sent. -/
def walkUsedUp : List Input :=
  [.resume { bid := 100, ask := 101 }, .resume {}, .resume { now := 10 },
    .resume {}, .resume { now := 10 }]

/-- The limit order fills 3 and is cancelled, and IB has reported both. -/
def cancelConfirmed : List Input :=
  walkUsedUp ++ [.limit (.fill 3), .limit .takenOff,
    .limit (.orderStatus { status := "Cancelled", qtyFilled := 3, avgFillPrice := some 100 }),
    .limit (.onStatus "Cancelled"), .resume { now := 11 }]

theorem smartMarket_exposure_le_confirmed :
    exposure (runFrom buyTen (cancelConfirmed ++ [.resume {}, .resume {}, .market (.fill 7)])) ≤ 10 ∧
      (exposure (runFrom buyTen (cancelConfirmed ++ [.resume {}, .resume {}])) ≤ 10 ↔
        LimitSettled (runFrom buyTen cancelConfirmed)) :=
  ⟨((smartMarket_exposure_le buyTen _).1 (by decide +kernel) _ (List.prefix_refl _)).1,
    (smartMarket_exposure_le buyTen cancelConfirmed).2 (by decide +kernel) _ _⟩

/-- The exposure can exceed the quantity: IB does not act on the cancel, the wait
    for it times out, and ten shares go to market next to ten still working. -/
theorem smartMarket_exposure_exceeds :
    ¬∀ (order : Order) (inputs : List Input),
      exposure (runFrom order inputs) ≤ order.qty := by
  intro hall
  have h := hall buyTen
    (walkUsedUp ++ [.limit (.orderStatus { status := "Submitted" }), .resume { now := 130 },
      .resume { now := 130 }, .resume { now := 130 }])
  exact absurd h (by decide +kernel)

end IbTrader.Engine.SmartMarket
