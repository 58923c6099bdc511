/-
  IbTrader.Lib.VenueOrder

  An order at a trading venue, seen from the venue.

  A live order can fill up to the quantity requested; once it is off the book it
  fills no more.  Its exposure is what it has filled and what it can still fill.
  Nothing the venue does to an order adds to its exposure (`exposure_fill`,
  `exposure_takeOff_le`), so a client that only ever places quantity it has room
  for stays within that room whatever the venue does.
-/

import Mathlib.Algebra.Order.Group.Defs
import Mathlib.Algebra.Order.Group.Basic
import Mathlib.Algebra.BigOperators.Group.List.Basic

namespace IbTrader.Lib

/-- An order as the venue has it. -/
structure VenueOrder (K : Type*) [AddCommGroup K] [LinearOrder K] where
  requested : K
  filled : K
  /-- The order is on the book: the venue can still fill it. -/
  live : Bool
  filled_le : filled ≤ requested

namespace VenueOrder

variable {K : Type*} [AddCommGroup K] [LinearOrder K]

/-- A new order of a quantity that is not negative. -/
def place (qty : K) (h : 0 ≤ qty) : VenueOrder K where
  requested := qty
  filled := 0
  live := true
  filled_le := h

/-- The venue fills `n` more of the order, if it can. -/
def fill (o : VenueOrder K) (n : K) : VenueOrder K :=
  if h : o.live ∧ 0 < n ∧ o.filled + n ≤ o.requested then
    { o with filled := o.filled + n, filled_le := h.2.2 }
  else o

/-- The venue takes the order off the book. -/
def takeOff (o : VenueOrder K) : VenueOrder K := { o with live := false }

/-- What the venue can still fill. -/
def working (o : VenueOrder K) : K := if o.live then o.requested - o.filled else 0

/-- What is filled and what can still fill. -/
def exposure (o : VenueOrder K) : K := o.filled + o.working

@[simp] theorem fill_requested (o : VenueOrder K) (n : K) : (o.fill n).requested = o.requested := by
  unfold fill; split <;> rfl

@[simp] theorem fill_live (o : VenueOrder K) (n : K) : (o.fill n).live = o.live := by
  unfold fill; split <;> rfl

@[simp] theorem takeOff_filled (o : VenueOrder K) : o.takeOff.filled = o.filled := rfl

@[simp] theorem takeOff_live (o : VenueOrder K) : o.takeOff.live = false := rfl

@[simp] theorem place_exposure (qty : K) (h : 0 ≤ qty) : (place qty h).exposure = qty := by
  simp [place, exposure, working]

/-- An order off the book fills no more. -/
theorem fill_of_not_live {o : VenueOrder K} (h : o.live = false) (n : K) : o.fill n = o := by
  unfold fill
  rw [dif_neg]
  rintro ⟨hlive, -⟩
  rw [h] at hlive
  exact absurd hlive Bool.false_ne_true

theorem exposure_of_live {o : VenueOrder K} (h : o.live = true) : o.exposure = o.requested := by
  rw [exposure, working, if_pos h, add_sub_cancel]

theorem exposure_of_not_live {o : VenueOrder K} (h : o.live = false) : o.exposure = o.filled := by
  rw [exposure, working, h, if_neg Bool.false_ne_true, add_zero]

/-- A fill moves quantity from what can fill to what has filled. -/
@[simp] theorem exposure_fill (o : VenueOrder K) (n : K) : (o.fill n).exposure = o.exposure := by
  cases hlive : o.live with
  | true =>
    rw [exposure_of_live (by rw [fill_live, hlive]), exposure_of_live hlive, fill_requested]
  | false => rw [fill_of_not_live hlive]

theorem filled_le_exposure (o : VenueOrder K) : o.filled ≤ o.exposure := by
  cases hlive : o.live with
  | true => rw [exposure_of_live hlive]; exact o.filled_le
  | false => rw [exposure_of_not_live hlive]

/-- Taking an order off the book leaves it with what it has filled. -/
theorem exposure_takeOff_le (o : VenueOrder K) : o.takeOff.exposure ≤ o.exposure := by
  rw [exposure_of_not_live o.takeOff_live, takeOff_filled]
  exact o.filled_le_exposure

/-- A fill adds to what has filled. -/
theorem filled_le_fill [IsOrderedAddMonoid K] (o : VenueOrder K) (n : K) :
    o.filled ≤ (o.fill n).filled := by
  unfold fill
  split
  case isTrue h => exact le_add_of_nonneg_right h.2.1.le
  case isFalse => exact le_rfl

-- ============================================================================
-- Several orders
-- ============================================================================

/-- What the orders have filled. -/
def totalFilled (orders : List (VenueOrder K)) : K := (orders.map filled).sum

/-- What the orders have filled and can still fill. -/
def totalExposure (orders : List (VenueOrder K)) : K := (orders.map exposure).sum

theorem totalExposure_append (orders more : List (VenueOrder K)) :
    totalExposure (orders ++ more) = totalExposure orders + totalExposure more := by
  simp [totalExposure]

variable [IsOrderedAddMonoid K]

theorem totalFilled_le_totalExposure (orders : List (VenueOrder K)) :
    totalFilled orders ≤ totalExposure orders := by
  induction orders with
  | nil => exact le_rfl
  | cons o orders ih => exact add_le_add o.filled_le_exposure ih

/-- What the venue does to one of the orders adds nothing to the exposure. -/
theorem totalExposure_modify_le {f : VenueOrder K → VenueOrder K}
    (hf : ∀ o, (f o).exposure ≤ o.exposure) (orders : List (VenueOrder K)) (k : ℕ) :
    totalExposure (orders.modify k f) ≤ totalExposure orders := by
  induction orders generalizing k with
  | nil => simp [totalExposure]
  | cons o orders ih =>
    cases k with
    | zero => exact add_le_add (hf o) le_rfl
    | succ k => exact add_le_add le_rfl (ih k)

end VenueOrder

end IbTrader.Lib
