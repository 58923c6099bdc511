/-
  IbTrader.Engine.WalkPrices

  The prices a walk sends (`_walk_limit_aggressive` in `ib_trader/engine/order.py`).

  Each step of the walk is a cent, or a jump to the quote, clamped to the cap and
  rounded to whole cents.  So the prices of all walks are the whole cents from the
  first step to the cap (`sendable_of_walk`, `walk_reaches`), whatever the tick size of
  the contract is.
-/

import IbTrader.Engine.SmartMarket

namespace IbTrader.Engine.SmartMarket

open Data Pricing

-- ============================================================================
-- Towards the far side
-- ============================================================================

/-- A price is no farther than another: no higher for a BUY, no lower for a SELL. -/
def NotBeyond (side : Side) (price limit : ℚ) : Prop :=
  match side with
  | .buy => price ≤ limit
  | .sell => limit ≤ price

/-- The direction of a walk, in cents. -/
def towards : Side → ℤ
  | .buy => 1
  | .sell => -1

/-- A step clamped to the cap, if there is one. -/
def capped (side : Side) (floorPrice : Option ℚ) (stepPrice : ℚ) : ℚ :=
  (floorPrice.map (applyCap stepPrice · side)).getD stepPrice

section Side

variable {side : Side} {a b c f : ℚ} {floorPrice : Option ℚ}

theorem NotBeyond.refl (side : Side) (a : ℚ) : NotBeyond side a a := by
  cases side <;> exact le_refl a

theorem NotBeyond.trans (hab : NotBeyond side a b) (hbc : NotBeyond side b c) : NotBeyond side a c := by
  cases side with
  | buy => exact le_trans hab hbc
  | sell => exact le_trans hbc hab

theorem notBeyond_total (side : Side) (a b : ℚ) : NotBeyond side a b ∨ NotBeyond side b a := by
  cases side with
  | buy => exact le_total a b
  | sell => exact le_total b a

theorem NotBeyond.quantize (h : NotBeyond side a b) : NotBeyond side (quantizeCents a) (quantizeCents b) := by
  cases side with
  | buy => exact quantizeCents_mono h
  | sell => exact quantizeCents_mono h

theorem notBeyond_cents {j k : ℤ} : NotBeyond side (cents j) (cents k) ↔ ∃ n : ℕ, k = j + towards side * n := by
  cases side with
  | buy =>
    rw [NotBeyond, cents_le_cents, towards]
    constructor
    · intro h
      exact ⟨(k - j).toNat, by omega⟩
    · rintro ⟨n, rfl⟩
      omega
  | sell =>
    rw [NotBeyond, cents_le_cents, towards]
    constructor
    · intro h
      exact ⟨(j - k).toNat, by omega⟩
    · rintro ⟨n, rfl⟩
      omega

/-- Without a quote the step is one cent. -/
theorem nextStep_cent (side : Side) (lastSent : ℚ) : nextStep side lastSent 0 0 = lastSent + cents (towards side) := by
  cases side with
  | buy =>
    show (if (0 : ℚ) < 0 ∧ lastSent + 1 / 100 < 0 then 0 else lastSent + 1 / 100) = _
    rw [if_neg fun h => lt_irrefl _ h.1, towards, cents]
    norm_num
  | sell =>
    show (if (0 : ℚ) < 0 ∧ 0 < lastSent - 1 / 100 then 0 else lastSent - 1 / 100) = _
    rw [if_neg fun h => lt_irrefl _ h.1, towards, cents]
    norm_num
    ring

/-- A quote only takes the step farther. -/
theorem nextStep_notBeyond (side : Side) (lastSent bid ask : ℚ) :
    NotBeyond side (nextStep side lastSent 0 0) (nextStep side lastSent bid ask) := by
  rw [nextStep_cent]
  cases side with
  | buy =>
    show lastSent + cents 1 ≤ if 0 < ask ∧ lastSent + 1 / 100 < ask then ask else lastSent + 1 / 100
    have hcent : cents 1 = 1 / 100 := by norm_num [cents]
    rw [hcent]
    split
    case isTrue h => exact h.2.le
    case isFalse => exact le_rfl
  | sell =>
    show (if 0 < bid ∧ bid < lastSent - 1 / 100 then bid else lastSent - 1 / 100) ≤ lastSent + cents (-1)
    have hcent : lastSent + cents (-1) = lastSent - 1 / 100 := by norm_num [cents]; ring
    rw [hcent]
    split
    case isTrue h => exact h.2.le
    case isFalse => exact le_rfl

theorem notBeyond_cent (side : Side) (lastSent : ℚ) : NotBeyond side lastSent (nextStep side lastSent 0 0) := by
  rw [nextStep_cent]
  cases side with
  | buy =>
    show lastSent ≤ lastSent + cents 1
    norm_num [cents]
  | sell =>
    show lastSent + cents (-1) ≤ lastSent
    norm_num [cents]

theorem applyCap_mono (h : NotBeyond side a b) (f : ℚ) : NotBeyond side (applyCap a f side) (applyCap b f side) := by
  cases side with
  | buy => exact min_le_min_right f h
  | sell => exact max_le_max_right f h

theorem applyCap_notBeyond (side : Side) (a f : ℚ) : NotBeyond side (applyCap a f side) f := by
  cases side with
  | buy => exact min_le_right a f
  | sell => exact le_max_right a f

theorem notBeyond_applyCap (ha : NotBeyond side c a) (hf : NotBeyond side c f) : NotBeyond side c (applyCap a f side) := by
  cases side with
  | buy => exact le_min ha hf
  | sell => exact max_le ha hf

theorem applyCap_of_notBeyond (h : NotBeyond side a f) : applyCap a f side = a := by
  cases side with
  | buy => exact min_eq_left h
  | sell => exact max_eq_left h

theorem applyCap_of_beyond (h : NotBeyond side f a) : applyCap a f side = f := by
  cases side with
  | buy => exact min_eq_right h
  | sell => exact max_eq_right h

theorem capped_mono (h : NotBeyond side a b) (floorPrice : Option ℚ) :
    NotBeyond side (capped side floorPrice a) (capped side floorPrice b) := by
  cases floorPrice with
  | none => exact h
  | some f => exact applyCap_mono h f

theorem notBeyond_capped (ha : NotBeyond side c a) (hf : ∀ f ∈ floorPrice, NotBeyond side c f) :
    NotBeyond side c (capped side floorPrice a) := by
  cases floorPrice with
  | none => exact ha
  | some f => exact notBeyond_applyCap ha (hf f rfl)

theorem capped_of_notBeyond (h : ∀ f ∈ floorPrice, NotBeyond side a f) : capped side floorPrice a = a := by
  cases floorPrice with
  | none => rfl
  | some f => exact applyCap_of_notBeyond (h f rfl)

end Side

-- ============================================================================
-- The walk
-- ============================================================================

/-- The parameters of `_walk_limit_aggressive` that the order does not say. -/
structure WalkArgs where
  triggerPrice : ℚ
  rth : Bool := false
  deadline : Option ℚ := none
  deriving DecidableEq, Repr

/-- `floor_price`: outside regular hours the price of the slippage cap. -/
def WalkArgs.floorPrice (args : WalkArgs) (order : Order) : Option ℚ :=
  if args.rth then none else some (slippageFloor args.triggerPrice order.side order.maxSlip)

def WalkArgs.walk (args : WalkArgs) (order : Order) (lastSent : ℚ) : Walk where
  triggerPrice := args.triggerPrice
  rth := args.rth
  deadline := args.deadline
  floorPrice := args.floorPrice order
  lastSent := lastSent

/-- The order has been placed at the trigger price, and the walk begins. -/
def WalkArgs.start (args : WalkArgs) (order : Order) : Run where
  limit := some (Leg.place order.qty order.qty_pos)
  phase := .walkTop (args.walk order args.triggerPrice)

/-- The price the walk amends its order to. -/
def Run.amends (run : Run) : Option ℚ :=
  match run.phase with
  | .walkAmend _ stepPrice => some stepPrice
  | _ => none

/-- The first step: a cent, clamped to the cap and rounded. -/
def WalkArgs.firstStep (args : WalkArgs) (order : Order) : ℚ :=
  quantizeCents (capped order.side (args.floorPrice order) (nextStep order.side args.triggerPrice 0 0))

/-- The whole cents from the first step to the cap, unless the walk starts at the cap. -/
structure WalkArgs.Sendable (args : WalkArgs) (order : Order) (price : ℚ) : Prop where
  cents : ∃ k : ℤ, price = Pricing.cents k
  first : NotBeyond order.side (args.firstStep order) price
  cap : ∀ f ∈ args.floorPrice order, NotBeyond order.side price f
  starts : args.floorPrice order ≠ some args.triggerPrice

/-- The cap is in whole cents. -/
theorem floorPrice_cents {args : WalkArgs} {order : Order} {f : ℚ} (h : f ∈ args.floorPrice order) :
    ∃ k : ℤ, f = cents k := by
  unfold WalkArgs.floorPrice at h
  split at h
  · cases h
  · rw [← Option.some.inj h]
    unfold slippageFloor
    cases order.side <;> exact ⟨_, rfl⟩

-- ============================================================================
-- The moves of a walk
-- ============================================================================

/-- The locals of the walk's loop. -/
def Phase.walk? : Phase → Option Walk
  | .walkTop walk => some walk
  | .walkStatus walk => some walk
  | .walkPrices walk => some walk
  | .walkPreAmend walk _ => some walk
  | .walkAmend walk _ => some walk
  | .walkAmendCheck walk => some walk
  | _ => none

/-- The limit order has been placed. -/
def Phase.Placed : Phase → Prop
  | .quoting | .placingLimit .. => False
  | _ => True

/-- What one input can do to where a walk is. -/
inductive WalkMove (order : Order) : Phase → Phase → Prop where
  | stay {phase : Phase} : WalkMove order phase phase
  /-- The loop goes on and sends nothing. -/
  | idle {phase next : Phase} {walk : Walk} (hwalk : phase.walk? = some walk)
      (hidle : next = .walkTop walk ∨ next = .walkStatus walk ∨ next = .walkPrices walk ∨ next = .walkAmendCheck walk) :
      WalkMove order phase next
  | reprice {walk : Walk} (bid ask : ℚ)
      (hcap : ¬ (walk.floorPrice = some (capped order.side walk.floorPrice (nextStep order.side walk.lastSent bid ask)) ∧
        walk.floorPrice = some walk.lastSent))
      (hne : quantizeCents (capped order.side walk.floorPrice (nextStep order.side walk.lastSent bid ask)) ≠ walk.lastSent) :
      WalkMove order (.walkPrices walk)
        (.walkPreAmend walk (quantizeCents (capped order.side walk.floorPrice (nextStep order.side walk.lastSent bid ask))))
  | check {walk : Walk} {stepPrice : ℚ} : WalkMove order (.walkPreAmend walk stepPrice) (.walkAmend walk stepPrice)
  | amend {walk : Walk} {stepPrice : ℚ} :
      WalkMove order (.walkAmend walk stepPrice) (.walkTop { walk with lastSent := stepPrice })
  /-- The loop is over. -/
  | ended {phase next : Phase} (hplaced : next.Placed) (hwalk : next.walk? = none) : WalkMove order phase next

section Moves

variable (order : Order)

theorem walkMove_reprice (walk : Walk) (canceled : Bool) (r : Reading) :
    WalkMove order (.walkPrices walk) (walkReprice order walk canceled r) := by
  unfold walkReprice
  split
  · exact .idle rfl (.inl rfl)
  · dsimp only
    split
    case isTrue => exact .ended trivial rfl
    case isFalse hcap =>
      split
      case isTrue => exact .idle rfl (.inl rfl)
      case isFalse hne =>
        split
        · exact .ended trivial rfl
        · exact .reprice _ _ hcap hne

theorem walkMove_check (walk : Walk) (stepPrice : ℚ) (status : OrderStatus) :
    WalkMove order (.walkPreAmend walk stepPrice) (walkCheck order walk stepPrice status) := by
  unfold walkCheck
  split_ifs
  · exact .ended trivial rfl
  · exact .ended trivial rfl
  · exact .check

theorem walkMove_amendCheck (phase : Phase) (walk : Walk) (status : OrderStatus) :
    WalkMove order phase (amendCheck order walk status) := by
  unfold amendCheck
  split <;> exact .ended trivial rfl

theorem walkMove_postWalk (phase : Phase) (limit : Option Leg) (walk : Walk) (exit : WalkStatus) :
    WalkMove order phase (postWalk order limit walk exit) := by
  unfold postWalk
  dsimp only
  split_ifs <;> exact .ended trivial rfl

theorem walkMove_settled (phase : Phase) (cross : Cross) (status : OrderStatus) :
    WalkMove order phase (settled order cross status) := by
  unfold settled
  dsimp only
  split_ifs <;> exact .ended trivial rfl

theorem walkMove_resume (run : Run) (hplaced : run.phase.Placed) (r : Reading) :
    WalkMove order run.phase (resume order run r).phase := by
  unfold resume
  cases hphase : run.phase with
  | quoting => rw [hphase] at hplaced; exact hplaced.elim
  | placingLimit => rw [hphase] at hplaced; exact hplaced.elim
  | walkTop walk =>
    dsimp only
    split_ifs
    · exact .ended trivial rfl
    · exact .ended trivial rfl
    · exact .idle rfl (.inr (.inl rfl))
  | walkStatus walk =>
    dsimp only
    split_ifs
    · exact .ended trivial rfl
    · exact .ended trivial rfl
    · exact .idle rfl (.inr (.inr (.inl rfl)))
  | walkPrices walk => exact walkMove_reprice order walk _ r
  | walkPreAmend walk stepPrice => exact walkMove_check order walk stepPrice _
  | walkAmend walk stepPrice => exact .amend
  | walkAmendCheck walk => exact walkMove_amendCheck order _ walk _
  | postWalk walk exit => exact walkMove_postWalk order _ run.limit walk exit
  | cancelling cross => exact .ended trivial rfl
  | settleTop cross deadline =>
    dsimp only
    split_ifs <;> exact .ended trivial rfl
  | settleStatus cross deadline =>
    dsimp only
    split_ifs
    · exact walkMove_settled order _ cross _
    · exact .ended trivial rfl
  | settleTimeout cross => exact walkMove_settled order _ cross _
  | placingMarket residual => exact .ended trivial rfl
  | awaitingMarket residual deadline =>
    dsimp only
    split_ifs
    · exact .ended trivial rfl
    · rw [hphase]
      exact .stay
  | marketStatus residual => exact .ended trivial rfl
  | done outcome =>
    dsimp only
    rw [hphase]
    exact .stay

theorem walkMove_raises (run : Run) (now : ℚ) : WalkMove order run.phase (raises order run now).phase := by
  unfold raises
  cases hphase : run.phase with
  | walkPreAmend walk stepPrice => exact walkMove_check order walk stepPrice { status := "" }
  | walkAmend walk stepPrice => exact .idle rfl (.inr (.inr (.inr rfl)))
  | walkAmendCheck walk => exact walkMove_amendCheck order _ walk _
  | done outcome =>
    dsimp only
    rw [hphase]
    exact .stay
  | _ => exact .ended trivial rfl

theorem walkMove_step (run : Run) (hplaced : run.phase.Placed) (input : Input) :
    WalkMove order run.phase (step order run input).phase := by
  cases input with
  | limit event => exact .stay
  | market event => exact .stay
  | resume r => exact walkMove_resume order run hplaced r
  | raises now => exact walkMove_raises order run now
  | taskCancelled =>
    show WalkMove order run.phase (taskCancelled run).phase
    unfold taskCancelled
    split
    · exact .stay
    · exact .ended trivial rfl

end Moves

-- ============================================================================
-- What a walk sends
-- ============================================================================

/-- The locals of the walk: what was last sent is the trigger price or a price of the
    walk. -/
structure WalkArgs.OnPath (args : WalkArgs) (order : Order) (walk : Walk) : Prop where
  floorPrice : walk.floorPrice = args.floorPrice order
  lastSent : walk.lastSent = args.triggerPrice ∨ args.Sendable order walk.lastSent

/-- Where the walk is, and what it is about to send. -/
def WalkArgs.Holds (args : WalkArgs) (order : Order) : Phase → Prop
  | .quoting | .placingLimit .. => False
  | .walkTop walk | .walkStatus walk | .walkPrices walk | .walkAmendCheck walk => args.OnPath order walk
  | .walkPreAmend walk stepPrice | .walkAmend walk stepPrice => args.OnPath order walk ∧ args.Sendable order stepPrice
  | _ => True

section Sends

variable {args : WalkArgs} {order : Order} {walk : Walk}

/-- The clamped and rounded step is one of the prices of the walk. -/
theorem WalkArgs.OnPath.step (h : args.OnPath order walk) (bid ask : ℚ)
    (hcap : ¬ (walk.floorPrice = some (capped order.side walk.floorPrice (nextStep order.side walk.lastSent bid ask)) ∧
      walk.floorPrice = some walk.lastSent)) :
    args.Sendable order (quantizeCents (capped order.side walk.floorPrice (nextStep order.side walk.lastSent bid ask))) := by
  rw [h.floorPrice] at hcap ⊢
  have hquote := nextStep_notBeyond order.side walk.lastSent bid ask
  have hcent := notBeyond_cent order.side walk.lastSent
  refine ⟨⟨_, rfl⟩, ?_, ?_, ?_⟩
  · rcases h.lastSent with htrigger | hsent
    · rw [htrigger] at hquote ⊢
      exact (capped_mono hquote _).quantize
    · have hfirst : NotBeyond order.side (quantizeCents (args.firstStep order)) _ :=
        (notBeyond_capped (hsent.first.trans (hcent.trans hquote)) fun f hf => hsent.first.trans (hsent.cap f hf)).quantize
      rwa [WalkArgs.firstStep, quantizeCents_quantizeCents] at hfirst
  · intro f hf
    obtain ⟨k, hk⟩ := floorPrice_cents hf
    have hclamped := (applyCap_notBeyond order.side (nextStep order.side walk.lastSent bid ask) f).quantize
    rw [hf]
    rw [hk, quantizeCents_cents] at hclamped
    rw [hk]
    exact hclamped
  · rcases h.lastSent with htrigger | hsent
    · intro hstart
      -- at the cap from the start, the step is clamped back to where it was
      have hback : applyCap (nextStep order.side walk.lastSent bid ask) walk.lastSent order.side = walk.lastSent :=
        applyCap_of_beyond (hcent.trans hquote)
      rw [← htrigger] at hstart
      refine hcap ⟨?_, hstart⟩
      rw [hstart]
      exact congrArg some hback.symm
    · exact hsent.starts

/-- In the walk's loop the locals are on the path. -/
theorem WalkArgs.Holds.onPath {phase : Phase} (h : args.Holds order phase) (hwalk : phase.walk? = some walk) :
    args.OnPath order walk := by
  unfold Phase.walk? at hwalk
  split at hwalk
  case h_7 => cases hwalk
  case h_4 | h_5 =>
    rw [← Option.some.inj hwalk]
    exact h.1
  all_goals
    rw [← Option.some.inj hwalk]
    exact h

theorem WalkArgs.Holds.placed {phase : Phase} (h : args.Holds order phase) : phase.Placed := by
  cases phase with
  | quoting => exact h
  | placingLimit => exact h
  | _ => exact trivial

theorem WalkArgs.Holds.move {phase next : Phase} (h : args.Holds order phase) (hmove : WalkMove order phase next) :
    args.Holds order next := by
  cases hmove with
  | stay => exact h
  | idle hwalk hidle =>
    have honPath := h.onPath hwalk
    rcases hidle with rfl | rfl | rfl | rfl <;> exact honPath
  | reprice bid ask hcap hne => exact ⟨h, WalkArgs.OnPath.step h bid ask hcap⟩
  | check => exact h
  | amend => exact ⟨h.1.floorPrice, .inr h.2⟩
  | ended hplaced hwalk =>
    cases next with
    | quoting => exact hplaced
    | placingLimit => exact hplaced
    | walkTop | walkStatus | walkPrices | walkPreAmend | walkAmend | walkAmendCheck => cases hwalk
    | _ => exact trivial

/-- Whatever happens, a walk sends prices of the walk only. -/
theorem sendable_of_walk (args : WalkArgs) (order : Order) (inputs : List Input) :
    ∀ price ∈ (inputs.foldl (SmartMarket.step order) (args.start order)).amends, args.Sendable order price := by
  have hholds : args.Holds order (inputs.foldl (SmartMarket.step order) (args.start order)).phase := by
    induction inputs using List.reverseRecOn with
    | nil => exact ⟨rfl, .inl rfl⟩
    | append_singleton inputs input ih =>
      rw [List.foldl_append]
      exact ih.move (walkMove_step order _ ih.placed input)
  intro price hprice
  unfold Run.amends at hprice
  split at hprice
  case h_1 walk stepPrice hphase =>
    rw [hphase] at hholds
    rw [← Option.some.inj hprice]
    exact hholds.2
  case h_2 => cases hprice

end Sends

-- ============================================================================
-- Every such price is sent
-- ============================================================================

/-- A quote that the walk does not follow, before its deadline. -/
def idleReading (side : Side) (deadline : Option ℚ) : Reading :=
  match side with
  | .buy => { now := deadline.getD 1 - 1, bid := 1 }
  | .sell => { now := deadline.getD 1 - 1, ask := 1 }

section Reaches

variable {args : WalkArgs} {order : Order} {lastSent : ℚ}

theorem nextStep_idle (side : Side) (lastSent : ℚ) (deadline : Option ℚ) :
    nextStep side lastSent (quoteOrLast (idleReading side deadline)).1 (quoteOrLast (idleReading side deadline)).2 =
      nextStep side lastSent 0 0 := by
  cases side <;> rfl

theorem deadline_idle (side : Side) (deadline : Option ℚ) :
    (deadline.any fun deadline' => decide (deadline' ≤ (idleReading side deadline).now)) = false := by
  cases deadline with
  | none => rfl
  | some deadline =>
    have hnow : (idleReading side (some deadline)).now = deadline - 1 := by cases side <;> rfl
    rw [Option.any_some, hnow, decide_eq_false_iff_not, not_le]
    exact sub_one_lt deadline

/-- At such a quote the walk goes on to its next step. -/
theorem walkReprice_idle (args : WalkArgs) (order : Order) (lastSent : ℚ) (hcap : ¬ (args.floorPrice order =
      some (capped order.side (args.floorPrice order) (nextStep order.side lastSent 0 0)) ∧
        args.floorPrice order = some lastSent))
    (hne : quantizeCents (capped order.side (args.floorPrice order) (nextStep order.side lastSent 0 0)) ≠ lastSent) :
    walkReprice order (args.walk order lastSent) false (idleReading order.side args.deadline) =
      .walkPreAmend (args.walk order lastSent)
        (quantizeCents (capped order.side (args.floorPrice order) (nextStep order.side lastSent 0 0))) := by
  have hquoted : ¬ ((idleReading order.side args.deadline).bid = 0 ∧ (idleReading order.side args.deadline).ask = 0 ∧
      ¬ 0 < (idleReading order.side args.deadline).last) := by
    cases order.side <;> simp [idleReading]
  unfold walkReprice
  rw [if_neg hquoted]
  dsimp only
  rw [show (args.walk order lastSent).lastSent = lastSent from rfl, nextStep_idle]
  rw [show (args.walk order lastSent).floorPrice = args.floorPrice order from rfl]
  exact ((if_neg hcap).trans (if_neg hne)).trans (if_neg Bool.false_ne_true)

/-- From the top of the loop to the amend, while nothing happens to the order. -/
theorem walk_to_amend (args : WalkArgs) (order : Order) (lastSent : ℚ) (hcap : ¬ (args.floorPrice order =
      some (capped order.side (args.floorPrice order) (nextStep order.side lastSent 0 0)) ∧
        args.floorPrice order = some lastSent))
    (hne : quantizeCents (capped order.side (args.floorPrice order) (nextStep order.side lastSent 0 0)) ≠ lastSent) :
    (List.replicate 4 (Input.resume (idleReading order.side args.deadline))).foldl (SmartMarket.step order)
        { limit := some (Leg.place order.qty order.qty_pos), phase := .walkTop (args.walk order lastSent) } =
      { limit := some (Leg.place order.qty order.qty_pos)
        phase := .walkAmend (args.walk order lastSent)
          (quantizeCents (capped order.side (args.floorPrice order) (nextStep order.side lastSent 0 0))) } := by
  have hqty : ¬ order.qty ≤ 0 := not_le.mpr order.qty_pos
  have htime : ((args.walk order lastSent).deadline.any fun deadline =>
      decide (deadline ≤ (idleReading order.side args.deadline).now)) = false := deadline_idle order.side args.deadline
  have hreprice := walkReprice_idle args order lastSent hcap hne
  have htop : resume order { limit := some (Leg.place order.qty order.qty_pos), phase := .walkTop (args.walk order lastSent) }
      (idleReading order.side args.deadline) =
        { limit := some (Leg.place order.qty order.qty_pos), phase := .walkStatus (args.walk order lastSent) } := by
    simp only [resume, isCanceled, Leg.place, htime, Bool.false_eq_true, if_false]
  have hstatus : resume order { limit := some (Leg.place order.qty order.qty_pos), phase := .walkStatus (args.walk order lastSent) }
      (idleReading order.side args.deadline) =
        { limit := some (Leg.place order.qty order.qty_pos), phase := .walkPrices (args.walk order lastSent) } := by
    have hworking : "PendingSubmit" ∉ ["Cancelled", "Inactive"] := by decide
    simp only [resume, getOrderStatus, Leg.place, hqty, hworking, if_false]
  have hcheck (stepPrice : ℚ) : walkCheck order (args.walk order lastSent) stepPrice
      (getOrderStatus (some (Leg.place order.qty order.qty_pos))) = .walkAmend (args.walk order lastSent) stepPrice := by
    refine (if_neg ?_).trans (if_neg hqty)
    show "PendingSubmit" ∉ terminalStatuses
    decide
  have hprices : resume order { limit := some (Leg.place order.qty order.qty_pos), phase := .walkPrices (args.walk order lastSent) }
      (idleReading order.side args.deadline) =
        { limit := some (Leg.place order.qty order.qty_pos)
          phase := .walkPreAmend (args.walk order lastSent)
            (quantizeCents (capped order.side (args.floorPrice order) (nextStep order.side lastSent 0 0))) } :=
    congrArg (fun phase => ({ limit := some (Leg.place order.qty order.qty_pos), phase } : Run)) hreprice
  show resume order (resume order (resume order (resume order _ _) _) _) _ = _
  rw [htop, hstatus, hprices]
  exact congrArg (fun phase => ({ limit := some (Leg.place order.qty order.qty_pos), phase } : Run)) (hcheck _)

/-- A cent is not rounded away. -/
theorem quantizeCents_cent_ne (side : Side) (price : ℚ) : quantizeCents (nextStep side price 0 0) ≠ price := by
  intro hsame
  have hround := abs_le.mp (quantizeCents_sub_le (nextStep side price 0 0))
  rw [hsame, nextStep_cent] at hround
  cases side with
  | buy =>
    have hcent : cents (towards .buy) = 1 / 100 := by norm_num [cents, towards]
    linarith [hround.1]
  | sell =>
    have hcent : cents (towards .sell) = -1 / 100 := by norm_num [cents, towards]
    linarith [hround.2]

/-- The first step leaves the trigger price. -/
theorem firstStep_ne (h : args.floorPrice order ≠ some args.triggerPrice) : args.firstStep order ≠ args.triggerPrice := by
  unfold WalkArgs.firstStep
  cases hfloor : args.floorPrice order with
  | none => exact quantizeCents_cent_ne order.side args.triggerPrice
  | some f =>
    rcases notBeyond_total order.side (nextStep order.side args.triggerPrice 0 0) f with hstep | hstep
    · have hcapped : capped order.side (some f) (nextStep order.side args.triggerPrice 0 0) = _ := applyCap_of_notBeyond hstep
      rw [hcapped]
      exact quantizeCents_cent_ne order.side args.triggerPrice
    · have hcapped : capped order.side (some f) (nextStep order.side args.triggerPrice 0 0) = _ := applyCap_of_beyond hstep
      obtain ⟨k, hk⟩ := floorPrice_cents hfloor
      rw [hcapped, hk, quantizeCents_cents, ← hk]
      intro hsame
      exact h (hfloor.trans (congrArg some hsame))

/-- A price of the walk a number of cents past the first step is reached in as many rounds. -/
theorem walk_reaches_cents {start : ℤ} (hstart : args.firstStep order = cents start) (n : ℕ)
    (h : args.Sendable order (cents (start + towards order.side * n))) :
    ∃ (inputs : List Input) (lastSent : ℚ), inputs.foldl (SmartMarket.step order) (args.start order) =
      { limit := some (Leg.place order.qty order.qty_pos)
        phase := .walkAmend (args.walk order lastSent) (cents (start + towards order.side * n)) } := by
  induction n with
  | zero =>
    refine ⟨List.replicate 4 (.resume (idleReading order.side args.deadline)), args.triggerPrice, ?_⟩
    have hfirst := walk_to_amend args order args.triggerPrice (fun hcap => h.starts hcap.2) (firstStep_ne h.starts)
    rw [Nat.cast_zero, mul_zero, add_zero, ← hstart]
    exact hfirst
  | succ n ih =>
    have hnext : cents (start + towards order.side * (n + 1 : ℕ)) =
        nextStep order.side (cents (start + towards order.side * n)) 0 0 := by
      rw [nextStep_cent, ← cents_add]
      congr 1
      push_cast
      ring
    have hahead := notBeyond_cent order.side (cents (start + towards order.side * n))
    rw [← hnext] at hahead
    have hbefore : args.Sendable order (cents (start + towards order.side * n)) :=
      ⟨⟨_, rfl⟩, by rw [hstart]; exact notBeyond_cents.mpr ⟨n, rfl⟩, fun f hf => hahead.trans (h.cap f hf), h.starts⟩
    obtain ⟨inputs, lastSent, hrun⟩ := ih hbefore
    have hcapped : capped order.side (args.floorPrice order) (cents (start + towards order.side * (n + 1 : ℕ))) = _ :=
      capped_of_notBeyond h.cap
    have hmoved : cents (start + towards order.side * (n + 1 : ℕ)) ≠ cents (start + towards order.side * n) := by
      have hmove := quantizeCents_cent_ne order.side (cents (start + towards order.side * n))
      rwa [← hnext, quantizeCents_cents] at hmove
    refine ⟨inputs ++ .resume (idleReading order.side args.deadline) ::
      List.replicate 4 (.resume (idleReading order.side args.deadline)), cents (start + towards order.side * n), ?_⟩
    rw [List.foldl_append, hrun, List.foldl_cons]
    have hround := walk_to_amend args order (cents (start + towards order.side * n))
      (by
        rw [← hnext, hcapped]
        rintro ⟨hfloor, hlast⟩
        exact hmoved (Option.some.inj (hfloor.symm.trans hlast)))
      (by
        rw [← hnext, hcapped, quantizeCents_cents]
        exact hmoved)
    rw [← hnext, hcapped, quantizeCents_cents] at hround
    exact hround

/-- Every price of the walk is sent in some run. -/
theorem walk_reaches {price : ℚ} (h : args.Sendable order price) :
    ∃ inputs : List Input, price ∈ (inputs.foldl (SmartMarket.step order) (args.start order)).amends := by
  obtain ⟨k, rfl⟩ := h.cents
  have hfirst := h.first
  rw [WalkArgs.firstStep, quantizeCents_eq_cents] at hfirst
  obtain ⟨n, rfl⟩ := notBeyond_cents.mp hfirst
  obtain ⟨inputs, lastSent, hrun⟩ := walk_reaches_cents (quantizeCents_eq_cents _) n h
  exact ⟨inputs, by rw [hrun]; rfl⟩

end Reaches

-- ============================================================================
-- The grid
-- ============================================================================

/-- The whole cents from the first step to the cap are on the grid of the contract, or the
    walk starts at the cap. -/
def WalkArgs.OnGrid (args : WalkArgs) (order : Order) : Prop :=
  args.floorPrice order ≠ some args.triggerPrice →
    ∀ k : ℤ, NotBeyond order.side (args.firstStep order) (cents k) →
      (∀ f ∈ args.floorPrice order, NotBeyond order.side (cents k) f) → isOnTick (cents k) order.tickSize = some true

/-- Without a cap, the grid has to hold every cent. -/
theorem onGrid_rth {args : WalkArgs} {order : Order} (hrth : args.rth = true) :
    args.OnGrid order ↔ isOnTick (cents 1) order.tickSize = some true := by
  have hfloor : args.floorPrice order = none := if_pos hrth
  unfold WalkArgs.OnGrid
  rw [hfloor, isOnTick_iff]
  constructor
  · intro h
    obtain ⟨start, hstart⟩ : ∃ start : ℤ, args.firstStep order = cents start := ⟨_, rfl⟩
    rw [hstart] at h
    -- two prices of the walk that are a cent apart
    obtain ⟨hpos, m, hm⟩ := isOnTick_iff.mp (h nofun start (.refl order.side _) nofun)
    have hnext : NotBeyond order.side (cents start) (cents (start + towards order.side)) :=
      notBeyond_cents.mpr ⟨1, by rw [Nat.cast_one, mul_one]⟩
    obtain ⟨-, n, hn⟩ := isOnTick_iff.mp (h nofun (start + towards order.side) hnext nofun)
    rw [cents_add, hm] at hn
    refine ⟨hpos, ?_⟩
    cases hside : order.side with
    | buy =>
      rw [hside, towards] at hn
      exact ⟨n - m, by push_cast; linarith⟩
    | sell =>
      rw [hside, towards] at hn
      have hcent : cents (-1) = -cents 1 := by norm_num [cents]
      rw [hcent] at hn
      exact ⟨m - n, by push_cast; linarith⟩
  · rintro ⟨hpos, n, hn⟩ - k - -
    refine isOnTick_iff.mpr ⟨hpos, k * n, ?_⟩
    have hk : cents k = k * cents 1 := by unfold cents; push_cast; ring
    rw [hk, hn]
    push_cast
    ring

/-- Whatever the quotes: the prices a walk amends its order to are on the grid of the
    contract and not beyond the cap, exactly where the whole cents from the first step to
    the cap are on the grid. -/
theorem walk_prices_iff (args : WalkArgs) (order : Order) :
    (∀ inputs : List Input, ∀ price ∈ (inputs.foldl (step order) (args.start order)).amends,
      isOnTick price order.tickSize = some true ∧ ∀ f ∈ args.floorPrice order, NotBeyond order.side price f) ↔
      args.OnGrid order := by
  constructor
  · intro h hstarts k hfirst hcap
    obtain ⟨inputs, hsent⟩ := walk_reaches ⟨⟨k, rfl⟩, hfirst, hcap, hstarts⟩
    exact (h inputs _ hsent).1
  · intro h inputs price hprice
    have hsendable := sendable_of_walk args order inputs price hprice
    obtain ⟨k, rfl⟩ := hsendable.cents
    exact ⟨h hsendable.starts k hsendable.first hsendable.cap, hsendable.cap⟩

/-- A BUY of a contract with quarters as ticks, at 100 where it is offered at 100. -/
theorem walk_prices_fails : ¬ ∀ (args : WalkArgs) (order : Order) (inputs : List Input),
    ∀ price ∈ (inputs.foldl (step order) (args.start order)).amends,
      isOnTick price order.tickSize = some true ∧ ∀ f ∈ args.floorPrice order, NotBeyond order.side price f := by
  intro h
  have hcent := (h { triggerPrice := 100 } { side := .buy, qty := 1, tickSize := 1 / 4, qty_pos := by decide }
    (List.replicate 4 (.resume { bid := 9975 / 100, ask := 100 })) (10001 / 100) (by decide +kernel)).1
  exact absurd hcent (by decide +kernel)

end IbTrader.Engine.SmartMarket
