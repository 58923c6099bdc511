/-
  IbTrader.Engine.ExitProtection

  Which protective orders an entry leaves behind: when every leg the command asks
  for is attempted for the quantity that filled, with an alert for each attempt
  that comes to nothing and one OCA group for those placed (`protected_iff`).

  What a handler does to the log of protective orders and how it ends do not
  depend on the state it starts in (`Emits`), so its log is put together from the
  logs of its parts.
-/

import IbTrader.Engine.EntryOrder

namespace IbTrader.Engine.OrderFlow

open Lib Fallible Data Pricing Closing
open SmartMarket (OrderStatus)

-- ============================================================================
-- Protection
-- ============================================================================

/-- The engine has tried to place the order, or has declined to. -/
def Attempted (exits : List ExitAct) (order : ExitOrder) : Prop :=
  (∃ id, .placed order id ∈ exits) ∨ .failed order ∈ exits ∨ .refused order ∈ exits

/-- A quantity filled is protected as its command asks. -/
structure Protected (o : OrderContext) (cmd : Command) (q : ℚ) (exits : List ExitAct) : Prop where
  attempted : ∀ leg ∈ cmd.requested, ∃ order : ExitOrder, order.leg = leg ∧
    order.side = o.side.opposite ∧ order.qty = q ∧ Attempted exits order
  alerted : ∀ order : ExitOrder, .failed order ∈ exits ∨ .refused order ∈ exits →
    ∃ trigger, .alert order.leg trigger ∈ exits
  oneGroup : 2 ≤ cmd.requested.length → ∃ g, ∀ order id, .placed order id ∈ exits →
    order.ocaGroup = some g

-- ============================================================================
-- What a computation adds to the log
-- ============================================================================

/-- In every state the computation adds the same acts to the log and ends the same
    way. -/
def Emits {α : Type} (x : Flow α) (acts : List ExitAct) (result : Except Raised α) : Prop :=
  ∀ c, wp x (fun a c' => result = .ok a ∧ c'.exits = c.exits ++ acts)
    (fun e c' => result = .error e ∧ c'.exits = c.exits ++ acts) c

namespace Emits

variable {α β : Type} {x : Flow α} {f : α → Flow β} {acts acts' : List ExitAct}

theorem left {result : Except Raised α} (h : Emits x acts result) (c : Ctx) :
    (left x c).exits = c.exits ++ acts :=
  (wp_left (P := fun c' => c'.exits = c.exits ++ acts) x c).mp
    (wp_mono (h c) (fun _ _ h => h.2) (fun _ _ h => h.2))

theorem pure (a : α) : Emits (pure a : Flow α) [] (.ok a) := by
  intro c
  simp

theorem throw (e : Raised) : Emits (throw e : Flow α) [] (.error e) := by
  intro c
  simp

/-- Sequencing. -/
theorem bind {a : α} {result : Except Raised β} (hx : Emits x acts (.ok a))
    (hf : Emits (f a) acts' result) : Emits (x >>= f) (acts ++ acts') result := by
  intro c
  rw [wp_bind]
  apply wp_mono (hx c)
  · rintro b c' ⟨hb, hexits⟩
    obtain rfl := Except.ok.inj hb
    apply wp_mono (hf c') <;>
    · rintro _ c'' ⟨hresult, hexits'⟩
      exact ⟨hresult, by rw [hexits', hexits, List.append_assoc]⟩
  · rintro e c' ⟨he, -⟩
    cases he

/-- What raises ends the sequence. -/
theorem bind_error {e : Raised} (hx : Emits x acts (.error e)) :
    Emits (x >>= f) acts (.error e) := by
  intro c
  rw [wp_bind]
  apply wp_mono (hx c)
  · rintro b c' ⟨hb, -⟩
    cases hb
  · exact fun e' c' h => ⟨congrArg Except.error (Except.error.inj h.1), h.2⟩

theorem silent_bind {a : α} {result : Except Raised β} (hx : Emits x [] (.ok a))
    (hf : Emits (f a) acts result) : Emits (x >>= f) acts result := hx.bind hf

theorem bind_silent {a : α} {result : Except Raised β} (hx : Emits x acts (.ok a))
    (hf : Emits (f a) [] result) : Emits (x >>= f) acts result := by
  have h := hx.bind hf
  rwa [List.append_nil] at h

theorem exceptException_ok {a : α} {handler : Flow α} (hx : Emits x acts (.ok a)) :
    Emits (exceptException x handler) acts (.ok a) := by
  intro c
  rw [wp_exceptException]
  apply wp_mono (hx c)
  · exact fun _ _ h => h
  · rintro e c' ⟨he, -⟩
    cases he

theorem exceptException_exception {result : Except Raised α} {handler : Flow α}
    (hx : Emits x acts (.error .exception)) (hhandler : Emits handler acts' result) :
    Emits (exceptException x handler) (acts ++ acts') result := by
  intro c
  rw [wp_exceptException]
  apply wp_mono (hx c)
  · rintro b c' ⟨hb, -⟩
    cases hb
  · rintro e c' ⟨he, hexits⟩
    obtain rfl := Except.error.inj he
    apply wp_mono (hhandler c') <;>
    · rintro _ c'' ⟨hresult, hexits'⟩
      exact ⟨hresult, by rw [hexits', hexits, List.append_assoc]⟩

theorem exceptException_taskCancelled {handler : Flow α}
    (hx : Emits x acts (.error .taskCancelled)) :
    Emits (exceptException x handler) acts (.error .taskCancelled) := by
  intro c
  rw [wp_exceptException]
  apply wp_mono (hx c)
  · rintro b c' ⟨hb, -⟩
    cases hb
  · rintro e c' ⟨he, hexits⟩
    obtain rfl := Except.error.inj he
    exact ⟨rfl, hexits⟩

end Emits

theorem emits_hear (ids : List ℤ) : Emits (hear ids) [] (.ok ()) := by
  intro c
  simp

theorem emits_runIf (p : Bool) {x : Flow Unit} (h : Emits x [] (.ok ())) :
    Emits (runIf p x) [] (.ok ()) := by
  cases p with
  | false => exact Emits.pure ()
  | true => exact h

theorem emits_await {α : Type} (r : Reply α) : Emits (await r) [] r.value := by
  intro c
  rw [wp_await]
  cases r.value <;> simp

theorem emits_writeTxn (event : TransactionEvent) : Emits (writeTxn event) [] (.ok ()) := by
  intro c
  simp

theorem emits_updatePnl (commission : ℚ) : Emits (updatePnl commission) [] (.ok ()) := by
  intro c
  simp

theorem emits_closeGroup : Emits closeGroup [] (.ok ()) := by
  intro c
  simp [closeGroup]

theorem emits_writeCancelled (o : OrderContext) (ibOrderId : ℤ) :
    Emits (writeCancelled o ibOrderId) [] (.ok ()) := by
  intro c
  simp [writeCancelled]

theorem emits_alert (leg : ProtectiveLeg) (trigger : String) :
    Emits (alert leg trigger) [.alert leg trigger] (.ok ()) := by
  intro c
  simp

theorem emits_failExit {α : Type} (order : ExitOrder) (e : Raised) :
    Emits (failExit order e : Flow α) [.failed order] (.error e) := by
  intro c
  simp [failExit]

theorem emits_placeExit_ok {order : ExitOrder} {r : Reply ℤ} {id : ℤ} (h : r.value = .ok id) :
    Emits (placeExit order r) [.placed order id] (.ok id) := by
  intro c
  rw [wp_placeExit, h]
  exact ⟨rfl, rfl⟩

theorem emits_placeExit_error {order : ExitOrder} {r : Reply ℤ} {e : Raised}
    (h : r.value = .error e) : Emits (placeExit order r) [.failed order] (.error e) := by
  intro c
  rw [wp_placeExit, h]
  exact ⟨rfl, rfl⟩

theorem emits_sendExit_ok {o : OrderContext} {legType : LegType} {order : ExitOrder} {r : Reply ℤ}
    {id : ℤ} (h : r.value = .ok id) :
    Emits (sendExit o legType order r) [.placed order id] (.ok ()) :=
  (emits_writeTxn _).silent_bind ((emits_placeExit_ok h).bind_silent (emits_writeTxn _))

theorem emits_sendExit_error {o : OrderContext} {legType : LegType} {order : ExitOrder}
    {r : Reply ℤ} {e : Raised} (h : r.value = .error e) :
    Emits (sendExit o legType order r) [.failed order] (.error e) :=
  (emits_writeTxn _).silent_bind (emits_placeExit_error h).bind_error

-- ============================================================================
-- The three legs
-- ============================================================================

/-- The profit taker has a price and IB takes the order. -/
def ProfitTakerPlaced (o : OrderContext) (cmd : Command) (avgPrice : Option ℚ) (qtyFilled : ℚ)
    (r : Reply ℤ) : Prop :=
  (∃ price, profitTakerPrice o cmd avgPrice qtyFilled = .ok (some price)) ∧ ∃ id, r.value = .ok id

/-- The command is not interrupted while it sends a stop. -/
def StopLossSettled (o : OrderContext) (stopPrice : ℚ) (avgPrice : Option ℚ) (r : Reply ℤ) : Prop :=
  ∀ avg, avgPrice = some avg → ¬wrongSide o.side stopPrice avg → r.value ≠ .error .taskCancelled

/-- No placement raises past the next: the profit taker and the trailing stop are
    placed, the stop fails by an exception at most. -/
structure ExitsSettled (o : OrderContext) (cmd : Command) (a : Replies) (qtyFilled : ℚ)
    (avgPrice : Option ℚ) : Prop where
  profitTaker : cmd.hasProfit = true → ProfitTakerPlaced o cmd avgPrice qtyFilled a.profitTaker
  trailingStop : cmd.hasTrail = true → ∃ id, a.trailingStop.value = .ok id
  stopLoss : ∀ stopPrice, cmd.stopLoss = some stopPrice →
    StopLossSettled o stopPrice avgPrice a.stopLoss

/-- Every attempt among the acts has the size and group asked for and an alert if it
    came to nothing. -/
structure Accounted (o : OrderContext) (qty : ℚ) (oca : Option String) (acts : List ExitAct) :
    Prop where
  sized : ∀ order, Attempted acts order → order.side = o.side.opposite ∧ order.qty = qty
  alerted : ∀ order : ExitOrder, .failed order ∈ acts ∨ .refused order ∈ acts →
    ∃ trigger, .alert order.leg trigger ∈ acts
  grouped : ∀ order id, .placed order id ∈ acts → order.ocaGroup = oca

/-- The acts about a leg are those of one attempt. -/
structure LegCovered (o : OrderContext) (qty : ℚ) (oca : Option String) (leg : ProtectiveLeg)
    (acts : List ExitAct) : Prop extends Accounted o qty oca acts where
  attempted : ∃ order : ExitOrder, order.leg = leg ∧ Attempted acts order
  alertsOwn : ∀ other trigger, .alert other trigger ∈ acts → other = leg

/-- The acts about a leg that the command asks for, or does not. -/
def Part (o : OrderContext) (qty : ℚ) (oca : Option String) (asked : Bool) (leg : ProtectiveLeg)
    (acts : List ExitAct) : Prop :=
  if asked then LegCovered o qty oca leg acts else acts = []

/-- An attempt of the leg has failed without an alert. -/
def Uncovered (leg : ProtectiveLeg) (acts : List ExitAct) : Prop :=
  ∃ order : ExitOrder, order.leg = leg ∧ .failed order ∈ acts ∧ ∀ trigger, .alert leg trigger ∉ acts

theorem Uncovered.not_protected {leg : ProtectiveLeg} {acts : List ExitAct}
    (h : Uncovered leg acts) {o : OrderContext} {cmd : Command} {q : ℚ} :
    ¬Protected o cmd q acts := by
  obtain ⟨order, rfl, hfailed, hnone⟩ := h
  intro hprotected
  obtain ⟨trigger, halert⟩ := hprotected.alerted order (.inl hfailed)
  exact hnone trigger halert

section Legs

variable {o : OrderContext} {cmd : Command} {a : Replies} {qty : ℚ} {avgPrice : Option ℚ}
  {oca : Option String} {leg : ProtectiveLeg} {price : Option ℚ}

theorem legCovered_placed (id : ℤ) :
    LegCovered o qty oca leg [.placed (exitOrder o leg qty price oca) id] where
  alertsOwn other trigger h := by simp at h
  attempted := ⟨exitOrder o leg qty price oca, rfl, .inl ⟨id, List.mem_singleton.mpr rfl⟩⟩
  sized order h := by
    simp only [Attempted, List.mem_singleton, ExitAct.placed.injEq, reduceCtorEq, or_false] at h
    obtain ⟨_, rfl, -⟩ := h
    exact ⟨rfl, rfl⟩
  alerted order h := by simp at h
  grouped order id' h := by
    simp only [List.mem_singleton, ExitAct.placed.injEq] at h
    obtain ⟨rfl, -⟩ := h
    rfl

/-- An attempt that places nothing is covered by its alert. -/
theorem legCovered_alerted {act : ExitAct}
    (hact : act = .failed (exitOrder o leg qty price oca) ∨
      act = .refused (exitOrder o leg qty price oca)) (trigger : String) :
    LegCovered o qty oca leg [act, .alert leg trigger] where
  alertsOwn other trigger' h := by
    have halert : .alert other trigger' = act ∨ other = leg ∧ trigger' = trigger := by simpa using h
    rcases halert with rfl | ⟨hleg, -⟩
    · rcases hact with hact | hact <;> cases hact
    · exact hleg
  attempted := by
    refine ⟨exitOrder o leg qty price oca, rfl, ?_⟩
    rcases hact with rfl | rfl
    · exact .inr (.inl List.mem_cons_self)
    · exact .inr (.inr List.mem_cons_self)
  sized order h := by
    obtain rfl : order = exitOrder o leg qty price oca := by
      rcases hact with rfl | rfl <;> simpa [Attempted] using h
    exact ⟨rfl, rfl⟩
  alerted order h := by
    obtain rfl : order = exitOrder o leg qty price oca := by
      rcases hact with rfl | rfl <;> simpa using h
    exact ⟨trigger, by simp [exitOrder]⟩
  grouped order id h := by rcases hact with rfl | rfl <;> simp at h

theorem profitTakerPrice_ne_none (h : cmd.hasProfit = true) :
    profitTakerPrice o cmd avgPrice qty ≠ .ok none := by
  unfold profitTakerPrice
  split
  · simp
  · split
    · simp
    · dsimp only
      split
      · simp
      · split <;> simp
  · simp_all [Command.hasProfit, truthy]

theorem emits_profitTaker_placed (h : ProfitTakerPlaced o cmd avgPrice qty a.profitTaker) :
    ∃ price id, Emits (placeProfitTaker o cmd avgPrice qty oca a.profitTaker)
      [.placed (exitOrder o .profitTaker qty price oca) id] (.ok ()) := by
  obtain ⟨⟨price, hprice⟩, id, hid⟩ := h
  refine ⟨some price, id, ?_⟩
  unfold placeProfitTaker
  rw [hprice]
  exact emits_sendExit_ok hid

theorem emits_profitTaker_failed (oca : Option String) (hprofit : cmd.hasProfit = true)
    (h : ¬ProfitTakerPlaced o cmd avgPrice qty a.profitTaker) :
    ∃ price e, Emits (placeProfitTaker o cmd avgPrice qty oca a.profitTaker)
      [.failed (exitOrder o .profitTaker qty price oca)] (.error e) := by
  unfold placeProfitTaker
  split
  case h_1 e _ => exact ⟨none, e, emits_failExit _ e⟩
  case h_2 hnone => exact absurd hnone (profitTakerPrice_ne_none hprofit)
  case h_3 price hprice =>
    cases hr : a.profitTaker.value with
    | ok id => exact absurd ⟨⟨price, hprice⟩, id, hr⟩ h
    | error e =>
      exact ⟨some price, e, emits_sendExit_error hr⟩

theorem emits_trailingStop_placed {id : ℤ} (h : a.trailingStop.value = .ok id) :
    Emits (placeTrailingStop o qty oca a.trailingStop)
      [.placed (exitOrder o .trailingStop qty none oca) id] (.ok ()) :=
  ((emits_placeExit_ok h).bind_silent (Emits.pure ())).exceptException_ok

theorem emits_trailingStop_failed (o : OrderContext) (qty : ℚ) (oca : Option String)
    (h : ¬∃ id, a.trailingStop.value = .ok id) :
    ∃ result, Emits (placeTrailingStop o qty oca a.trailingStop)
      [.failed (exitOrder o .trailingStop qty none oca)] result := by
  unfold placeTrailingStop
  cases hr : a.trailingStop.value with
  | ok id => exact absurd ⟨id, hr⟩ h
  | error e =>
    cases e with
    | exception =>
      exact ⟨_, (emits_placeExit_error hr).bind_error.exceptException_exception (Emits.pure ())⟩
    | taskCancelled =>
      exact ⟨_, (emits_placeExit_error hr).bind_error.exceptException_taskCancelled⟩

/-- The stop-loss section of `_handle_fill`. -/
def stopLossSection (o : OrderContext) (stopPrice : ℚ) (avgPrice : Option ℚ) (qty : ℚ)
    (oca : Option String) (r : Reply ℤ) : Flow Unit :=
  exceptException (placeStopLoss o stopPrice avgPrice qty oca r)
    (alert .stopLoss "STOP_LOSS_PLACE_FAILED")

theorem emits_stopLoss_settled {stopPrice : ℚ}
    (h : StopLossSettled o stopPrice avgPrice a.stopLoss) :
    ∃ acts, Emits (stopLossSection o stopPrice avgPrice qty oca a.stopLoss) acts (.ok ()) ∧
      LegCovered o qty oca .stopLoss acts := by
  unfold stopLossSection placeStopLoss
  cases avgPrice with
  | none =>
    exact ⟨_, (emits_failExit _ _).exceptException_exception (emits_alert _ _),
      legCovered_alerted (.inl rfl) _⟩
  | some avg =>
    dsimp only
    split
    case isTrue =>
      have hrefused : Emits (modify fun c : Ctx =>
          { c with exits := c.exits ++ [.refused (exitOrder o .stopLoss qty (some stopPrice) oca)] })
          [.refused (exitOrder o .stopLoss qty (some stopPrice) oca)] (.ok ()) :=
        fun c => ⟨rfl, rfl⟩
      exact ⟨_, (hrefused.bind (emits_alert _ _)).exceptException_ok,
        legCovered_alerted (.inr rfl) _⟩
    case isFalse hside =>
      cases hr : a.stopLoss.value with
      | ok id =>
        exact ⟨_, (emits_sendExit_ok hr).exceptException_ok, legCovered_placed id⟩
      | error e =>
        cases e with
        | exception =>
          exact ⟨_, (emits_sendExit_error hr).exceptException_exception (emits_alert _ _),
            legCovered_alerted (.inl rfl) _⟩
        | taskCancelled => exact absurd hr (h avg rfl hside)

theorem emits_stopLoss_interrupted {stopPrice : ℚ}
    (h : ¬StopLossSettled o stopPrice avgPrice a.stopLoss) :
    Emits (stopLossSection o stopPrice avgPrice qty oca a.stopLoss)
      [.failed (exitOrder o .stopLoss qty (some stopPrice) oca)] (.error .taskCancelled) := by
  unfold StopLossSettled at h
  push Not at h
  obtain ⟨avg, rfl, hside, hr⟩ := h
  unfold stopLossSection placeStopLoss
  dsimp only
  rw [if_neg hside]
  exact (emits_sendExit_error hr).exceptException_taskCancelled

end Legs

-- ============================================================================
-- The legs together
-- ============================================================================

theorem attempted_append (acts more : List ExitAct) (order : ExitOrder) :
    Attempted (acts ++ more) order ↔ Attempted acts order ∨ Attempted more order := by
  simp only [Attempted, List.mem_append, exists_or]
  tauto

section Together

variable {o : OrderContext} {cmd : Command} {a : Replies} {qty q : ℚ} {avgPrice : Option ℚ}
  {oca : Option String} {leg : ProtectiveLeg} {acts more : List ExitAct}

theorem Accounted.nil : Accounted o qty oca [] where
  sized order h := by simp [Attempted] at h
  alerted order h := by simp at h
  grouped order id h := by simp at h

theorem Accounted.append (h : Accounted o qty oca acts) (h' : Accounted o qty oca more) :
    Accounted o qty oca (acts ++ more) where
  sized order horder := by
    rw [attempted_append] at horder
    exact horder.elim (h.sized order) (h'.sized order)
  alerted order horder := by
    simp only [List.mem_append] at horder ⊢
    have hone : (.failed order ∈ acts ∨ .refused order ∈ acts) ∨
        (.failed order ∈ more ∨ .refused order ∈ more) := by tauto
    obtain hone | hone := hone
    · obtain ⟨trigger, halert⟩ := h.alerted order hone
      exact ⟨trigger, .inl halert⟩
    · obtain ⟨trigger, halert⟩ := h'.alerted order hone
      exact ⟨trigger, .inr halert⟩
  grouped order id horder :=
    (List.mem_append.mp horder).elim (h.grouped order id) (h'.grouped order id)

theorem Part.accounted {asked : Bool} (h : Part o qty oca asked leg acts) :
    Accounted o qty oca acts := by
  cases asked with
  | false =>
    obtain rfl : acts = [] := h
    exact Accounted.nil
  | true => exact LegCovered.toAccounted h

theorem Part.attempted {asked : Bool} (h : Part o qty oca asked leg acts) (hasked : asked = true) :
    ∃ order : ExitOrder, order.leg = leg ∧ Attempted acts order := by
  subst hasked
  exact LegCovered.attempted h

/-- A leg raises no alert about another. -/
theorem Part.not_mem_alert {asked : Bool} (h : Part o qty oca asked leg acts)
    (other : ProtectiveLeg) (hother : other ≠ leg) (trigger : String) :
    .alert other trigger ∉ acts := by
  intro hmem
  cases asked with
  | false =>
    obtain rfl : acts = [] := h
    cases hmem
  | true => exact hother (LegCovered.alertsOwn h other trigger hmem)

/-- The acts of the legs, one after the other. -/
structure Parts (o : OrderContext) (cmd : Command) (qty : ℚ) (p t s : List ExitAct) : Prop where
  profitTaker : Part o qty (ocaGroup o cmd) cmd.hasProfit .profitTaker p
  trailingStop : Part o qty (ocaGroup o cmd) cmd.hasTrail .trailingStop t
  stopLoss : Part o qty (ocaGroup o cmd) cmd.hasStop .stopLoss s

variable {p t s : List ExitAct}

theorem Parts.accounted (h : Parts o cmd qty p t s) :
    Accounted o qty (ocaGroup o cmd) (p ++ (t ++ s)) :=
  h.profitTaker.accounted.append (h.trailingStop.accounted.append h.stopLoss.accounted)

theorem mem_requested :
    leg ∈ cmd.requested ↔ (leg = .profitTaker ∧ cmd.hasProfit = true) ∨
      (leg = .trailingStop ∧ cmd.hasTrail = true) ∨ (leg = .stopLoss ∧ cmd.hasStop = true) := by
  unfold Command.requested
  simp only [List.mem_append]
  cases cmd.hasProfit <;> cases cmd.hasTrail <;> cases cmd.hasStop <;> simp

theorem requested_eq_nil :
    cmd.requested = [] ↔ cmd.hasProfit = false ∧ cmd.hasTrail = false ∧ cmd.hasStop = false := by
  unfold Command.requested
  cases cmd.hasProfit <;> cases cmd.hasTrail <;> cases cmd.hasStop <;> simp

theorem Parts.eq_nil (h : Parts o cmd qty p t s) (hreq : cmd.requested = []) :
    p ++ (t ++ s) = [] := by
  obtain ⟨hp, ht, hs⟩ := h
  obtain ⟨hprofit, htrail, hstop⟩ := requested_eq_nil.mp hreq
  rw [hprofit] at hp
  rw [htrail] at ht
  rw [hstop] at hs
  obtain rfl : p = [] := hp
  obtain rfl : t = [] := ht
  obtain rfl : s = [] := hs
  rfl

theorem exitsSettled_of_requested (hreq : cmd.requested = []) :
    ExitsSettled o cmd a qty avgPrice := by
  obtain ⟨hprofit, htrail, hstop⟩ := requested_eq_nil.mp hreq
  refine ⟨by simp [hprofit], by simp [htrail], fun stopPrice hasked => ?_⟩
  simp [Command.hasStop, hasked] at hstop

theorem Parts.attempted (h : Parts o cmd qty p t s) (hleg : leg ∈ cmd.requested) :
    ∃ order : ExitOrder, order.leg = leg ∧ Attempted (p ++ (t ++ s)) order := by
  simp only [attempted_append]
  obtain ⟨rfl, hasked⟩ | ⟨rfl, hasked⟩ | ⟨rfl, hasked⟩ := mem_requested.mp hleg
  · obtain ⟨order, horder, hattempt⟩ := h.profitTaker.attempted hasked
    exact ⟨order, horder, .inl hattempt⟩
  · obtain ⟨order, horder, hattempt⟩ := h.trailingStop.attempted hasked
    exact ⟨order, horder, .inr (.inl hattempt)⟩
  · obtain ⟨order, horder, hattempt⟩ := h.stopLoss.attempted hasked
    exact ⟨order, horder, .inr (.inr hattempt)⟩

theorem protected_of_parts (h : Parts o cmd qty p t s) : Protected o cmd qty (p ++ (t ++ s)) where
  attempted leg hleg := by
    obtain ⟨order, horder, hattempt⟩ := h.attempted hleg
    obtain ⟨hside, hqty⟩ := h.accounted.sized order hattempt
    exact ⟨order, horder, hside, hqty, hattempt⟩
  alerted := h.accounted.alerted
  oneGroup htwo := by
    refine ⟨s!"trade_{o.tradeSerial}_exit", fun order id hplaced => ?_⟩
    rw [h.accounted.grouped order id hplaced, ocaGroup, if_pos htwo]

/-- The quantity protected is the quantity of the attempts. -/
theorem Protected.qty_eq (h : Protected o cmd q acts) (hacts : Accounted o qty oca acts)
    (hreq : cmd.requested ≠ []) : qty = q := by
  obtain ⟨leg, hleg⟩ := List.exists_mem_of_ne_nil _ hreq
  obtain ⟨order, -, -, hq, hattempt⟩ := h.attempted leg hleg
  rw [← hq, (hacts.sized order hattempt).2]

theorem emits_profitTaker_part (oca : Option String)
    (h : cmd.hasProfit = true → ProfitTakerPlaced o cmd avgPrice qty a.profitTaker) :
    ∃ acts, Emits (runIf cmd.hasProfit (placeProfitTaker o cmd avgPrice qty oca a.profitTaker)) acts
      (.ok ()) ∧ Part o qty oca cmd.hasProfit .profitTaker acts := by
  cases hasked : cmd.hasProfit with
  | false => exact ⟨[], Emits.pure (), rfl⟩
  | true =>
    obtain ⟨price, id, hemits⟩ := emits_profitTaker_placed (h hasked)
    exact ⟨_, hemits, legCovered_placed id⟩

theorem emits_trailingStop_part (o : OrderContext) (qty : ℚ) (oca : Option String)
    (h : cmd.hasTrail = true → ∃ id, a.trailingStop.value = .ok id) :
    ∃ acts, Emits (runIf cmd.hasTrail (placeTrailingStop o qty oca a.trailingStop)) acts (.ok ()) ∧
      Part o qty oca cmd.hasTrail .trailingStop acts := by
  cases hasked : cmd.hasTrail with
  | false => exact ⟨[], Emits.pure (), rfl⟩
  | true =>
    obtain ⟨id, hid⟩ := h hasked
    exact ⟨_, emits_trailingStop_placed hid, legCovered_placed id⟩

/-- The stop-loss section, if the command has a stop. -/
def stopLossPart (o : OrderContext) (cmd : Command) (a : Replies) (qty : ℚ) (avgPrice : Option ℚ)
    (oca : Option String) : Flow Unit :=
  match cmd.stopLoss with
  | none => pure ()
  | some stopPrice => stopLossSection o stopPrice avgPrice qty oca a.stopLoss

theorem placeExits_eq : placeExits o cmd a qty avgPrice =
    (do
      runIf cmd.hasProfit (placeProfitTaker o cmd avgPrice qty (ocaGroup o cmd) a.profitTaker)
      runIf cmd.hasTrail (placeTrailingStop o qty (ocaGroup o cmd) a.trailingStop)
      stopLossPart o cmd a qty avgPrice (ocaGroup o cmd)) := rfl

theorem emits_stopLoss_part (qty : ℚ) (oca : Option String)
    (h : ∀ stopPrice, cmd.stopLoss = some stopPrice →
      StopLossSettled o stopPrice avgPrice a.stopLoss) :
    ∃ acts, Emits (stopLossPart o cmd a qty avgPrice oca) acts (.ok ()) ∧
      Part o qty oca cmd.hasStop .stopLoss acts := by
  unfold stopLossPart Command.hasStop
  cases hstop : cmd.stopLoss with
  | none => exact ⟨[], Emits.pure (), rfl⟩
  | some stopPrice => exact emits_stopLoss_settled (h stopPrice hstop)

theorem emits_placeExits_settled (h : ExitsSettled o cmd a qty avgPrice) :
    ∃ p t s, Emits (placeExits o cmd a qty avgPrice) (p ++ (t ++ s)) (.ok ()) ∧
      Parts o cmd qty p t s := by
  obtain ⟨p, hp, hpart⟩ := emits_profitTaker_part (ocaGroup o cmd) h.profitTaker
  obtain ⟨t, ht, htpart⟩ := emits_trailingStop_part o qty (ocaGroup o cmd) h.trailingStop
  obtain ⟨s, hs, hspart⟩ := emits_stopLoss_part qty (ocaGroup o cmd) h.stopLoss
  exact ⟨p, t, s, hp.bind (ht.bind hs), hpart, htpart, hspart⟩

theorem emits_stopLossPart_interrupted (qty : ℚ) (oca : Option String) {stopPrice : ℚ}
    (hstop : cmd.stopLoss = some stopPrice)
    (h : ¬StopLossSettled o stopPrice avgPrice a.stopLoss) :
    Emits (stopLossPart o cmd a qty avgPrice oca)
      [.failed (exitOrder o .stopLoss qty (some stopPrice) oca)] (.error .taskCancelled) := by
  unfold stopLossPart
  rw [hstop]
  exact emits_stopLoss_interrupted h

/-- Whatever becomes of the stop loss, it raises no alert about another leg. -/
theorem exists_emits_stopLossPart (o : OrderContext) (cmd : Command) (a : Replies) (qty : ℚ)
    (avgPrice : Option ℚ) (oca : Option String) :
    ∃ acts result, Emits (stopLossPart o cmd a qty avgPrice oca) acts result ∧
      ∀ other trigger, .alert other trigger ∈ acts → other = .stopLoss := by
  by_cases h : ∀ stopPrice, cmd.stopLoss = some stopPrice →
      StopLossSettled o stopPrice avgPrice a.stopLoss
  · obtain ⟨acts, hacts, hpart⟩ := emits_stopLoss_part qty oca h
    refine ⟨acts, _, hacts, fun other trigger hmem => ?_⟩
    by_contra hother
    exact hpart.not_mem_alert other hother trigger hmem
  · push Not at h
    obtain ⟨stopPrice, hstop, hinterrupted⟩ := h
    exact ⟨_, _, emits_stopLossPart_interrupted qty oca hstop hinterrupted, by simp⟩

theorem emits_placeExits_unsettled (h : ¬ExitsSettled o cmd a qty avgPrice) :
    ∃ acts result leg, Emits (placeExits o cmd a qty avgPrice) acts result ∧
      Uncovered leg acts := by
  rw [placeExits_eq]
  by_cases hprofit : cmd.hasProfit = true → ProfitTakerPlaced o cmd avgPrice qty a.profitTaker
  · obtain ⟨p, hp, hpart⟩ := emits_profitTaker_part (ocaGroup o cmd) hprofit
    by_cases htrail : cmd.hasTrail = true → ∃ id, a.trailingStop.value = .ok id
    · -- the stop loss is interrupted
      obtain ⟨t, ht, htpart⟩ := emits_trailingStop_part o qty (ocaGroup o cmd) htrail
      have hstop : ¬∀ stopPrice, cmd.stopLoss = some stopPrice →
          StopLossSettled o stopPrice avgPrice a.stopLoss :=
        fun hstop => h ⟨hprofit, htrail, hstop⟩
      push Not at hstop
      obtain ⟨stopPrice, hasked, hinterrupted⟩ := hstop
      have hs := emits_stopLossPart_interrupted qty (ocaGroup o cmd) hasked hinterrupted
      refine ⟨_, _, .stopLoss, hp.bind (ht.bind hs), exitOrder o .stopLoss qty (some stopPrice)
        (ocaGroup o cmd), rfl, by simp, ?_⟩
      have hp' := hpart.not_mem_alert .stopLoss (by decide)
      have ht' := htpart.not_mem_alert .stopLoss (by decide)
      simp [hp', ht']
    · -- the trailing stop fails
      push Not at htrail
      obtain ⟨hasked, hfailed⟩ := htrail
      obtain ⟨result, ht⟩ := emits_trailingStop_failed o qty (ocaGroup o cmd)
        (fun ⟨id, hid⟩ => hfailed id hid)
      have hp' := hpart.not_mem_alert .trailingStop (by decide)
      rw [hasked]
      cases result with
      | error e =>
        refine ⟨_, _, .trailingStop, hp.bind ht.bind_error, exitOrder o .trailingStop qty none
          (ocaGroup o cmd), rfl, by simp, ?_⟩
        simp [hp']
      | ok u =>
        obtain ⟨s, result, hs, halerts⟩ :=
          exists_emits_stopLossPart o cmd a qty avgPrice (ocaGroup o cmd)
        refine ⟨_, _, .trailingStop, hp.bind (ht.bind hs), exitOrder o .trailingStop qty none
          (ocaGroup o cmd), rfl, by simp, ?_⟩
        intro trigger hmem
        simp only [List.mem_append, hp', List.mem_singleton, reduceCtorEq, false_or] at hmem
        exact absurd (halerts _ _ hmem) (by decide)
  · -- the profit taker fails
    push Not at hprofit
    obtain ⟨hasked, hfailed⟩ := hprofit
    obtain ⟨price, e, hp⟩ := emits_profitTaker_failed (ocaGroup o cmd) hasked hfailed
    rw [hasked]
    exact ⟨_, _, .profitTaker, hp.bind_error, exitOrder o .profitTaker qty price (ocaGroup o cmd),
      rfl, List.mem_singleton.mpr rfl, by simp⟩

end Together

-- ============================================================================
-- The handlers
-- ============================================================================

/-- The acts of the computation protect the quantity when nothing is asked for, or
    when `P` holds. -/
def Protects {α : Type} (o : OrderContext) (cmd : Command) (q : ℚ) (x : Flow α) (P : Prop) : Prop :=
  ∃ acts result, Emits x acts result ∧ (Protected o cmd q acts ↔ cmd.requested = [] ∨ P)

section Handlers

variable {o : OrderContext} {cmd : Command} {a : Replies} {q : ℚ} {α β : Type} {x : Flow α}
  {f : α → Flow β} {P P' : Prop}

theorem protected_nil_iff : Protected o cmd q [] ↔ cmd.requested = [] := by
  constructor
  · intro h
    by_contra hreq
    obtain ⟨leg, hleg⟩ := List.exists_mem_of_ne_nil _ hreq
    obtain ⟨order, -, -, -, hattempt⟩ := h.attempted leg hleg
    simp [Attempted] at hattempt
  · intro hreq
    exact ⟨by simp [hreq], by simp, by simp [hreq]⟩

theorem Protects.congr (h : Protects o cmd q x P) (hiff : P ↔ P') : Protects o cmd q x P' := by
  rwa [← hiff]

/-- Without an act only a command that asks for nothing is served. -/
theorem protects_of_silent {result : Except Raised α} (h : Emits x [] result) :
    Protects o cmd q x False :=
  ⟨[], result, h, by rw [protected_nil_iff, or_false]⟩

theorem Protects.silent_bind {b : α} (hx : Emits x [] (.ok b)) (hf : Protects o cmd q (f b) P) :
    Protects o cmd q (x >>= f) P := by
  obtain ⟨acts, result, hemits, hiff⟩ := hf
  exact ⟨acts, result, hx.silent_bind hemits, hiff⟩

theorem protects_of_silent_error {e : Raised} (hx : Emits x [] (.error e)) :
    Protects o cmd q (x >>= f) False :=
  protects_of_silent hx.bind_error

/-- What is raised after the acts changes nothing. -/
theorem Protects.then_throw {e : Raised} (h : Protects o cmd q x P) :
    Protects o cmd q (x >>= fun _ => (throw e : Flow β)) P := by
  obtain ⟨acts, result, hemits, hiff⟩ := h
  cases result with
  | ok b => exact ⟨acts, _, hemits.bind_silent (Emits.throw e), hiff⟩
  | error e' => exact ⟨acts, _, hemits.bind_error, hiff⟩

theorem protects_placeExits (o : OrderContext) (cmd : Command) (a : Replies) (q qty : ℚ)
    (avgPrice : Option ℚ) :
    Protects o cmd q (placeExits o cmd a qty avgPrice)
      (qty = q ∧ ExitsSettled o cmd a qty avgPrice) := by
  by_cases h : ExitsSettled o cmd a qty avgPrice
  · obtain ⟨p, t, s, hemits, hparts⟩ := emits_placeExits_settled h
    refine ⟨_, _, hemits, ?_⟩
    by_cases hreq : cmd.requested = []
    · rw [hparts.eq_nil hreq, protected_nil_iff]
      simp [hreq]
    · simp only [hreq, false_or]
      constructor
      · exact fun hprotected => ⟨hprotected.qty_eq hparts.accounted hreq, h⟩
      · rintro ⟨rfl, -⟩
        exact protected_of_parts hparts
  · obtain ⟨acts, result, leg, hemits, huncovered⟩ := emits_placeExits_unsettled h
    refine ⟨_, _, hemits, iff_of_false huncovered.not_protected ?_⟩
    rintro (hreq | hsettled)
    · exact h (exitsSettled_of_requested hreq)
    · exact h hsettled.2

end Handlers

/-- The console P&L is computed without an exception. -/
def PnlDisclosed (o : OrderContext) (avgPrice : Option ℚ) (r : Reply Unit) : Prop :=
  ∀ preQty preAvg, o.prePosition = some (preQty, preAvg) →
    ¬(preQty = 0 ∨ (0 < preQty ↔ o.side = .buy)) →
    ∃ avg, avgPrice = some avg ∧ (¬(avg ≠ 0 ∧ 1 / 2 < |avg - preAvg| / avg) → r.value = .ok ())

/-- `_handle_fill` comes to its protective orders. -/
structure FillDisclosed (o : OrderContext) (cmd : Command) (a : Replies) (avgPrice : Option ℚ) :
    Prop where
  notional : o.isFut = true → avgPrice ≠ none
  pnl : cmd.hasBotRef = false → PnlDisclosed o avgPrice a.recordPnl

/-- A full fill of `qtyFilled` protects `q`. -/
structure FillProtects (o : OrderContext) (cmd : Command) (a : Replies) (q qtyFilled : ℚ)
    (avgPrice : Option ℚ) : Prop where
  qty_eq : qtyFilled = q
  disclosed : FillDisclosed o cmd a avgPrice
  settled : ExitsSettled o cmd a qtyFilled avgPrice

section Handlers

variable {o : OrderContext} {cmd : Command} {a : Replies} {q : ℚ} {avgPrice : Option ℚ}

theorem emits_pnl_disclosed {r : Reply Unit} (h : PnlDisclosed o avgPrice r) :
    Emits (emitConsoleClosePnl o avgPrice r) [] (.ok ()) := by
  unfold emitConsoleClosePnl
  split
  case h_1 => exact Emits.pure ()
  case h_2 preQty preAvg hpre =>
    split
    case isTrue => exact Emits.pure ()
    case isFalse hopposite =>
      obtain ⟨avg, rfl, hrecorded⟩ := h preQty preAvg hpre hopposite
      dsimp only
      split
      case isTrue => exact Emits.pure ()
      case isFalse hsane =>
        have hemits := emits_await r
        rwa [hrecorded hsane] at hemits

theorem emits_pnl_raised {r : Reply Unit} (h : ¬PnlDisclosed o avgPrice r) :
    ∃ e, Emits (emitConsoleClosePnl o avgPrice r) [] (.error e) := by
  unfold PnlDisclosed at h
  simp only [not_forall] at h
  obtain ⟨preQty, preAvg, hpre, hopposite, hprice⟩ := h
  unfold emitConsoleClosePnl
  rw [hpre]
  dsimp only
  rw [if_neg hopposite]
  cases avgPrice with
  | none => exact ⟨.exception, Emits.throw _⟩
  | some avg =>
    push Not at hprice
    obtain ⟨hsane, hr⟩ := hprice avg rfl
    dsimp only
    rw [if_neg (fun hwild => absurd hwild.2 (not_lt.mpr (hsane hwild.1)))]
    cases hvalue : r.value with
    | ok u => exact absurd hvalue hr
    | error e =>
      have hemits := emits_await r
      rw [hvalue] at hemits
      exact ⟨e, hemits⟩

theorem protects_handleFill (o : OrderContext) (cmd : Command) (a : Replies) (q qtyFilled : ℚ)
    (avgPrice : Option ℚ) (commission : ℚ) :
    Protects o cmd q (handleFill o cmd a qtyFilled avgPrice commission)
      (FillProtects o cmd a q qtyFilled avgPrice) := by
  apply Protects.silent_bind (emits_updatePnl _)
  apply Protects.silent_bind (emits_writeTxn _)
  by_cases hfut : o.isFut = true → avgPrice ≠ none
  · have hrun : (o.isFut && avgPrice.isNone) = false := by
      cases hasked : o.isFut with
      | false => rfl
      | true =>
        have hpriced := hfut hasked
        cases avgPrice with
        | none => exact absurd rfl hpriced
        | some avg => rfl
    rw [hrun]
    apply Protects.silent_bind (Emits.pure ())
    by_cases hpnl : cmd.hasBotRef = false → PnlDisclosed o avgPrice a.recordPnl
    · have hsilent : Emits (runIf (!cmd.hasBotRef) (emitConsoleClosePnl o avgPrice a.recordPnl)) []
          (.ok ()) := by
        cases hbot : cmd.hasBotRef with
        | false => exact emits_pnl_disclosed (hpnl hbot)
        | true => exact Emits.pure ()
      apply Protects.silent_bind hsilent
      apply (protects_placeExits o cmd a q qtyFilled avgPrice).congr
      exact ⟨fun h => ⟨h.1, ⟨hfut, hpnl⟩, h.2⟩, fun h => ⟨h.qty_eq, h.settled⟩⟩
    · push Not at hpnl
      obtain ⟨hbot, hraised⟩ := hpnl
      obtain ⟨e, hemits⟩ := emits_pnl_raised hraised
      rw [hbot]
      apply (protects_of_silent_error hemits).congr
      exact iff_of_false not_false fun h => hraised (h.disclosed.pnl hbot)
  · push Not at hfut
    obtain ⟨hasked, rfl⟩ := hfut
    rw [hasked]
    apply (protects_of_silent_error (Emits.throw .exception)).congr
    exact iff_of_false not_false fun h => h.disclosed.notional hasked rfl

end Handlers

-- ============================================================================
-- Partial fills
-- ============================================================================

/-- The computation never touches the log. -/
def Silent {α : Type} (x : Flow α) : Prop := ∃ result, Emits x [] result

section Silent

variable {α β : Type} {x : Flow α} {f : α → Flow β}

theorem Silent.bind (hx : Silent x) (hf : ∀ a, Silent (f a)) : Silent (x >>= f) := by
  obtain ⟨result, hemits⟩ := hx
  cases result with
  | error e => exact ⟨_, hemits.bind_error⟩
  | ok b =>
    obtain ⟨result', hrest⟩ := hf b
    exact ⟨result', hemits.silent_bind hrest⟩

theorem Silent.runIf {y : Flow Unit} (p : Bool) (hy : Silent y) : Silent (runIf p y) := by
  cases p with
  | false => exact ⟨_, Emits.pure ()⟩
  | true => exact hy

theorem Silent.protects {o : OrderContext} {cmd : Command} {q : ℚ} (h : Silent x) :
    Protects o cmd q x False := by
  obtain ⟨result, hemits⟩ := h
  exact protects_of_silent hemits

theorem silent_throw (e : Raised) : Silent (throw e : Flow α) := ⟨_, Emits.throw e⟩

theorem silent_hear (ids : List ℤ) : Silent (hear ids) := ⟨_, emits_hear ids⟩

theorem silent_await (r : Reply α) : Silent (await r) := ⟨_, emits_await r⟩

theorem silent_writeTxn (event : TransactionEvent) : Silent (writeTxn event) :=
  ⟨_, emits_writeTxn event⟩

theorem silent_closeGroup : Silent closeGroup := ⟨_, emits_closeGroup⟩

theorem silent_writeCancelled (o : OrderContext) (ibOrderId : ℤ) :
    Silent (writeCancelled o ibOrderId) := ⟨_, emits_writeCancelled o ibOrderId⟩

theorem silent_emitConsoleClosePnl (o : OrderContext) (avgPrice : Option ℚ) (r : Reply Unit) :
    Silent (emitConsoleClosePnl o avgPrice r) := by
  by_cases h : PnlDisclosed o avgPrice r
  · exact ⟨_, emits_pnl_disclosed h⟩
  · obtain ⟨e, hemits⟩ := emits_pnl_raised h
    exact ⟨_, hemits⟩

end Silent

theorem emits_cancelAndAwaitResolution {ibOrderId : ℤ} {targetQty : ℚ} {r : Reply SettleReading}
    {reading : SettleReading} (h : r.value = .ok reading) :
    Emits (cancelAndAwaitResolution ibOrderId targetQty r) []
      (.ok (reading.settlement targetQty)) := by
  have hawait := emits_await r
  rw [h] at hawait
  have hheard := emits_runIf (decide ((reading.settlement targetQty).resolution ≠ .timeout))
    (emits_hear [ibOrderId])
  exact hawait.silent_bind (hheard.silent_bind (Emits.pure _))

theorem emits_cancelAndAwaitResolution_raised {ibOrderId : ℤ} {targetQty : ℚ}
    {r : Reply SettleReading} {e : Raised} (h : r.value = .error e) :
    Emits (cancelAndAwaitResolution ibOrderId targetQty r) [] (.error e) := by
  have hawait := emits_await r
  rw [h] at hawait
  exact hawait.bind_error

/-- The command is not interrupted while it asks IB about the rest of the order. -/
def RestSettled (a : Replies) (resolution : Resolution) : Prop :=
  resolution = .cancelled ∨ a.probe.value ≠ .error .taskCancelled

theorem emits_finalizePartialCancel (o : OrderContext) (ibOrderId : ℤ) {resolution : Resolution}
    {a : Replies} (h : RestSettled a resolution) :
    ∃ written, Emits (finalizePartialCancel o ibOrderId resolution a.probe) [] (.ok written) := by
  unfold finalizePartialCancel
  split
  case isTrue => exact ⟨_, (emits_writeCancelled o ibOrderId).silent_bind (Emits.pure true)⟩
  case isFalse hresolution =>
    have hprobe : ∃ stillOpen,
        Emits (exceptException (await a.probe) (pure none)) [] (.ok stillOpen) := by
      have hawait := emits_await a.probe
      cases hvalue : a.probe.value with
      | ok stillOpen =>
        rw [hvalue] at hawait
        exact ⟨stillOpen, hawait.exceptException_ok⟩
      | error e =>
        rw [hvalue] at hawait
        cases e with
        | exception => exact ⟨none, hawait.exceptException_exception (Emits.pure none)⟩
        | taskCancelled => exact absurd hvalue (h.resolve_left hresolution)
    obtain ⟨stillOpen, hemits⟩ := hprobe
    by_cases hgone : stillOpen = some false
    · refine ⟨true, hemits.silent_bind ?_⟩
      rw [if_pos hgone]
      exact (emits_hear _).silent_bind ((emits_writeCancelled o ibOrderId).silent_bind
        (Emits.pure true))
    · refine ⟨false, hemits.silent_bind ?_⟩
      rw [if_neg hgone]
      exact Emits.pure false

theorem emits_finalizePartialCancel_interrupted {o : OrderContext} {ibOrderId : ℤ}
    {resolution : Resolution} {a : Replies} (h : ¬RestSettled a resolution) :
    Emits (finalizePartialCancel o ibOrderId resolution a.probe) [] (.error .taskCancelled) := by
  unfold RestSettled at h
  push Not at h
  obtain ⟨hresolution, hvalue⟩ := h
  have hawait := emits_await a.probe
  rw [hvalue] at hawait
  unfold finalizePartialCancel
  rw [if_neg hresolution]
  exact hawait.exceptException_taskCancelled.bind_error

/-- A partial fill of `finalQty` protects `q`: only a profit taker is placed for it. -/
structure PartialProtects (o : OrderContext) (cmd : Command) (a : Replies) (q : ℚ)
    (resolution : Resolution) (finalQty : ℚ) (avgPrice : Option ℚ) : Prop where
  qty_eq : finalQty = q
  noTrail : cmd.hasTrail = false
  noStop : cmd.hasStop = false
  settled : RestSettled a resolution
  disclosed : 0 < finalQty → cmd.hasBotRef = false → PnlDisclosed o avgPrice a.recordPnl
  placed : ProfitTakerPlaced o cmd avgPrice finalQty a.profitTaker

/-- `_handle_partial` protects `q`. -/
def PartlyProtects (o : OrderContext) (cmd : Command) (a : Replies) (q qtyFilled : ℚ)
    (avgPrice : Option ℚ) : Prop :=
  ∃ reading, a.settle.value = .ok reading ∧
    let s := reading.settlement o.qtyRequested
    let finalQty := s.finalQty qtyFilled
    if s.resolution = .filled then FillProtects o cmd a q finalQty (effectiveAvg s qtyFilled avgPrice)
    else PartialProtects o cmd a q s.resolution finalQty (effectiveAvg s qtyFilled avgPrice)

section Handlers

variable {o : OrderContext} {cmd : Command} {a : Replies} {q : ℚ} {avgPrice : Option ℚ}

/-- What `_handle_partial` does once the rest of the order is settled. -/
def finishPartial (o : OrderContext) (cmd : Command) (a : Replies) (ibOrderId : ℤ) (s : Settlement)
    (finalQty : ℚ) (avgPrice : Option ℚ) (commission : ℚ) : Flow Unit := do
  recordPartial o a ibOrderId s finalQty avgPrice commission
  runIf (0 < finalQty && !cmd.hasBotRef) (emitConsoleClosePnl o avgPrice a.recordPnl)
  runIf cmd.hasProfit (placeProfitTaker o cmd avgPrice finalQty none a.profitTaker)

theorem handlePartial_eq (o : OrderContext) (cmd : Command) (a : Replies) (ibOrderId : ℤ)
    (qtyFilled : ℚ) (avgPrice : Option ℚ) (commission : ℚ) :
    handlePartial o cmd a ibOrderId qtyFilled avgPrice commission = (do
      writeTxn (entryRow o .cancelAttempt (some ibOrderId) o.qtyRequested)
      let s ← cancelAndAwaitResolution ibOrderId o.qtyRequested a.settle
      if s.resolution = .filled then
        handleFill o cmd a (s.finalQty qtyFilled) (effectiveAvg s qtyFilled avgPrice)
          (s.finalCommission commission)
      else
        finishPartial o cmd a ibOrderId s (s.finalQty qtyFilled) (effectiveAvg s qtyFilled avgPrice)
          (s.finalCommission commission)) := rfl

/-- A profit taker alone covers a command without a trailing stop and a stop loss. -/
theorem protected_profitTaker_iff {qty : ℚ} {price : Option ℚ} {id : ℤ}
    (hprofit : cmd.hasProfit = true) :
    Protected o cmd q [.placed (exitOrder o .profitTaker qty price none) id] ↔
      qty = q ∧ cmd.hasTrail = false ∧ cmd.hasStop = false := by
  constructor
  · intro h
    have honly : ∀ leg ∈ cmd.requested, leg = .profitTaker ∧ qty = q := by
      intro leg hleg
      obtain ⟨order, horder, -, hq, hattempt⟩ := h.attempted leg hleg
      simp only [Attempted, List.mem_singleton, ExitAct.placed.injEq, reduceCtorEq, or_false]
        at hattempt
      obtain ⟨_, rfl, -⟩ := hattempt
      exact ⟨horder.symm, hq⟩
    refine ⟨(honly _ (mem_requested.mpr (.inl ⟨rfl, hprofit⟩))).2, ?_, ?_⟩
    · by_contra htrail
      rw [Bool.not_eq_false] at htrail
      exact absurd (honly _ (mem_requested.mpr (.inr (.inl ⟨rfl, htrail⟩)))).1 (by decide)
    · by_contra hstop
      rw [Bool.not_eq_false] at hstop
      exact absurd (honly _ (mem_requested.mpr (.inr (.inr ⟨rfl, hstop⟩)))).1 (by decide)
  · rintro ⟨rfl, htrail, hstop⟩
    have hlegs : cmd.requested = [.profitTaker] := by
      simp [Command.requested, hprofit, htrail, hstop]
    have hcovered : LegCovered o qty none .profitTaker
        [.placed (exitOrder o .profitTaker qty price none) id] := legCovered_placed id
    refine ⟨fun leg hleg => ?_, hcovered.alerted, by simp [hlegs]⟩
    rw [hlegs, List.mem_singleton] at hleg
    subst hleg
    obtain ⟨order, horder, hattempt⟩ := hcovered.attempted
    obtain ⟨hside, hqty⟩ := hcovered.sized order hattempt
    exact ⟨order, horder, hside, hqty, hattempt⟩

/-- The profit taker of a partial fill. -/
theorem protects_partialProfitTaker (o : OrderContext) (cmd : Command) (a : Replies)
    (q finalQty : ℚ) (avgPrice : Option ℚ) :
    Protects o cmd q
      (runIf cmd.hasProfit (placeProfitTaker o cmd avgPrice finalQty none a.profitTaker))
      (finalQty = q ∧ cmd.hasTrail = false ∧ cmd.hasStop = false ∧
        ProfitTakerPlaced o cmd avgPrice finalQty a.profitTaker) := by
  cases hprofit : cmd.hasProfit with
  | false =>
    refine ⟨[], _, Emits.pure (), ?_⟩
    rw [protected_nil_iff, requested_eq_nil, hprofit]
    tauto
  | true =>
    have hreq : cmd.requested ≠ [] := fun hnil => by simp [requested_eq_nil, hprofit] at hnil
    by_cases hplaced : ProfitTakerPlaced o cmd avgPrice finalQty a.profitTaker
    · obtain ⟨price, id, hemits⟩ := emits_profitTaker_placed hplaced
      refine ⟨_, _, hemits, ?_⟩
      rw [protected_profitTaker_iff hprofit]
      tauto
    · obtain ⟨price, e, hemits⟩ := emits_profitTaker_failed none hprofit hplaced
      have huncovered : Uncovered .profitTaker
          [.failed (exitOrder o .profitTaker finalQty price none)] :=
        ⟨_, rfl, List.mem_singleton.mpr rfl, by simp⟩
      refine ⟨_, _, hemits, iff_of_false huncovered.not_protected ?_⟩
      tauto

theorem emits_recordPartial {s : Settlement} (ibOrderId : ℤ) (finalQty commission : ℚ)
    (avgPrice : Option ℚ) (h : RestSettled a s.resolution) :
    Emits (recordPartial o a ibOrderId s finalQty avgPrice commission) [] (.ok ()) := by
  obtain ⟨written, hemits⟩ := emits_finalizePartialCancel o ibOrderId h
  exact (emits_writeTxn _).silent_bind ((emits_updatePnl _).silent_bind
    (hemits.silent_bind (Emits.pure ())))

theorem emits_recordPartial_interrupted {s : Settlement} (ibOrderId : ℤ) (finalQty commission : ℚ)
    (avgPrice : Option ℚ) (h : ¬RestSettled a s.resolution) :
    Emits (recordPartial o a ibOrderId s finalQty avgPrice commission) []
      (.error .taskCancelled) :=
  (emits_writeTxn _).silent_bind ((emits_updatePnl _).silent_bind
    (emits_finalizePartialCancel_interrupted h).bind_error)

theorem protects_finishPartial (o : OrderContext) (cmd : Command) (a : Replies) (q : ℚ)
    (ibOrderId : ℤ) (s : Settlement) (finalQty : ℚ) (avgPrice : Option ℚ) (commission : ℚ) :
    Protects o cmd q (finishPartial o cmd a ibOrderId s finalQty avgPrice commission)
      (PartialProtects o cmd a q s.resolution finalQty avgPrice) := by
  unfold finishPartial
  by_cases hrest : RestSettled a s.resolution
  · apply Protects.silent_bind (emits_recordPartial ibOrderId finalQty commission avgPrice hrest)
    by_cases hpnl : 0 < finalQty → cmd.hasBotRef = false → PnlDisclosed o avgPrice a.recordPnl
    · have hsilent : Emits (runIf (0 < finalQty && !cmd.hasBotRef)
          (emitConsoleClosePnl o avgPrice a.recordPnl)) [] (.ok ()) := by
        cases hrun : decide (0 < finalQty) && !cmd.hasBotRef with
        | false => exact Emits.pure ()
        | true =>
          simp only [Bool.and_eq_true, decide_eq_true_eq, Bool.not_eq_true'] at hrun
          exact emits_pnl_disclosed (hpnl hrun.1 hrun.2)
      apply Protects.silent_bind hsilent
      apply (protects_partialProfitTaker o cmd a q finalQty avgPrice).congr
      constructor
      · rintro ⟨hq, htrail, hstop, hplaced⟩
        exact ⟨hq, htrail, hstop, hrest, hpnl, hplaced⟩
      · rintro ⟨hq, htrail, hstop, -, -, hplaced⟩
        exact ⟨hq, htrail, hstop, hplaced⟩
    · push Not at hpnl
      obtain ⟨hpos, hbot, hraised⟩ := hpnl
      obtain ⟨e, hemits⟩ := emits_pnl_raised hraised
      have hrun : (decide (0 < finalQty) && !cmd.hasBotRef) = true := by simp [hpos, hbot]
      rw [hrun]
      apply (protects_of_silent_error hemits).congr
      exact iff_of_false not_false fun h => hraised (h.disclosed hpos hbot)
  · apply (protects_of_silent_error
      (emits_recordPartial_interrupted ibOrderId finalQty commission avgPrice hrest)).congr
    exact iff_of_false not_false fun h => hrest h.settled

theorem protects_handlePartial (o : OrderContext) (cmd : Command) (a : Replies) (q : ℚ)
    (ibOrderId : ℤ) (qtyFilled : ℚ) (avgPrice : Option ℚ) (commission : ℚ) :
    Protects o cmd q (handlePartial o cmd a ibOrderId qtyFilled avgPrice commission)
      (PartlyProtects o cmd a q qtyFilled avgPrice) := by
  rw [handlePartial_eq]
  apply Protects.silent_bind (emits_writeTxn _)
  unfold PartlyProtects
  cases hvalue : a.settle.value with
  | error e =>
    apply (protects_of_silent_error (emits_cancelAndAwaitResolution_raised hvalue)).congr
    simp
  | ok reading =>
    apply Protects.silent_bind (emits_cancelAndAwaitResolution hvalue)
    simp only [Except.ok.injEq, exists_eq_left']
    split
    case isTrue => exact protects_handleFill ..
    case isFalse => exact protects_finishPartial ..

/-- The end of the order window protects `q` when the cancel comes too late. -/
def ExpiryProtects (o : OrderContext) (cmd : Command) (a : Replies) (q : ℚ) : Prop :=
  ∃ reading, a.settle.value = .ok reading ∧
    let s := reading.settlement o.qtyRequested
    s.resolution = .filled ∧ FillProtects o cmd a q s.qty (some (s.avgPrice.getD 0))

theorem silent_finalizePartialCancel (o : OrderContext) (a : Replies) (ibOrderId : ℤ)
    (resolution : Resolution) : Silent (finalizePartialCancel o ibOrderId resolution a.probe) := by
  by_cases h : RestSettled a resolution
  · obtain ⟨written, hemits⟩ := emits_finalizePartialCancel o ibOrderId h
    exact ⟨_, hemits⟩
  · exact ⟨_, emits_finalizePartialCancel_interrupted h⟩

theorem protects_expire (o : OrderContext) (cmd : Command) (a : Replies) (q : ℚ) :
    Protects o cmd q (expire o cmd a) (ExpiryProtects o cmd a q) := by
  unfold expire ExpiryProtects
  apply Protects.silent_bind (emits_writeTxn _)
  cases hvalue : a.settle.value with
  | error e =>
    apply (protects_of_silent_error (emits_cancelAndAwaitResolution_raised hvalue)).congr
    simp
  | ok reading =>
    apply Protects.silent_bind (emits_cancelAndAwaitResolution hvalue)
    simp only [Except.ok.injEq, exists_eq_left']
    split
    case isTrue hfilled =>
      apply (protects_handleFill ..).congr
      simp [hfilled]
    case isFalse hfilled =>
      have hsilent : ∀ {x : Flow Unit}, Silent x → Protects o cmd q x
          ((reading.settlement o.qtyRequested).resolution = .filled ∧
            FillProtects o cmd a q (reading.settlement o.qtyRequested).qty
              (some ((reading.settlement o.qtyRequested).avgPrice.getD 0))) :=
        fun h => h.protects.congr (iff_of_false not_false fun h' => hfilled h'.1)
      split
      case isTrue =>
        -- a late partial fill: no protective order
        apply hsilent
        refine Silent.bind ?_ fun _ => Silent.runIf _ (silent_emitConsoleClosePnl ..)
        exact (silent_writeTxn _).bind fun _ => Silent.bind ⟨_, emits_updatePnl _⟩ fun _ =>
          (silent_finalizePartialCancel ..).bind fun _ => ⟨_, Emits.pure ()⟩
      case isFalse =>
        apply hsilent
        exact (silent_finalizePartialCancel ..).bind fun written => silent_closeGroup.runIf written

end Handlers

-- ============================================================================
-- The command
-- ============================================================================

/-- When an ending of the entry order protects the quantity `q` that has filled. -/
def EndingProtects (o : OrderContext) (cmd : Command) (a : Replies) (q : ℚ) : Ending → Prop
  | .filled qtyFilled avgPrice _ => FillProtects o cmd a q qtyFilled avgPrice
  | .partlyFilled _ qtyFilled avgPrice _ => PartlyProtects o cmd a q qtyFilled avgPrice
  | .marketRefused (some (qtyFilled, avgPrice, _)) =>
    PartlyProtects o cmd a q qtyFilled (some avgPrice)
  | .expired => ExpiryProtects o cmd a q
  | .raised | .rejected _ | .notRouted | .letBe | .inactive | .canceledByIb | .gaveUp
  | .marketRefused none => False

theorem protects_finish (o : OrderContext) (cmd : Command) (a : Replies) (q : ℚ) (ending : Ending) :
    Protects o cmd q (finish o cmd a ending) (EndingProtects o cmd a q ending) := by
  cases ending with
  | raised => exact (silent_throw _).protects
  | rejected status =>
    apply Silent.protects
    exact (silent_await _).bind fun _ => ((silent_hear _).runIf _).bind fun _ =>
      silent_closeGroup.bind fun _ => (silent_writeTxn _).bind fun _ => silent_throw _
  | notRouted => exact ((silent_await _).bind fun _ => silent_closeGroup).protects
  | letBe => exact protects_of_silent (Emits.pure ())
  | inactive =>
    apply Silent.protects
    exact (silent_hear _).bind fun _ => (silent_writeTxn _).bind fun _ =>
      (silent_await _).bind fun _ => silent_closeGroup.bind fun _ => silent_writeCancelled ..
  | canceledByIb => exact ((silent_hear _).bind fun _ => silent_closeGroup).protects
  | gaveUp => exact (silent_closeGroup.bind fun _ => silent_writeCancelled ..).protects
  | expired => exact protects_expire ..
  | filled qtyFilled avgPrice commission => exact protects_handleFill ..
  | partlyFilled ibOrderId qtyFilled avgPrice commission => exact protects_handlePartial ..
  | marketRefused recorded =>
    cases recorded with
    | none => exact (silent_throw _).protects
    | some recorded => exact (protects_handlePartial ..).then_throw

/-- An entry command protects the quantity that has filled exactly when it asks for
    no protection, or the entry ends in a full fill booked for that quantity with no
    placement raising past the next, or it asks for a profit taker alone, ends in a
    partial fill of that quantity and IB takes the profit taker. -/
theorem protected_iff (o : OrderContext) (cmd : Command) (placed : Reply Unit) (run : EntryRun)
    (a : Replies) (q : ℚ) :
    Protected o cmd q (left (executeOrder o cmd placed run a) {}).exits ↔
      cmd.requested = [] ∨ (placed.value = .ok () ∧ EndingProtects o cmd a q (run.ending o)) := by
  have hprotects : Protects o cmd q (executeOrder o cmd placed run a)
      (placed.value = .ok () ∧ EndingProtects o cmd a q (run.ending o)) := by
    unfold executeOrder
    apply Protects.silent_bind (emits_writeTxn _)
    have hawait := emits_await placed
    cases hvalue : placed.value with
    | error e =>
      rw [hvalue] at hawait
      exact (protects_of_silent_error hawait).congr (by simp)
    | ok u =>
      rw [hvalue] at hawait
      apply Protects.silent_bind hawait
      apply Protects.silent_bind (emits_writeTxn _)
      have horders : Emits (modify fun c : Ctx => { c with orders := run.orders o }) [] (.ok ()) :=
        fun c => ⟨rfl, (List.append_nil _).symm⟩
      apply Protects.silent_bind horders
      apply Protects.silent_bind (emits_hear _)
      exact (protects_finish o cmd a q _).congr (by simp)
  obtain ⟨acts, result, hemits, hiff⟩ := hprotects
  rw [hemits.left, List.nil_append, hiff]

/-- A partial fill of an order with a profit target and a stop loss leaves the
    position without a stop. -/
theorem protected_fails :
    let o : OrderContext := { tradeSerial := 7, ibOrderId := 101, side := .buy, qtyRequested := 10 }
    let cmd : Command := { profitAmount := some 50, stopLoss := some 95 }
    let working : OrderStatus := { status := "Submitted", qtyFilled := 4, avgFillPrice := some 100 }
    let run : EntryRun := .mid { ack := { status := "Submitted" }, final := working }
    let a : Replies :=
      { settle := { value := .ok { status := { working with status := "Cancelled" } } },
        profitTaker := { value := .ok 102 } }
    let exits := (left (executeOrder o cmd { value := .ok () } run a) {}).exits
    exits = [.placed (exitOrder o .profitTaker 4 (some (225 / 2)) none) 102] ∧
      ¬Protected o cmd 4 exits := by
  intro o cmd working run a exits
  have hexits : exits = [.placed (exitOrder o .profitTaker 4 (some (225 / 2)) none) 102] := by
    decide +kernel
  refine ⟨hexits, fun h => ?_⟩
  rw [hexits] at h
  exact absurd ((protected_profitTaker_iff (by decide +kernel)).mp h).2.2 (by decide)

end IbTrader.Engine.OrderFlow
