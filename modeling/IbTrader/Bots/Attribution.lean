/-
  IbTrader.Bots.Attribution

  Which order an event is about, and what the bot tracks.

  A session is the bot with the orders it has placed: the one placed last, as
  long as its terminal event has not been delivered, is in flight; the others
  are past.  Every order counts the fills delivered for it, so the position the
  bot's own orders have built up is known whatever the document says.

  The dispatch routes an event by the state of the bot and never looks at its
  `ib_order_id`, so what is tracked is what the orders filled only as long as
  events find the bot in a state that is about them (`Attributed`).
-/

import Mathlib.Algebra.BigOperators.Group.List.Basic
import Mathlib.Tactic.Linarith
import Mathlib.Tactic.Ring
import IbTrader.Lib.Run
import IbTrader.Bots.Runtime

namespace IbTrader.Bots.Runtime

open Lib
open Engine.OrderLedger (LedgerEvent)

-- ============================================================================
-- Sessions
-- ============================================================================

/-- Which side of the trip an order is on. -/
inductive Leg where
  | entry
  | exit
  deriving DecidableEq, Repr

/-- An order the bot has placed, with the quantity its delivered events report as
    filled. -/
structure PlacedOrder where
  id : String
  leg : Leg
  qty : ℚ
  filled : ℚ := 0
  deriving DecidableEq, Repr

/-- What an order has added to the position: fills of an entry open it, fills of
    an exit close it. -/
def PlacedOrder.signed (o : PlacedOrder) : ℚ :=
  match o.leg with
  | .entry => o.filled
  | .exit => -o.filled

/-- The bot and its orders. -/
structure Session where
  doc : BotDoc
  past : List PlacedOrder := []
  inFlight : Option PlacedOrder := none
  deriving DecidableEq, Repr

namespace Session

/-- What the past orders have built up. -/
def settled (s : Session) : ℚ := (s.past.map PlacedOrder.signed).sum

/-- The signed sum of the fills of the bot's own orders. -/
def position (s : Session) : ℚ := s.settled + (s.inFlight.map PlacedOrder.signed).getD 0

/-- A new order takes the place of the one in flight. -/
def place (s : Session) (o : PlacedOrder) : Session :=
  { s with past := s.inFlight.toList ++ s.past, inFlight := some o }

/-- An event is noted on the order it is about; a terminal one ends the order in
    flight. -/
def note (s : Session) (event : LedgerEvent) : Session :=
  let fill := fun o : PlacedOrder => { o with filled := event.filledQty }
  match s.inFlight with
  | some o =>
    if o.id = event.ibOrderId then
      if event.terminal then { s with past := fill o :: s.past, inFlight := none }
      else { s with inFlight := some (fill o) }
    else { s with past := s.past.map fun o => if o.id = event.ibOrderId then fill o else o }
  | none => { s with past := s.past.map fun o => if o.id = event.ibOrderId then fill o else o }

end Session

/-- The retry a fill has asked for, under the id the engine gave it (`none` when
    the submission failed). -/
def retryOrder (retryId : Option String) (effects : List Effect) : Option PlacedOrder :=
  match retryId, effects.findSome? fun
      | .retryExitOrder retry => some retry
      | .recordTradeClosed _ | .cancelOrder _ | .pagerAlert .. | .requestStop => none with
  | some id, some retry => some { id := id, leg := .exit, qty := retry.qty }
  | none, _ | some _, none => none

/-- What happens to a bot: commands, orders placed, and order events in whatever
    order they come. -/
inductive Input where
  | start (symbol : Option String)
  | stop
  | forceStop
  | crash
  | placeEntry (id symbol : String) (qty : ℚ) (serial : Option Int)
  | placeExit (id : String) (qty : ℚ)
  | captureOrderId (id : String)
  | revertToState (prior : BotState)
  | entryTimeout
  | forceQuit
  | deliver (event : LedgerEvent) (retryId : Option String)
  deriving DecidableEq, Repr

/-- One input. -/
def Session.next (config : StrategyConfig) (s : Session) : Input → Session
  | .start symbol => { s with doc := (handled (onStart symbol) s.doc).1 }
  | .stop => { s with doc := (handled onStop s.doc).1 }
  | .forceStop => { s with doc := (handled onForceStop s.doc).1 }
  | .crash => { s with doc := (handled onCrash s.doc).1 }
  | .placeEntry id symbol qty serial =>
    match onPlaceEntryOrder symbol qty "strategy" (some pendingOrderId) serial s.doc with
    | none => s
    | some r => { s with doc := r.1 }.place { id := id, leg := .entry, qty := qty }
  | .placeExit id qty =>
    match onPlaceExitOrder qty "exit" (some pendingOrderId) s.doc with
    | none => s
    | some r => { s with doc := r.1 }.place { id := id, leg := .exit, qty := qty }
  | .captureOrderId id => { s with doc := (handled (captureOrderId id) s.doc).1 }
  | .revertToState prior => { s with doc := (handled (revertToState prior) s.doc).1 }
  | .entryTimeout => { s with doc := (handled onEntryTimeout s.doc).1 }
  | .forceQuit => { s with doc := (handled forceQuitCancelAndReplace s.doc).1 }
  | .deliver event retryId =>
    let r := dispatchOrderEvent config event s.doc
    let s' := { s.note event with doc := r.1 }
    match retryOrder retryId r.2 with
    | none => s'
    | some o => s'.place o

-- ============================================================================
-- What is promised and what is needed
-- ============================================================================

/-- What the ledger promises about the events of the order in flight: they carry
    the bot's tag and the cumulative quantity, which an order does not exceed;
    only fills move it, and an order that ends cancelled or rejected has filled
    nothing. -/
structure FromLedger (config : StrategyConfig) (o : PlacedOrder) (event : LedgerEvent) :
    Prop where
  tag : tagged config event = true
  bound : event.filledQty ≤ o.qty
  status : event.status ∉ fillStatuses → event.filledQty = o.filled
  terminal : event.terminal = true →
    event.status ∈ fillStatuses ∨ (event.status ∈ cancelStatuses ∧ event.filledQty = 0)

instance (config : StrategyConfig) (o : PlacedOrder) (event : LedgerEvent) :
    Decidable (FromLedger config o event) :=
  decidable_of_iff
    (tagged config event = true ∧ event.filledQty ≤ o.qty ∧
      (event.status ∉ fillStatuses → event.filledQty = o.filled) ∧
      (event.terminal = true →
        event.status ∈ fillStatuses ∨ (event.status ∈ cancelStatuses ∧ event.filledQty = 0)))
    ⟨fun ⟨h1, h2, h3, h4⟩ => ⟨h1, h2, h3, h4⟩, fun ⟨h1, h2, h3, h4⟩ => ⟨h1, h2, h3, h4⟩⟩

/-- The environment of a session keeps the ledger's promises. -/
def Promised (config : StrategyConfig) (s : Session) : Input → Prop
  | .deliver event _ => ∀ o ∈ s.inFlight, o.id = event.ibOrderId → FromLedger config o event
  | _ => True

instance (config : StrategyConfig) (s : Session) (i : Input) :
    Decidable (Promised config s i) := by
  cases i <;> unfold Promised <;> infer_instance

/-- The state a fill of the order must find the bot in. -/
def OnLeg (leg : Leg) (doc : BotDoc) : Prop :=
  match leg with
  | .entry => doc.state = .entryOrderPlaced ∨ doc.state = .awaitingEntryTrigger
  | .exit => doc.state = .exitOrderPlaced

instance (leg : Leg) (doc : BotDoc) : Decidable (OnLeg leg doc) := by
  cases leg <;> unfold OnLeg <;> infer_instance

/-- The event is about the order in flight. -/
def Session.isInFlight (s : Session) (event : LedgerEvent) : Prop :=
  ∃ o ∈ s.inFlight, o.id = event.ibOrderId

instance (s : Session) (event : LedgerEvent) : Decidable (s.isInFlight event) :=
  inferInstanceAs (Decidable (∃ o ∈ s.inFlight, _))

/-- No fill of the order in flight has been delivered. -/
def Session.unfilled (s : Session) : Prop := ∀ o ∈ s.inFlight, o.filled = 0

instance (s : Session) : Decidable s.unfilled :=
  inferInstanceAs (Decidable (∀ o ∈ s.inFlight, _))

/-- The condition on an input under which what is tracked stays what the orders
    filled. -/
def Attributed (config : StrategyConfig) (s : Session) : Input → Prop
  | .start _ =>
    s.doc.state = .off ∨ s.doc.state = .errored → s.position = 0 ∧ s.unfilled
  | .placeEntry .. => s.doc.state = .awaitingEntryTrigger → s.doc.qty = 0
  | .placeExit _ qty => s.doc.state = .awaitingExitTrigger → qty ≤ s.doc.qty
  | .revertToState prior =>
    s.unfilled ∧
      ((prior = .awaitingEntryTrigger ∧ OnLeg .entry s.doc) ∨
        (prior = .awaitingExitTrigger ∧
          (s.doc.state = .exitOrderPlaced ∨ s.doc.state = .awaitingExitTrigger)))
  | .entryTimeout => s.doc.state = .entryOrderPlaced → s.unfilled
  | .forceQuit => s.doc.state = .exitOrderPlaced → s.unfilled
  | .deliver event _ =>
    (∀ o ∈ s.inFlight, o.id = event.ibOrderId →
      Routed config event s.doc ∨ event.filledQty ≠ o.filled → OnLeg o.leg s.doc) ∧
    (¬s.isInFlight event →
      ¬Routed config event s.doc ∧
        ∀ o ∈ s.past, o.id = event.ibOrderId → event.filledQty = o.filled)
  | .stop | .forceStop | .crash | .captureOrderId _ => True

instance (config : StrategyConfig) (s : Session) (i : Input) :
    Decidable (Attributed config s i) := by
  cases i <;> unfold Attributed <;> infer_instance

/-- An event of an order that is not in flight leaves the state, the position and
    its average price. -/
def LeavesTracking (config : StrategyConfig) (s : Session) (event : LedgerEvent) : Prop :=
  ¬s.isInFlight event →
    (dispatchOrderEvent config event s.doc).1.state = s.doc.state ∧
      (dispatchOrderEvent config event s.doc).1.qty = s.doc.qty ∧
      (dispatchOrderEvent config event s.doc).1.avgPrice = s.doc.avgPrice

/-- While the bot waits for a trigger it tracks what its orders filled. -/
def Tracked (s : Session) : Prop :=
  s.doc.state = .awaitingEntryTrigger ∨ s.doc.state = .awaitingExitTrigger →
    s.doc.qty = s.position

-- ============================================================================
-- The invariant
-- ============================================================================

/-- What the document says, state by state, against what the orders filled. -/
inductive Tracks (s : Session) : Prop where
  | stopped (hstate : s.doc.state = .off ∨ s.doc.state = .errored)
  | entering (hstate : OnLeg .entry s.doc) (hsettled : s.settled = 0)
      (hqty : s.doc.qty = s.position) (hexit : ∀ o ∈ s.inFlight, o.leg = .exit → o.filled = 0)
  | holding (hstate : s.doc.state = .awaitingExitTrigger) (hqty : s.doc.qty = s.settled)
      (hexit : ∀ o ∈ s.inFlight, o.leg = .exit ∧ o.filled = 0)
  | exiting (hstate : s.doc.state = .exitOrderPlaced) (hqty : s.doc.qty = s.settled)
      (hexit : ∀ o ∈ s.inFlight, o.leg = .exit ∧ o.qty ≤ s.doc.qty)

theorem PlacedOrder.signed_of_unfilled {o : PlacedOrder} (h : o.filled = 0) : o.signed = 0 := by
  rw [PlacedOrder.signed]
  cases o.leg <;> simp [h]

namespace Session

theorem position_of_none {s : Session} (h : s.inFlight = none) : s.position = s.settled := by
  simp [position, h]

theorem position_of_some {s : Session} {o : PlacedOrder} (h : s.inFlight = some o) :
    s.position = s.settled + o.signed := by
  simp [position, h]

/-- An order in flight that has filled nothing adds nothing. -/
theorem position_of_unfilled {s : Session} (h : s.unfilled) : s.position = s.settled := by
  cases ho : s.inFlight with
  | none => exact position_of_none ho
  | some o =>
    rw [position_of_some ho, PlacedOrder.signed_of_unfilled (h o ho), add_zero]

theorem settled_place (s : Session) (o : PlacedOrder) : (s.place o).settled = s.position := by
  cases ho : s.inFlight with
  | none => simp [place, settled, position, ho]
  | some o' =>
    simp only [place, settled, position, ho, Option.toList_some, List.cons_append,
      List.nil_append, List.map_cons, List.sum_cons, Option.map_some, Option.getD_some]
    ring

/-- An event of another order leaves the order in flight alone, and a past order
    that has no new fill too. -/
theorem note_stale {s : Session} {event : LedgerEvent} (h : ¬s.isInFlight event)
    (hpast : ∀ o ∈ s.past, o.id = event.ibOrderId → event.filledQty = o.filled) :
    s.note event = s := by
  have hmap : (s.past.map fun o =>
      if o.id = event.ibOrderId then { o with filled := event.filledQty } else o) = s.past := by
    have hid : ∀ o ∈ s.past,
        (if o.id = event.ibOrderId then { o with filled := event.filledQty } else o) = id o := by
      intro o ho
      split
      case isTrue heq => rw [hpast o ho heq]; rfl
      case isFalse => rfl
    rw [List.map_congr_left hid, List.map_id]
  unfold note
  cases ho : s.inFlight with
  | none =>
    dsimp only
    rw [hmap]
    cases s
    cases ho
    rfl
  | some o =>
    have hne : o.id ≠ event.ibOrderId := fun heq => h ⟨o, ho, heq⟩
    dsimp only
    rw [if_neg hne, hmap]
    cases s
    cases ho
    rfl

/-- The order in flight has ended. -/
def finish (s : Session) (o : PlacedOrder) : Session := { s with past := o :: s.past, inFlight := none }

@[simp] theorem settled_withDoc (s : Session) (doc : BotDoc) :
    ({ s with doc := doc } : Session).settled = s.settled := rfl

@[simp] theorem settled_finish (s : Session) (o : PlacedOrder) :
    (s.finish o).settled = s.settled + o.signed := by
  simp only [finish, settled, List.map_cons, List.sum_cons]
  ring

theorem note_terminal {s : Session} {event : LedgerEvent} {o : PlacedOrder}
    (ho : s.inFlight = some o) (hid : o.id = event.ibOrderId) (ht : event.terminal = true) :
    s.note event = s.finish { o with filled := event.filledQty } := by
  simp [note, finish, ho, hid, ht]

theorem note_progress {s : Session} {event : LedgerEvent} {o : PlacedOrder}
    (ho : s.inFlight = some o) (hid : o.id = event.ibOrderId) (ht : event.terminal = false) :
    s.note event = { s with inFlight := some { o with filled := event.filledQty } } := by
  simp [note, ho, hid, ht]

end Session

@[simp] theorem retryOrder_nil (retryId : Option String) : retryOrder retryId [] = none := by
  cases retryId <;> rfl

/-- A retry is asked for by an effect. -/
theorem retryOrder_eq_some {retryId : Option String} {effects : List Effect} {o : PlacedOrder}
    (h : retryOrder retryId effects = some o) :
    o.leg = .exit ∧ ∃ retry, .retryExitOrder retry ∈ effects ∧ o.qty = retry.qty := by
  unfold retryOrder at h
  split at h
  case h_1 id retry hfind =>
    cases h
    obtain ⟨effect, heffect, hsome⟩ := List.exists_of_findSome?_eq_some hfind
    cases effect with
    | retryExitOrder r =>
      cases hsome
      exact ⟨rfl, retry, heffect, rfl⟩
    | recordTradeClosed | cancelOrder | pagerAlert | requestStop => cases hsome
  case h_2 => cases h
  case h_3 => cases h

/-- The invariant reads the state, the quantity and the orders only. -/
theorem Tracks.of_doc {s : Session} (h : Tracks s) {doc : BotDoc}
    (hstate : doc.state = s.doc.state) (hqty : doc.qty = s.doc.qty) :
    Tracks { s with doc := doc } := by
  cases h with
  | stopped hs => exact .stopped (by simpa [hstate] using hs)
  | entering hs hsettled hq hexit =>
    exact .entering (by simpa [OnLeg, hstate] using hs) hsettled (hqty.trans hq) hexit
  | holding hs hq hexit => exact .holding (hstate.trans hs) (hqty.trans hq) hexit
  | exiting hs hq hexit =>
    refine .exiting (hstate.trans hs) (hqty.trans hq) ?_
    intro o ho
    exact ⟨(hexit o ho).1, le_of_le_of_eq (hexit o ho).2 hqty.symm⟩

-- What the invariant says in each state: the cases of the other states are
-- impossible.

/-- While an entry is placed or awaited. -/
theorem Tracks.entering_inv {s : Session} (h : Tracks s) (hstate : OnLeg .entry s.doc) :
    s.settled = 0 ∧ s.doc.qty = s.position := by
  cases h with
  | entering _ hsettled hq _ => exact ⟨hsettled, hq⟩
  | stopped hs => rcases hstate with h1 | h1 <;> rcases hs with h2 | h2 <;> simp [h1] at h2
  | holding hs _ _ => rcases hstate with h1 | h1 <;> simp [h1] at hs
  | exiting hs _ _ => rcases hstate with h1 | h1 <;> simp [h1] at hs

/-- While an exit is awaited. -/
theorem Tracks.holding_inv {s : Session} (h : Tracks s)
    (hstate : s.doc.state = .awaitingExitTrigger) :
    s.doc.qty = s.settled ∧ ∀ o ∈ s.inFlight, o.leg = .exit ∧ o.filled = 0 := by
  cases h with
  | holding _ hq hexit => exact ⟨hq, hexit⟩
  | stopped hs => rcases hs with h2 | h2 <;> simp [hstate] at h2
  | entering hs _ _ _ => rcases hs with h2 | h2 <;> simp [hstate] at h2
  | exiting hs _ _ => simp [hstate] at hs

/-- While an exit is placed. -/
theorem Tracks.exiting_inv {s : Session} (h : Tracks s) (hstate : s.doc.state = .exitOrderPlaced) :
    s.doc.qty = s.settled ∧ ∀ o ∈ s.inFlight, o.leg = .exit ∧ o.qty ≤ s.doc.qty := by
  cases h with
  | exiting _ hq hexit => exact ⟨hq, hexit⟩
  | stopped hs => rcases hs with h2 | h2 <;> simp [hstate] at h2
  | entering hs _ _ _ => rcases hs with h2 | h2 <;> simp [hstate] at h2
  | holding hs _ _ => simp [hstate] at hs

-- ============================================================================
-- Commands and placements
-- ============================================================================

variable {config : StrategyConfig} {s : Session}

/-- A flat bot waiting for an entry, with nothing filled on the order in flight. -/
theorem Tracks.flat {s : Session} (hstate : OnLeg .entry s.doc) (hqty : s.doc.qty = 0)
    (hposition : s.position = 0) (hunfilled : s.unfilled) : Tracks s := by
  have hsettled : s.settled = 0 := by
    rw [← Session.position_of_unfilled hunfilled, hposition]
  exact .entering hstate hsettled (hqty.trans hposition.symm) fun o ho _ => hunfilled o ho

theorem Tracks.start (h : Tracks s) {symbol : Option String}
    (ha : Attributed config s (.start symbol)) :
    Tracks (s.next config (.start symbol)) := by
  simp only [Session.next, handled, onStart]
  split
  case isTrue hstate =>
    obtain ⟨hposition, hunfilled⟩ := ha hstate
    exact .flat (.inr rfl) rfl hposition hunfilled
  case isFalse => exact h

theorem Tracks.stop (h : Tracks s) : Tracks (s.next config .stop) := by
  simp only [Session.next, handled, onStop]
  split
  · exact h
  · exact .stopped (.inl rfl)

theorem Tracks.crash (h : Tracks s) : Tracks (s.next config .crash) := by
  simp only [Session.next, handled, onCrash]
  split
  · exact h
  · exact .stopped (.inr rfl)

/-- In a state about entries, nothing filled on the order in flight means that
    nothing is held. -/
theorem Tracks.position_eq_zero (h : Tracks s) (hstate : OnLeg .entry s.doc)
    (hunfilled : s.unfilled) : s.position = 0 := by
  rw [Session.position_of_unfilled hunfilled]
  exact (h.entering_inv hstate).1

/-- With an exit placed or awaited and nothing filled on the order in flight, the
    position is the one tracked. -/
theorem Tracks.holding_of_unfilled (h : Tracks s)
    (hstate : s.doc.state = .exitOrderPlaced ∨ s.doc.state = .awaitingExitTrigger)
    (hunfilled : s.unfilled) {doc : BotDoc} (hdoc : doc.state = .awaitingExitTrigger)
    (hqty : doc.qty = s.doc.qty) : Tracks { s with doc := doc } := by
  rcases hstate with hstate | hstate
  · obtain ⟨hq, hexit⟩ := h.exiting_inv hstate
    exact .holding hdoc (hqty.trans hq) fun o ho => ⟨(hexit o ho).1, hunfilled o ho⟩
  · obtain ⟨hq, hexit⟩ := h.holding_inv hstate
    exact .holding hdoc (hqty.trans hq) hexit

theorem Tracks.placeEntry (h : Tracks s) {id symbol : String} {qty : ℚ} {serial : Option Int}
    (ha : Attributed config s (.placeEntry id symbol qty serial)) :
    Tracks (s.next config (.placeEntry id symbol qty serial)) := by
  simp only [Session.next, onPlaceEntryOrder]
  by_cases hstate : s.doc.state = .awaitingEntryTrigger
  · rw [if_pos hstate]
    have hzero : s.doc.qty = 0 := ha hstate
    obtain ⟨hsettled, hq⟩ := h.entering_inv (.inr hstate)
    have hposition : s.position = 0 := by rw [← hq, hzero]
    refine .entering (.inl rfl) ?_ ?_ ?_
    · rw [Session.settled_place]
      exact hposition
    · rw [Session.position_of_some rfl, Session.settled_place]
      show s.doc.qty = s.position + 0
      rw [hzero, hposition, add_zero]
    · intro o ho hleg
      cases ho
      cases hleg
  · rw [if_neg hstate]
    exact h

theorem Tracks.placeExit (h : Tracks s) {id : String} {qty : ℚ}
    (ha : Attributed config s (.placeExit id qty)) :
    Tracks (s.next config (.placeExit id qty)) := by
  simp only [Session.next]
  by_cases hstate : s.doc.state = .awaitingExitTrigger
  · obtain ⟨placed, hplace, hplaced, hqty, -⟩ :=
      onPlaceExitOrder_accepted hstate qty "exit" (some pendingOrderId)
    obtain ⟨hq, hexit⟩ := h.holding_inv hstate
    rw [hplace]
    refine .exiting hplaced ?_ ?_
    · rw [Session.settled_place]
      show placed.qty = s.position
      rw [hqty, hq, Session.position_of_unfilled fun o ho => (hexit o ho).2]
    · intro o ho
      cases ho
      refine ⟨rfl, ?_⟩
      show qty ≤ placed.qty
      rw [hqty]
      exact ha hstate
  · have hrefused : onPlaceExitOrder qty "exit" (some pendingOrderId) s.doc = none :=
      if_neg hstate
    rw [hrefused]
    exact h

theorem Tracks.captureOrderId (h : Tracks s) {id : String} :
    Tracks (s.next config (.captureOrderId id)) := by
  simp only [Session.next, handled, Runtime.captureOrderId]
  split
  · exact h.of_doc rfl rfl
  · exact h.of_doc rfl rfl

theorem Tracks.revertToState (h : Tracks s) {prior : BotState}
    (ha : Attributed config s (.revertToState prior)) :
    Tracks (s.next config (.revertToState prior)) := by
  obtain ⟨hunfilled, ⟨rfl, hstate⟩ | ⟨rfl, hstate⟩⟩ := ha
  · simp only [Session.next, handled, Runtime.revertToState, if_true, Option.getD_some]
    exact .flat (.inr rfl) rfl (h.position_eq_zero hstate hunfilled) hunfilled
  · simp only [Session.next, handled, Runtime.revertToState]
    exact h.holding_of_unfilled hstate hunfilled rfl rfl

theorem Tracks.entryTimeout (h : Tracks s) (ha : Attributed config s .entryTimeout) :
    Tracks (s.next config .entryTimeout) := by
  simp only [Session.next, handled, onEntryTimeout]
  split
  case isTrue hstate =>
    have hunfilled := ha hstate
    exact .flat (.inr rfl) rfl (h.position_eq_zero (.inl hstate) hunfilled) hunfilled
  case isFalse => exact h.of_doc rfl rfl

theorem Tracks.forceQuit (h : Tracks s) (ha : Attributed config s .forceQuit) :
    Tracks (s.next config .forceQuit) := by
  simp only [Session.next, handled, forceQuitCancelAndReplace]
  split
  case isTrue hstate => exact h.holding_of_unfilled (.inl hstate) (ha hstate) rfl rfl
  case isFalse => exact h.of_doc rfl rfl

-- ============================================================================
-- Order events
-- ============================================================================

/-- What a delivery leaves when it asks for no retry. -/
theorem next_deliver_quiet {event : LedgerEvent} {retryId : Option String}
    (h : retryOrder retryId (dispatchOrderEvent config event s.doc).2 = none) :
    s.next config (.deliver event retryId) =
      { s.note event with doc := (dispatchOrderEvent config event s.doc).1 } := by
  simp only [Session.next, h]

/-- An event of an order that is not in flight. -/
theorem Tracks.deliver_stale (h : Tracks s) {event : LedgerEvent} {retryId : Option String}
    (hstale : ¬s.isInFlight event) (hrouted : ¬Routed config event s.doc)
    (hpast : ∀ o ∈ s.past, o.id = event.ibOrderId → event.filledQty = o.filled) :
    Tracks (s.next config (.deliver event retryId)) := by
  obtain ⟨hstate, hqty, -, heffects⟩ := dispatch_not_routed hrouted
  rw [next_deliver_quiet (by rw [heffects, retryOrder_nil]), Session.note_stale hstale hpast]
  exact h.of_doc hstate hqty

variable {event : LedgerEvent} {retryId : Option String} {o : PlacedOrder}

/-- An event of the order in flight that neither is routed nor brings a fill. -/
theorem Tracks.deliver_quiet (h : Tracks s) (ho : s.inFlight = some o)
    (hid : o.id = event.ibOrderId) (hledger : FromLedger config o event)
    (hrouted : ¬Routed config event s.doc) (hfilled : event.filledQty = o.filled) :
    Tracks (s.next config (.deliver event retryId)) := by
  obtain ⟨hstate, hqty, -, heffects⟩ := dispatch_not_routed hrouted
  rw [next_deliver_quiet (by rw [heffects, retryOrder_nil])]
  have hsame : { o with filled := event.filledQty } = o := by rw [hfilled]
  cases ht : event.terminal with
  | false =>
    rw [Session.note_progress ho hid ht, hsame, ← ho]
    exact h.of_doc hstate hqty
  | true =>
    rw [Session.note_terminal ho hid ht, hsame]
    refine Tracks.of_doc (s := s.finish o) ?_ hstate hqty
    cases h with
    | stopped hs => exact .stopped hs
    | entering hs hzero hq hexit =>
      -- a terminal event that is not routed here is a cancel: nothing is filled
      have hunfilled : o.filled = 0 := by
        rcases hledger.terminal ht with hfill | ⟨-, hnone⟩
        · refine absurd ⟨hledger.tag, .inl ⟨hfill, ?_⟩⟩ hrouted
          exact hs.imp_right .inl
        · rw [← hfilled, hnone]
      have hsigned : o.signed = 0 := PlacedOrder.signed_of_unfilled hunfilled
      refine .entering hs ?_ ?_ (fun o' ho' => by cases ho')
      · rw [Session.settled_finish, hsigned, hzero, add_zero]
      · show s.doc.qty = _
        rw [Session.position_of_none rfl, Session.settled_finish, ← Session.position_of_some ho, hq]
    | holding hs hq hexit =>
      refine .holding hs ?_ (fun o' ho' => by cases ho')
      show s.doc.qty = _
      rw [Session.settled_finish, PlacedOrder.signed_of_unfilled (hexit o ho).2, add_zero, hq]
    | exiting hs hq hexit =>
      refine absurd ⟨hledger.tag, ?_⟩ hrouted
      rcases hledger.terminal ht with hfill | ⟨hcancel, -⟩
      · exact .inl ⟨hfill, .inr (.inr ⟨hs, ht⟩)⟩
      · exact .inr ⟨ht, hcancel, .inr hs⟩

/-- A fill of the entry order in flight. -/
theorem Tracks.deliver_entry_fill (h : Tracks s) (ho : s.inFlight = some o)
    (hid : o.id = event.ibOrderId) (htag : tagged config event = true) (hleg : o.leg = .entry)
    (hstate : OnLeg .entry s.doc) (hfill : event.status ∈ fillStatuses) :
    Tracks (s.next config (.deliver event retryId)) := by
  have hzero : s.settled = 0 := (h.entering_inv hstate).1
  cases ht : event.terminal with
  | false =>
    have hdispatch : dispatchOrderEvent config event s.doc = _ :=
      (dispatch_fill htag hfill).trans (dispatchFill_entry_progress hstate ht)
    rw [next_deliver_quiet (by rw [hdispatch, retryOrder_nil]), hdispatch,
      Session.note_progress ho hid ht]
    refine .entering hstate hzero ?_ ?_
    · rw [Session.position_of_some rfl]
      show event.filledQty = s.settled + PlacedOrder.signed { o with filled := event.filledQty }
      simp [PlacedOrder.signed, hleg, hzero]
    · intro o' ho' hexit
      cases ho'
      rw [hleg] at hexit
      cases hexit
  | true =>
    have hdispatch : dispatchOrderEvent config event s.doc = _ :=
      (dispatch_fill htag hfill).trans (dispatchFill_entry_terminal hstate ht)
    rw [next_deliver_quiet (by rw [hdispatch, retryOrder_nil]), hdispatch,
      Session.note_terminal ho hid ht]
    have hsettled : (s.finish { o with filled := event.filledQty }).settled = event.filledQty := by
      rw [Session.settled_finish, hzero, zero_add, PlacedOrder.signed]
      simp only [hleg]
    by_cases hnone : event.filledQty = 0
    · rw [if_pos hnone]
      refine .entering (.inr rfl) (hsettled.trans hnone) ?_ (fun o' ho' => by cases ho')
      rw [Session.position_of_none rfl, Session.settled_withDoc, hsettled]
      rfl
    · rw [if_neg hnone]
      refine .holding rfl ?_ (fun o' ho' => by cases ho')
      rw [Session.settled_withDoc, hsettled]
      rfl

/-- A cancel of the entry order in flight. -/
theorem Tracks.deliver_entry_cancel (h : Tracks s) (ho : s.inFlight = some o)
    (hid : o.id = event.ibOrderId) (htag : tagged config event = true)
    (hstate : s.doc.state = .entryOrderPlaced) (ht : event.terminal = true) (hcancel : event.status ∈ cancelStatuses)
    (hnone : event.filledQty = 0) : Tracks (s.next config (.deliver event retryId)) := by
  have hdispatch : dispatchOrderEvent config event s.doc = _ :=
    (dispatch_cancel htag ht hcancel).trans (dispatchCancel_entry hstate)
  rw [next_deliver_quiet (by rw [hdispatch, retryOrder_nil]), hdispatch,
    Session.note_terminal ho hid ht]
  refine .flat (.inr rfl) rfl ?_ (fun o' ho' => by cases ho')
  rw [Session.position_of_none rfl, Session.settled_withDoc, Session.settled_finish,
    (h.entering_inv (.inl hstate)).1, PlacedOrder.signed_of_unfilled hnone, add_zero]

/-- A cancel of the exit order in flight. -/
theorem Tracks.deliver_exit_cancel (h : Tracks s) (ho : s.inFlight = some o)
    (hid : o.id = event.ibOrderId) (htag : tagged config event = true)
    (hstate : s.doc.state = .exitOrderPlaced) (ht : event.terminal = true)
    (hcancel : event.status ∈ cancelStatuses) (hnone : event.filledQty = 0) :
    Tracks (s.next config (.deliver event retryId)) := by
  have hdispatch : dispatchOrderEvent config event s.doc = _ :=
    (dispatch_cancel htag ht hcancel).trans (dispatchCancel_exit hstate)
  rw [next_deliver_quiet (by rw [hdispatch, retryOrder_nil]), hdispatch,
    Session.note_terminal ho hid ht]
  refine .holding rfl ?_ (fun o' ho' => by cases ho')
  rw [Session.settled_withDoc, Session.settled_finish, PlacedOrder.signed_of_unfilled hnone, add_zero]
  exact (h.exiting_inv hstate).1

/-- A progress fill of the exit order in flight. -/
theorem Tracks.deliver_exit_progress (h : Tracks s) (ho : s.inFlight = some o)
    (hid : o.id = event.ibOrderId) (htag : tagged config event = true)
    (hstate : s.doc.state = .exitOrderPlaced) (hfill : event.status ∈ fillStatuses)
    (ht : event.terminal = false) : Tracks (s.next config (.deliver event retryId)) := by
  obtain ⟨hq, hexit⟩ := h.exiting_inv hstate
  have hdispatch : dispatchOrderEvent config event s.doc = _ :=
    (dispatch_fill htag hfill).trans (dispatchFill_exit_progress hstate ht)
  rw [next_deliver_quiet (by rw [hdispatch, retryOrder_nil]), hdispatch,
    Session.note_progress ho hid ht]
  refine .exiting hstate hq ?_
  intro o' ho'
  cases ho'
  exact hexit o ho

/-- What an exit order has taken off when it ends. -/
theorem settled_finish_exit (hleg : o.leg = .exit) (filledQty : ℚ) :
    (s.finish { o with filled := filledQty }).settled = s.settled - filledQty := by
  rw [Session.settled_finish, PlacedOrder.signed]
  simp only [hleg]
  ring

/-- The terminal fill of the exit order in flight that closes the position: it
    cannot have filled more than is tracked. -/
theorem Tracks.deliver_exit_flat (h : Tracks s) (ho : s.inFlight = some o)
    (hid : o.id = event.ibOrderId) (htag : tagged config event = true)
    (hbound : event.filledQty ≤ o.qty) (hstate : s.doc.state = .exitOrderPlaced)
    (hfill : event.status ∈ fillStatuses) (ht : event.terminal = true)
    (hflat : s.doc.qty ≤ event.filledQty) :
    Tracks (s.next config (.deliver event retryId)) := by
  obtain ⟨hq, hexit⟩ := h.exiting_inv hstate
  have hexact : event.filledQty = s.settled := by
    rw [← hq]
    exact le_antisymm (hbound.trans (hexit o ho).2) hflat
  have hdispatch : dispatchOrderEvent config event s.doc = _ :=
    (dispatch_fill htag hfill).trans
      (dispatchFill_exit_terminal hstate ht
        (onExitFilled_flat config (fillArgs event "SELL") hstate ht hflat))
  have hquiet : retryOrder retryId (dispatchOrderEvent config event s.doc).2 = none := by
    rw [hdispatch]
    cases config.stopOnExit <;> cases retryId <;> rfl
  rw [next_deliver_quiet hquiet, hdispatch, Session.note_terminal ho hid ht]
  cases hstop : config.stopOnExit with
  | true => exact .stopped (.inl (by simp [applyExitFill]))
  | false =>
    refine .flat (.inr (by simp [applyExitFill])) (by simp [applyExitFill]) ?_
      (fun o' ho' => by cases ho')
    rw [Session.position_of_none rfl, Session.settled_withDoc,
      settled_finish_exit (hexit o ho).1, hexact, sub_self]

/-- An exit that has ended short, the retries used up or not. -/
theorem Tracks.residual {s : Session}
    (hstate : s.doc.state = .errored ∨ s.doc.state = .exitOrderPlaced)
    (hqty : s.doc.qty = s.settled) (hnone : s.inFlight = none) : Tracks s := by
  rcases hstate with hstate | hstate
  · exact .stopped (.inr hstate)
  · refine .exiting hstate hqty ?_
    rw [hnone]
    intro o' ho'
    cases ho'

/-- Its retry is in flight. -/
theorem Tracks.retried {s : Session} {o : PlacedOrder}
    (hstate : s.doc.state = .errored ∨ s.doc.state = .exitOrderPlaced)
    (hqty : s.doc.qty = s.settled) (hnone : s.inFlight = none) (hleg : o.leg = .exit)
    (hoqty : o.qty = s.doc.qty) : Tracks (s.place o) := by
  rcases hstate with hstate | hstate
  · exact .stopped (.inr hstate)
  · refine .exiting hstate ?_ ?_
    · rw [Session.settled_place, Session.position_of_none hnone]
      exact hqty
    · intro o' ho'
      cases ho'
      exact ⟨hleg, hoqty.le⟩

/-- The terminal fill of the exit order in flight that leaves some of the
    position. -/
theorem Tracks.deliver_exit_residual (h : Tracks s) (ho : s.inFlight = some o)
    (hid : o.id = event.ibOrderId) (htag : tagged config event = true)
    (hstate : s.doc.state = .exitOrderPlaced) (hfill : event.status ∈ fillStatuses)
    (ht : event.terminal = true) (hrest : event.filledQty < s.doc.qty) :
    Tracks (s.next config (.deliver event retryId)) := by
  obtain ⟨hq, hexit⟩ := h.exiting_inv hstate
  obtain ⟨r, hr, hrqty, -, -, hrstate, -, hretry⟩ :=
    onExitFilled_residual config (fillArgs event "SELL") hstate ht hrest
  have hdispatch : dispatchOrderEvent config event s.doc = _ :=
    (dispatch_fill htag hfill).trans (dispatchFill_exit_terminal hstate ht hr)
  have hleft : (applyExitFill (fillArgs event "") r.1).qty = s.doc.qty - event.filledQty := hrqty
  have hsettled : s.doc.qty - event.filledQty =
      (s.finish { o with filled := event.filledQty }).settled := by
    rw [settled_finish_exit (hexit o ho).1, hq]
  have hleftstate : (applyExitFill (fillArgs event "") r.1).state = .errored ∨
      (applyExitFill (fillArgs event "") r.1).state = .exitOrderPlaced := by
    show r.1.state = .errored ∨ r.1.state = .exitOrderPlaced
    rw [hrstate]
    split
    · exact .inl rfl
    · exact .inr rfl
  cases hplaced : retryOrder retryId (dispatchOrderEvent config event s.doc).2 with
  | none =>
    rw [next_deliver_quiet hplaced, hdispatch, Session.note_terminal ho hid ht]
    exact .residual hleftstate (hleft.trans hsettled) rfl
  | some retryPlaced =>
    obtain ⟨hleg, retry, hmem, hqty⟩ := retryOrder_eq_some hplaced
    have hretryqty : retry.qty = s.doc.qty - event.filledQty :=
      hretry retry (by rw [hdispatch] at hmem; exact hmem)
    simp only [Session.next, hplaced]
    rw [hdispatch, Session.note_terminal ho hid ht]
    exact .retried hleftstate (hleft.trans hsettled) rfl hleg
      (hqty.trans (hretryqty.trans hleft.symm))

/-- A fill of the exit order in flight. -/
theorem Tracks.deliver_exit_fill (h : Tracks s) (ho : s.inFlight = some o)
    (hid : o.id = event.ibOrderId) (htag : tagged config event = true)
    (hbound : event.filledQty ≤ o.qty) (hstate : s.doc.state = .exitOrderPlaced)
    (hfill : event.status ∈ fillStatuses) :
    Tracks (s.next config (.deliver event retryId)) := by
  cases ht : event.terminal with
  | false => exact h.deliver_exit_progress ho hid htag hstate hfill ht
  | true =>
    rcases le_or_gt s.doc.qty event.filledQty with hflat | hrest
    · exact h.deliver_exit_flat ho hid htag hbound hstate hfill ht hflat
    · exact h.deliver_exit_residual ho hid htag hstate hfill ht hrest

/-- An event of the order in flight. -/
theorem Tracks.deliver_inFlight (h : Tracks s) (ho : s.inFlight = some o)
    (hid : o.id = event.ibOrderId) (hledger : FromLedger config o event)
    (ha : Routed config event s.doc ∨ event.filledQty ≠ o.filled → OnLeg o.leg s.doc) :
    Tracks (s.next config (.deliver event retryId)) := by
  by_cases hmoves : Routed config event s.doc ∨ event.filledQty ≠ o.filled
  · have hon := ha hmoves
    by_cases hfill : event.status ∈ fillStatuses
    · cases hleg : o.leg with
      | entry =>
        rw [hleg] at hon
        exact h.deliver_entry_fill ho hid hledger.tag hleg hon hfill
      | exit =>
        rw [hleg] at hon
        exact h.deliver_exit_fill ho hid hledger.tag hledger.bound hon hfill
    · -- not a fill, so it is routed: the cancel of the order
      have hrouted : Routed config event s.doc :=
        hmoves.resolve_right fun hne => hne (hledger.status hfill)
      obtain ⟨-, ⟨hfill', -⟩ | ⟨ht, hcancel, hstate⟩⟩ := hrouted
      · exact absurd hfill' hfill
      · have hnone : event.filledQty = 0 := by
          rcases hledger.terminal ht with hfill' | ⟨-, hnone⟩
          · exact absurd hfill' hfill
          · exact hnone
        cases hleg : o.leg with
        | entry =>
          rw [hleg] at hon
          rcases hstate with hs | hs
          · exact h.deliver_entry_cancel ho hid hledger.tag hs ht hcancel hnone
          · rcases hon with h1 | h1 <;> simp [hs] at h1
        | exit =>
          rw [hleg] at hon
          exact h.deliver_exit_cancel ho hid hledger.tag hon ht hcancel hnone
  · rw [not_or, not_not] at hmoves
    exact h.deliver_quiet ho hid hledger hmoves.1 hmoves.2

-- ============================================================================
-- Runs
-- ============================================================================

/-- One input that meets the condition keeps the invariant. -/
theorem Tracks.next (h : Tracks s) {i : Input} (hp : Promised config s i)
    (ha : Attributed config s i) : Tracks (s.next config i) := by
  cases i with
  | start symbol => exact h.start ha
  | stop => exact h.stop
  | forceStop => exact .stopped (.inr rfl)
  | crash => exact h.crash
  | placeEntry id symbol qty serial => exact h.placeEntry ha
  | placeExit id qty => exact h.placeExit ha
  | captureOrderId id => exact h.captureOrderId
  | revertToState prior => exact h.revertToState ha
  | entryTimeout => exact h.entryTimeout ha
  | forceQuit => exact h.forceQuit ha
  | deliver event retryId =>
    by_cases hcurrent : s.isInFlight event
    · obtain ⟨o, ho, hid⟩ := hcurrent
      exact h.deliver_inFlight ho hid (hp o ho hid) (ha.1 o ho hid)
    · exact h.deliver_stale hcurrent (ha.2 hcurrent).1 (ha.2 hcurrent).2

theorem Tracks.tracked (h : Tracks s) : Tracked s := by
  rintro (hstate | hstate)
  · exact (h.entering_inv (.inr hstate)).2
  · obtain ⟨hq, hexit⟩ := h.holding_inv hstate
    rw [hq, Session.position_of_unfilled fun o ho => (hexit o ho).2]

/-- In every run whose inputs meet the condition, an event of an order that is not
    in flight leaves the state, the position and its average price, and while
    the bot waits for a trigger it tracks what its own orders filled. -/
theorem attribution (config : StrategyConfig) {doc : BotDoc} (hoff : doc.state = .off)
    {inputs : List Input}
    (h : Along (Session.next config) (fun s i => Promised config s i ∧ Attributed config s i)
      { doc := doc } inputs) :
    Tracked (inputs.foldl (Session.next config) { doc := doc }) ∧
      ∀ before event retryId after, inputs = before ++ .deliver event retryId :: after →
        LeavesTracking config (before.foldl (Session.next config) { doc := doc }) event := by
  constructor
  · have hinv : Tracks (inputs.foldl (Session.next config) { doc := doc }) :=
      Along.invariant (fun s i hs hi => hs.next hi.1 hi.2) inputs (.stopped (.inl hoff)) h
    exact hinv.tracked
  · rintro before event retryId after rfl hstale
    have hstep := ((Along.append before _).mp h).2.1.2
    obtain ⟨hstate, hqty, havg, -⟩ := dispatch_not_routed (hstep.2 hstale).1
    exact ⟨hstate, hqty, havg⟩

/-- A terminal event of an order at price 100. -/
def ended (id status side : String) (filledQty : ℚ) : LedgerEvent :=
  { ibOrderId := id, orderRef := "IBT:bot", symbol := "MES", secType := "FUT", conId := 0
    side := side, terminal := true, status := status, targetQty := 10, filledQty := filledQty
    avgPrice := some 100, totalCommission := 0, lastFillQty := none, lastFillPrice := none }

/-- An entry times out and its successor fills before its cancel arrives; the exit
    ends partly filled and its retry closes the position. -/
def supersededEntry : List Input :=
  [.start (some "MES"), .placeEntry "1" "MES" 10 none, .entryTimeout,
    .placeEntry "2" "MES" 10 none, .deliver (ended "2" "Filled" "BUY" 10) none,
    .deliver (ended "1" "Cancelled" "BUY" 0) none, .placeExit "3" 10,
    .deliver (ended "3" "PartialFillCancelled" "SELL" 4) (some "4"),
    .deliver (ended "4" "Filled" "SELL" 6) none]

theorem attribution_supersededEntry :
    Tracked (supersededEntry.foldl (Session.next { stopOnExit := false }) { doc := {} }) :=
  have halong : Along (Session.next { stopOnExit := false })
      (fun s i => Promised { stopOnExit := false } s i ∧ Attributed { stopOnExit := false } s i)
      { doc := {} } supersededEntry := by decide +kernel
  (attribution { stopOnExit := false } rfl halong).1

/-- Events are not always attributed: the cancel of an exit that `force_quit` has
    replaced puts the bot back to awaiting an exit while the new one works. -/
theorem attribution_fails :
    ¬∀ (config : StrategyConfig) (doc : BotDoc) (inputs : List Input),
      doc.state = .off → Along (Session.next config) (Promised config) { doc := doc } inputs →
      Tracked (inputs.foldl (Session.next config) { doc := doc }) ∧
        ∀ before event retryId after, inputs = before ++ .deliver event retryId :: after →
          LeavesTracking config (before.foldl (Session.next config) { doc := doc }) event := by
  intro hall
  have hreplaced := (hall {} {}
    [.start (some "MES"), .placeEntry "1" "MES" 10 none,
      .deliver (ended "1" "Filled" "BUY" 10) none, .placeExit "2" 10, .forceQuit,
      .placeExit "3" 10, .deliver (ended "2" "Cancelled" "SELL" 0) none]
    rfl (by decide +kernel)).2
    [.start (some "MES"), .placeEntry "1" "MES" 10 none,
      .deliver (ended "1" "Filled" "BUY" 10) none, .placeExit "2" 10, .forceQuit,
      .placeExit "3" 10] (ended "2" "Cancelled" "SELL" 0) none [] rfl
  have hmoved := (hreplaced (by decide +kernel)).1
  exact absurd hmoved (by decide +kernel)

end IbTrader.Bots.Runtime
