/-
  IbTrader.Engine.CloseQuantity

  What `execute_close` sends, and whether a trade can be closed twice over.

  The quantity is the entry's row less the FILLED and PARTIAL_FILL rows of closes
  and profit takers, so it is what is left of the entry exactly when the exit
  fills it leaves out match the entry fills it leaves out
  (`closeQuantity_eq_iff`).

  At IB the trade has the exit orders placed on the entry's fill, which are in one
  OCA group and so fill together no more than one of them, and the orders of the
  close commands.  The cancels of a close command are not waited for: its order
  goes out whatever is still on the book.  A smart-market close that runs out of
  time sends a second order, for what the status of its limit order leaves.  What
  all of them can fill stays within the entry as long as each is sent when the
  trade's exit orders have filled and can fill no more than the command knows of.
-/

import Mathlib.Tactic.Linarith
import IbTrader.Engine.ClosureSoundness
import IbTrader.Lib.VenueOrder

namespace IbTrader.Engine.Closing

open Lib Data

-- ============================================================================
-- The quantity sent
-- ============================================================================

/-- It is what is left of the entry exactly when as much of the exits as of the
    entry is left out. -/
theorem closeQuantity_eq_iff {h : History} (hb : Booked h) {q : ℚ}
    (hq : closeQuantity h.trade.rows = some q) :
    q = entryQty h.trade.rows - exitQty h.trade.rows ↔
      uncountedExits closedLegs h.trade.rows = uncountedEntry h.trade.rows := by
  rw [(closeQuantity_some hq).2, hb.entryFilledQty_eq, hb.countedQty_eq, uncountedExits,
    uncountedEntry]
  constructor <;> intro heq <;> linarith

-- ============================================================================
-- The exit orders at IB
-- ============================================================================

/-- A trade with its exit orders at IB: the OCA group of the entry's exits as one
    order, and the orders of the close commands. -/
structure Desk where
  history : History := {}
  exits : List (VenueOrder ℚ) := []
  /-- The close commands with an order out that may still cross to market. -/
  placed : List Sample := []

inductive Event where
  /-- A step of the engine or the daemon. -/
  | book (op : Op)
  /-- IB fills some more of an exit order. -/
  | fill (k : ℕ) (qty : ℚ)
  /-- An exit order leaves IB's book. -/
  | takenOff (k : ℕ)
  /-- A smart-market close crosses to market when its cancel wait has ended with
      `finalQty` filled. -/
  | cross (sample : Sample) (finalQty : ℚ)
  deriving DecidableEq, Repr

/-- The close command an op sends the order of. -/
def placedSample (h : History) : Op → Option Sample
  | .closePlaced sample id _ => if sample ∈ h.sampled ∧ h.IsFresh id then some sample else none
  | _ => none

/-- The exit quantity an op sends to IB. -/
def sentQty (h : History) : Op → Option ℚ
  | .entryFilled id qty _ _ exits | .entryPartial id qty _ _ exits =>
    if (h.waiting .entry id).isSome ∧ 0 < qty ∧ exits ≠ [] then some qty else none
  | op => (placedSample h op).map Sample.qty

/-- The residual a smart-market close sends to market. -/
def residualQty (sample : Sample) (finalQty : ℚ) : Option ℚ :=
  if 0 < sample.qty - finalQty then some (sample.qty - finalQty) else none

/-- An order of the quantity sent is on the book. -/
def sendExit (exits : List (VenueOrder ℚ)) : Option ℚ → List (VenueOrder ℚ)
  | some qty => if h : 0 ≤ qty then exits ++ [VenueOrder.place qty h] else exits
  | none => exits

def Desk.step (d : Desk) : Event → Desk
  | .book op =>
    { history := d.history.step op
      exits := sendExit d.exits (sentQty d.history op)
      placed := (placedSample d.history op).toList ++ d.placed }
  | .fill k qty => { d with exits := d.exits.modify k (·.fill qty) }
  | .takenOff k => { d with exits := d.exits.modify k VenueOrder.takeOff }
  | .cross sample finalQty =>
    if sample ∈ d.placed then
      { d with
        exits := sendExit d.exits (residualQty sample finalQty)
        placed := d.placed.erase sample }
    else d

def Desk.run (events : List Event) : Desk := events.foldl Desk.step {}

/-- The quantity exited at IB. -/
def Desk.exited (d : Desk) : ℚ := VenueOrder.totalFilled d.exits

/-- The quantity exited and that the exit orders at IB can still exit. -/
def Desk.exposure (d : Desk) : ℚ := VenueOrder.totalExposure d.exits

/-- The quantity entered. -/
def Desk.entered (d : Desk) : ℚ := entryQty d.history.trade.rows

/-- The close command an event sends an order of. -/
def sender (d : Desk) : Event → Option Sample
  | .book op => placedSample d.history op
  | .cross sample finalQty =>
    if sample ∈ d.placed ∧ finalQty < sample.qty then some sample else none
  | _ => none

/-- The exit quantity the command knows of when it sends: what it has subtracted,
    and for a residual what the status of its limit order said had filled. -/
def knownQty (sample : Sample) : Event → ℚ
  | .cross _ finalQty => sample.closedQty + finalQty
  | _ => sample.closedQty

/-- The condition on a step: an order is sent when the exit orders have filled and
    can still fill no more than the command knows of. -/
def SendsRest (d : Desk) (e : Event) : Prop :=
  ∀ sample ∈ sender d e, d.exposure ≤ knownQty sample e

instance (d : Desk) (e : Event) : Decidable (SendsRest d e) := by
  unfold SendsRest; cases sender d e <;> infer_instance

-- ============================================================================
-- The exposure of a trade
-- ============================================================================

/-- What holds along every run: close commands read part of what is entered, and
    before the entry has a row nothing is read or sent. -/
structure Sampled (d : Desk) : Prop where
  booked : Booked d.history
  sample_le : ∀ sample, sample ∈ d.history.sampled ∨ sample ∈ d.placed →
    0 < sample.qty ∧ sample.entryQty ≤ d.entered
  nothing_before : entryFills d.history.trade.rows = [] →
    d.history.sampled = [] ∧ d.exits = [] ∧ d.placed = []

theorem entryFills_eq_nil_of_subset {rows more : List TransactionEvent} (h : rows ⊆ more)
    (hmore : entryFills more = []) : entryFills rows = [] := by
  rw [List.eq_nil_iff_forall_not_mem] at hmore ⊢
  intro t ht
  obtain ⟨hfill, hleg⟩ := List.mem_filter.mp ht
  obtain ⟨hrow, hisfill⟩ := List.mem_filter.mp hfill
  exact hmore t (List.mem_filter.mpr ⟨List.mem_filter.mpr ⟨h hrow, hisfill⟩, hleg⟩)

/-- What is entered only grows. -/
theorem entered_le_step (d : Desk) (e : Event) : d.entered ≤ (d.step e).entered := by
  cases e with
  | book op => exact recordedQty_mono [.entry] (step_rows d.history op)
  | fill k qty => exact le_rfl
  | takenOff k => exact le_rfl
  | cross sample finalQty =>
    show d.entered ≤ (if sample ∈ d.placed then _ else d).entered
    split <;> exact le_rfl

theorem placedSample_some {h : History} {op : Op} {sample : Sample}
    (hs : placedSample h op = some sample) :
    sample ∈ h.sampled ∧ ∃ id multiplier, op = .closePlaced sample id multiplier := by
  unfold placedSample at hs
  split at hs
  case h_1 sample' id multiplier =>
    split at hs
    case isTrue hplaced =>
      obtain rfl := Option.some.inj hs
      exact ⟨hplaced.1, id, multiplier, rfl⟩
    case isFalse => cases hs
  case h_2 => cases hs

/-- The entry's row enters its quantity. -/
theorem recordEntry_entered {h : History} (p : Pending) {action : TransactionAction}
    (haction : action ∈ [TransactionAction.filled, .partialFill]) (qty avgPrice commission : ℚ)
    (exits : List ExitLeg) :
    entryFills (h.recordEntry p action qty avgPrice commission exits).trade.rows ≠ [] ∧
      qty ≤ entryQty (h.recordEntry p action qty avgPrice commission exits).trade.rows := by
  set row := entryFillRow p action qty avgPrice commission
  have hfill : row.stored.isFill = true := entryFillRow_isFill p haction qty avgPrice commission
  have hrow : row.stored ∈ (h.recordEntry p action qty avgPrice commission exits).trade.rows :=
    recordEntry_rows h p action qty avgPrice commission exits
      (List.mem_append_right _ (List.mem_singleton.mpr rfl))
  constructor
  · exact List.ne_nil_of_mem (List.mem_filter.mpr ⟨List.mem_filter.mpr ⟨hrow, hfill⟩, rfl⟩)
  · have hreports : row.stored.reportsFill = true := by
      rw [TransactionEvent.reportsFill, hfill, Bool.true_or]
    exact filledQty_le_recordedQty hrow hreports (List.mem_singleton.mpr rfl)

/-- An exit is sent with the entry's first row, for no more than is entered then, or
    by a close command that has read the trade. -/
theorem sentQty_some {h : History} (hb : Booked h) {op : Op} {q : ℚ} (hq : sentQty h op = some q) :
    (0 < q ∧ entryFills h.trade.rows = [] ∧ entryFills (h.step op).trade.rows ≠ [] ∧
        q ≤ entryQty (h.step op).trade.rows) ∨
      ∃ sample, placedSample h op = some sample ∧ q = sample.qty := by
  cases op with
  | entryFilled id qty avgPrice commission exits
    | entryPartial id qty avgPrice commission exits =>
    unfold sentQty at hq
    dsimp only at hq
    split at hq
    case isFalse => cases hq
    case isTrue hsent =>
      obtain rfl := Option.some.inj hq
      obtain ⟨p, hp⟩ := Option.isSome_iff_exists.mp hsent.1
      obtain ⟨hmem, -, hkind⟩ := waiting_some hp
      left
      refine ⟨hsent.2.1, (hb.pending_entry p hmem hkind).1, ?_⟩
      unfold History.step
      dsimp only
      rw [hp]
      dsimp only
      rw [if_pos hsent.2.1]
      exact recordEntry_entered p (by decide) qty avgPrice commission exits
  | closePlaced sample id multiplier =>
    obtain ⟨sample', hplaced, rfl⟩ := Option.map_eq_some_iff.mp hq
    exact .inr ⟨sample', hplaced, rfl⟩
  | _ => cases hq

theorem sendExit_exposure (exits : List (VenueOrder ℚ)) {q : ℚ} (hq : 0 ≤ q) :
    VenueOrder.totalExposure (sendExit exits (some q)) = VenueOrder.totalExposure exits + q := by
  unfold sendExit
  dsimp only
  rw [dif_pos hq, VenueOrder.totalExposure_append]
  simp [VenueOrder.totalExposure]

theorem Sampled.start : Sampled {} where
  booked := Booked.start
  sample_le := fun sample hs => by rcases hs with hs | hs <;> exact absurd hs List.not_mem_nil
  nothing_before := fun _ => ⟨rfl, rfl, rfl⟩

/-- What happens at IB touches none of it. -/
theorem Sampled.modify {d : Desk} (hd : Sampled d) (k : ℕ) (f : VenueOrder ℚ → VenueOrder ℚ) :
    Sampled { d with exits := d.exits.modify k f } where
  booked := hd.booked
  sample_le := hd.sample_le
  nothing_before := by
    intro hnone
    obtain ⟨hsampled, hexits, hplaced⟩ := hd.nothing_before hnone
    refine ⟨hsampled, ?_, hplaced⟩
    show d.exits.modify k f = []
    rw [hexits, List.modify_nil]

theorem Sampled.book {d : Desk} (hd : Sampled d) (op : Op) : Sampled (d.step (.book op)) := by
  refine ⟨hd.booked.step op, ?_, ?_⟩
  · intro sample hs
    have hgrow := entered_le_step d (.book op)
    have hold : sample ∈ d.history.sampled ∨ sample ∈ d.placed →
        0 < sample.qty ∧ sample.entryQty ≤ (d.step (.book op)).entered :=
      fun h => ⟨(hd.sample_le sample h).1, (hd.sample_le sample h).2.trans hgrow⟩
    rcases hs with hs | hs
    · rcases step_sampled hs with hs | ⟨-, hqty, hclose⟩
      · exact hold (.inl hs)
      · refine ⟨(closeQuantity_some hclose).1, le_trans ?_ hgrow⟩
        rw [hqty, hd.booked.entryFilledQty_eq]
        exact engineQty_le_recordedQty (List.Subset.refl _) _
    · rcases List.mem_append.mp hs with hs | hs
      · exact hold (.inl (placedSample_some (Option.mem_toList.mp hs)).1)
      · exact hold (.inr hs)
  · intro hnone
    have hbefore : entryFills d.history.trade.rows = [] :=
      entryFills_eq_nil_of_subset (step_rows d.history op) hnone
    obtain ⟨hsampled, hexits, hplaced⟩ := hd.nothing_before hbefore
    have hnosample : placedSample d.history op = none := by
      cases hs : placedSample d.history op with
      | none => rfl
      | some sample =>
        have hmem := (placedSample_some hs).1
        rw [hsampled] at hmem
        exact absurd hmem List.not_mem_nil
    refine ⟨?_, ?_, ?_⟩
    · rw [List.eq_nil_iff_forall_not_mem]
      intro sample hs
      rcases step_sampled hs with hs | ⟨hsome, -⟩
      · rw [hsampled] at hs
        exact List.not_mem_nil hs
      · exact hsome hbefore
    · show sendExit d.exits (sentQty d.history op) = []
      cases hq : sentQty d.history op with
      | none => exact hexits
      | some q =>
        rcases sentQty_some hd.booked hq with ⟨-, -, hsome, -⟩ | ⟨sample, hs, -⟩
        · exact absurd hnone hsome
        · rw [hnosample] at hs
          cases hs
    · show (placedSample d.history op).toList ++ d.placed = []
      rw [hnosample, hplaced]
      rfl

theorem Sampled.cross {d : Desk} (hd : Sampled d) (sample : Sample) (finalQty : ℚ) :
    Sampled (d.step (.cross sample finalQty)) := by
  show Sampled (if sample ∈ d.placed then _ else d)
  split
  case isFalse => exact hd
  case isTrue hmem =>
    refine ⟨hd.booked, fun other hs => hd.sample_le other (hs.imp_right List.mem_of_mem_erase), ?_⟩
    intro hnone
    rw [(hd.nothing_before hnone).2.2] at hmem
    exact absurd hmem List.not_mem_nil

theorem Sampled.step {d : Desk} (hd : Sampled d) (e : Event) : Sampled (d.step e) := by
  cases e with
  | fill k qty => exact hd.modify k _
  | takenOff k => exact hd.modify k _
  | book op => exact hd.book op
  | cross sample finalQty => exact hd.cross sample finalQty

/-- An order of a close command adds what the entry it has read leaves over what
    it knows of. -/
theorem sender_exposure {d : Desk} (hd : Sampled d) {e : Event} {sample : Sample}
    (hs : sender d e = some sample) :
    (d.step e).exposure = d.exposure + (sample.entryQty - knownQty sample e) ∧
      sample.entryQty ≤ d.entered := by
  cases e with
  | book op =>
    have hplaced : placedSample d.history op = some sample := hs
    obtain ⟨hmem, id, multiplier, rfl⟩ := placedSample_some hplaced
    obtain ⟨hpos, hle⟩ := hd.sample_le sample (.inl hmem)
    have hsent : sentQty d.history (.closePlaced sample id multiplier) = some sample.qty := by
      show (placedSample _ _).map _ = _
      rw [hplaced]
      rfl
    refine ⟨?_, hle⟩
    show VenueOrder.totalExposure (sendExit d.exits (sentQty d.history _)) = _
    rw [hsent, sendExit_exposure d.exits hpos.le]
    rfl
  | cross sample' finalQty =>
    unfold sender at hs
    dsimp only at hs
    split at hs
    case isFalse => cases hs
    case isTrue hcross =>
      obtain rfl := Option.some.inj hs
      obtain ⟨-, hle⟩ := hd.sample_le sample' (.inr hcross.1)
      have hpos : 0 < sample'.qty - finalQty := sub_pos.mpr hcross.2
      refine ⟨?_, hle⟩
      show (if sample' ∈ d.placed then _ else d).exposure = _
      rw [if_pos hcross.1]
      show VenueOrder.totalExposure (sendExit d.exits (residualQty sample' finalQty)) = _
      rw [residualQty, if_pos hpos, sendExit_exposure d.exits hpos.le]
      show d.exposure + (sample'.entryQty - sample'.closedQty - finalQty) =
        d.exposure + (sample'.entryQty - (sample'.closedQty + finalQty))
      linarith
  | fill k qty => cases hs
  | takenOff k => cases hs

/-- Any other step keeps the exposure within what is entered. -/
theorem exposure_le_of_not_sender {d : Desk} (hd : Sampled d) (h : d.exposure ≤ d.entered)
    {e : Event} (hs : sender d e = none) : (d.step e).exposure ≤ (d.step e).entered := by
  have hgrow := entered_le_step d e
  cases e with
  | fill k qty =>
    have hle := VenueOrder.totalExposure_modify_le
      (fun o : VenueOrder ℚ => (o.exposure_fill qty).le) d.exits k
    exact hle.trans h
  | takenOff k =>
    have hle := VenueOrder.totalExposure_modify_le
      (fun o : VenueOrder ℚ => o.exposure_takeOff_le) d.exits k
    exact hle.trans h
  | book op =>
    show VenueOrder.totalExposure (sendExit d.exits (sentQty d.history op)) ≤ _
    cases hq : sentQty d.history op with
    | none => exact h.trans hgrow
    | some q =>
      rcases sentQty_some hd.booked hq with ⟨hpos, hnone, -, hle⟩ | ⟨sample, hplaced, -⟩
      · rw [(hd.nothing_before hnone).2.1, sendExit_exposure [] hpos.le]
        exact (zero_add q).le.trans hle
      · have hnoplaced : placedSample d.history op = none := hs
        rw [hnoplaced] at hplaced
        cases hplaced
  | cross sample finalQty =>
    show (if sample ∈ d.placed then _ else d).exposure ≤ (if sample ∈ d.placed then _ else d).entered
    split
    case isFalse => exact h
    case isTrue hmem =>
      have hnothing : ¬0 < sample.qty - finalQty := by
        intro hpos
        unfold sender at hs
        dsimp only at hs
        rw [if_pos ⟨hmem, sub_pos.mp hpos⟩] at hs
        cases hs
      show VenueOrder.totalExposure (sendExit d.exits (residualQty sample finalQty)) ≤ d.entered
      rw [residualQty, if_neg hnothing]
      exact h

/-- The exposure stays within the entry when no more is sent than the rest. -/
theorem exposure_le_step {d : Desk} (hd : Sampled d) (h : d.exposure ≤ d.entered) {e : Event}
    (he : SendsRest d e) : (d.step e).exposure ≤ (d.step e).entered := by
  cases hs : sender d e with
  | none => exact exposure_le_of_not_sender hd h hs
  | some sample =>
    obtain ⟨hexposure, hle⟩ := sender_exposure hd hs
    have hrest := he sample hs
    calc (d.step e).exposure = d.exposure + (sample.entryQty - knownQty sample e) := hexposure
      _ ≤ knownQty sample e + (sample.entryQty - knownQty sample e) := add_le_add hrest le_rfl
      _ = sample.entryQty := add_sub_cancel _ _
      _ ≤ (d.step e).entered := hle.trans (entered_le_step d e)

/-- Sending an order of a command that has read all of the entry keeps the
    exposure within the entry exactly when it is for no more than the rest. -/
theorem sender_exposure_le_iff {d : Desk} (hd : Sampled d) {e : Event} {sample : Sample}
    (hs : sender d e = some sample) (hentry : sample.entryQty = d.entered) :
    (d.step e).exposure ≤ d.entered ↔ SendsRest d e := by
  have hrest : SendsRest d e ↔ d.exposure ≤ knownQty sample e := by
    simp [SendsRest, hs]
  rw [hrest, (sender_exposure hd hs).1, hentry]
  constructor <;> intro h <;> linarith

theorem sampled_run (events : List Event) : Sampled (Desk.run events) :=
  List.foldlRecOn events Desk.step Sampled.start fun _ hd e _ => hd.step e

/-- In every run that sends no more than the rest, the exit orders of the trade
    can never exit more than was entered. -/
theorem exposure_le_run {events : List Event} (h : Along Desk.step SendsRest {} events) :
    (Desk.run events).exposure ≤ (Desk.run events).entered := by
  have hinv : Sampled (Desk.run events) ∧ (Desk.run events).exposure ≤ (Desk.run events).entered := by
    refine Along.invariant (I := fun d => Sampled d ∧ d.exposure ≤ d.entered) ?_ events ?_ h
    · intro d e hd he
      exact ⟨hd.1.step e, exposure_le_step hd.1 hd.2 he⟩
    · exact ⟨Sampled.start, le_rfl⟩
  exact hinv.2

/-- What a close command sends is what is left of the entry exactly when as much
    of the exits as of the entry is left out of its rows.  In every run that sends
    no more than the rest, no more is exited than entered; and an order of a
    command that has read all of the entry, sent otherwise, lets more exit than was
    entered. -/
theorem close_sends_rest (ops : List Op) (events : List Event) :
    (∀ q, closeQuantity (History.run ops).trade.rows = some q →
      (q = entryQty (History.run ops).trade.rows - exitQty (History.run ops).trade.rows ↔
        uncountedExits closedLegs (History.run ops).trade.rows =
          uncountedEntry (History.run ops).trade.rows)) ∧
    (Along Desk.step SendsRest {} events → ∀ sofar, sofar <+: events →
      (Desk.run sofar).exited ≤ (Desk.run sofar).entered) ∧
    ∀ e sample, sender (Desk.run events) e = some sample →
      sample.entryQty = (Desk.run events).entered →
      ((Desk.run (events ++ [e])).exposure ≤ (Desk.run events).entered ↔
        SendsRest (Desk.run events) e) := by
  refine ⟨fun q hq => closeQuantity_eq_iff (booked_run ops) hq, ?_, ?_⟩
  · rintro halong sofar ⟨rest, rfl⟩
    have hbound := exposure_le_run ((Along.append sofar rest).mp halong).1
    exact (VenueOrder.totalFilled_le_totalExposure _).trans hbound
  · intro e sample hs hentry
    have hlast : Desk.run (events ++ [e]) = (Desk.run events).step e := by
      simp [Desk.run, List.foldl_append]
    rw [hlast]
    exact sender_exposure_le_iff (sampled_run events) hs hentry

/-- Ten bought with a profit taker, and four of them taken off by it. -/
def profitTakerFillsFour : List Op :=
  [.entryPlaced 1 .buy 10 none,
    .entryFilled 1 10 100 1 [{ kind := .profitTaker, ibOrderId := 2 }],
    .exitFilled 2 4 101 1]

/-- The command reads that four are closed. -/
def sixLeft : Sample := { side := .sell, entryQty := 10, closedQty := 4 }

/-- The profit taker fills four and is cancelled before the close order is sent;
    of this two fill, it is cancelled, and the rest crosses to market. -/
def closesTheRest : List Event :=
  [.book (.entryPlaced 1 .buy 10 none),
    .book (.entryFilled 1 10 100 1 [{ kind := .profitTaker, ibOrderId := 2 }]),
    .fill 0 4, .book (.exitFilled 2 4 101 1), .book .closeSampled, .takenOff 0,
    .book (.closePlaced sixLeft 3 none), .fill 1 2, .takenOff 1]

theorem close_sends_rest_of_profit_taker :
    ((6 : ℚ) = entryQty (History.run profitTakerFillsFour).trade.rows -
        exitQty (History.run profitTakerFillsFour).trade.rows ↔
      uncountedExits closedLegs (History.run profitTakerFillsFour).trade.rows =
        uncountedEntry (History.run profitTakerFillsFour).trade.rows) ∧
    (Desk.run (closesTheRest ++ [.cross sixLeft 2, .fill 2 4])).exited ≤
      (Desk.run (closesTheRest ++ [.cross sixLeft 2, .fill 2 4])).entered ∧
    ((Desk.run (closesTheRest ++ [.cross sixLeft 2])).exposure ≤ (Desk.run closesTheRest).entered ↔
      SendsRest (Desk.run closesTheRest) (.cross sixLeft 2)) :=
  ⟨(close_sends_rest profitTakerFillsFour []).1 6 (by decide +kernel),
    (close_sends_rest [] (closesTheRest ++ [.cross sixLeft 2, .fill 2 4])).2.1 (by decide +kernel)
      _ (List.prefix_refl _),
    (close_sends_rest [] closesTheRest).2.2 (.cross sixLeft 2) sixLeft (by decide +kernel)
      (by decide +kernel)⟩

/-- A close command can send more than is left, and more can be exited than was
    entered: of ten bought a stop loss takes off four, the command sends ten, and
    they fill. -/
theorem close_over_closes :
    (¬∀ ops q, closeQuantity (History.run ops).trade.rows = some q →
      q = entryQty (History.run ops).trade.rows - exitQty (History.run ops).trade.rows) ∧
    ¬∀ events, (Desk.run events).exited ≤ (Desk.run events).entered := by
  constructor
  · intro hall
    have h := hall [.entryPlaced 1 .buy 10 none,
      .entryFilled 1 10 100 1 [{ kind := .stopLoss, ibOrderId := 2 }], .exitFilled 2 4 99 1] 10
      (by decide +kernel)
    exact absurd h (by decide +kernel)
  · intro hall
    have h := hall [.book (.entryPlaced 1 .buy 10 none),
      .book (.entryFilled 1 10 100 1 [{ kind := .stopLoss, ibOrderId := 2 }]),
      .fill 0 4, .book (.exitFilled 2 4 99 1), .book .closeSampled, .takenOff 0,
      .book (.closePlaced { side := .sell, entryQty := 10, closedQty := 0 } 3 none), .fill 1 10]
    exact absurd h (by decide +kernel)

end IbTrader.Engine.Closing
