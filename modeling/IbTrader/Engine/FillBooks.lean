/-
  IbTrader.Engine.FillBooks

  When the books hold what IB has filled of an order, whichever command placed it
  and whenever it fills (`booked_iff`).

  The rows of a trade are written by its commands, in any interleaving with each
  other and with the executions delivered to `on_fill`; at the end the daemon runs
  one pass.  IB gives every order a number of its own.
-/

import IbTrader.Engine.CommandRows

namespace IbTrader.Engine.OrderFlow

open Lib Fallible Data Closing Booking
open SmartMarket (OrderStatus)

-- ============================================================================
-- The commands of a trade
-- ============================================================================

/-- A command that places orders, with what its awaits come back with.  A close by
    ticker places its order as an entry does. -/
inductive Placer where
  | entry (o : OrderContext) (cmd : Command) (placed : Reply Unit) (run : EntryRun) (a : Replies)
  /-- A close by serial number, with the rows it finds. -/
  | close (cmd : CloseCommand) (a : CloseReplies) (rows : List TransactionEvent)

/-- The rows the command writes. -/
def Placer.rows : Placer → List TransactionEvent
  | .entry o cmd placed run a => (left (executeOrder o cmd placed run a) {}).trade.rows
  | .close cmd a rows => (left (executeClose cmd a) { trade := { rows } }).trade.rows.drop rows.length

/-- The quantity the command has read last of an order, if it books it. -/
def Placer.readQty (id : ℤ) : Placer → List ℚ
  | .entry o _ placed run a => entryReadQty o placed run a id
  | .close cmd a rows => closeReadQty cmd a rows id

/-- The order is not a profit taker or stop loss of the command. -/
def Placer.Own (id : ℤ) : Placer → Prop
  | .entry _ _ _ _ a => OwnNumber a id
  | .close .. => True

/-- A command writes what it has read, and no placement under another's number. -/
theorem Placer.wrote (p : Placer) (id : ℤ) :
    fillQtys id p.rows = p.readQty id ∧ (p.Own id → NoExitPlacement id p.rows) := by
  cases p with
  | entry o cmd placed run a =>
    have hwrites : Writes id (OwnNumber a id) (entryReadQty o placed run a id)
        (executeOrder o cmd placed run a) {} := writes_executeOrder
    obtain ⟨rows, hrows, hqtys, hplacement⟩ := (wp_left _ _).mp hwrites
    rw [Placer.rows, hrows]
    exact ⟨hqtys, hplacement⟩
  | close cmd a before =>
    have hwrites : Writes id True (closeReadQty cmd a before id) (executeClose cmd a)
        { trade := { rows := before } } := writes_executeClose
    obtain ⟨rows, hrows, hqtys, hplacement⟩ := (wp_left _ _).mp hwrites
    rw [Placer.rows, hrows, List.drop_left]
    exact ⟨hqtys, hplacement⟩

/-- The numbers of the entry's own orders. -/
def EntryRun.numbers (o : OrderContext) : EntryRun → List ℤ
  | .smartMarket marketId _ => [o.ibOrderId, marketId]
  | _ => [o.ibOrderId]

/-- The order is not the command's. -/
def Placer.Foreign (id : ℤ) : Placer → Prop
  | .entry o _ _ run a => OwnNumber a id ∧ id ∉ run.numbers o
  | .close _ a _ => a.placed.value ≠ .ok id

/-- IB does not give a protective order the number of an order of the entry. -/
def Placer.Numbered (id : ℤ) : Placer → Prop
  | .entry o _ _ run a => OwnNumber a id ∨ id ∉ run.numbers o
  | .close .. => True

-- ============================================================================
-- Orders of others
-- ============================================================================

theorem bookedFor_of_ne {id ibOrderId : ℤ} (h : ibOrderId ≠ id) (qty : ℚ) :
    bookedFor id ibOrderId qty = [] := if_neg h

/-- An ending that books a partial fill books it under an order of the entry. -/
theorem mem_numbers_of_partlyFilled {o : OrderContext} {run : EntryRun} {ibOrderId : ℤ}
    {qtyFilled commission : ℚ} {avgPrice : Option ℚ}
    (h : run.ending o = .partlyFilled ibOrderId qtyFilled avgPrice commission) :
    ibOrderId ∈ run.numbers o := by
  cases run with
  | raised => cases h
  | resting r =>
    dsimp only [EntryRun.ending, RestingReadings.ending] at h
    split_ifs at h
  | mid r =>
    dsimp only [EntryRun.ending, MidReadings.ending, MidReadings.outcome] at h
    split_ifs at h <;> cases h <;> exact List.mem_singleton.mpr rfl
  | bidAsk r =>
    dsimp only [EntryRun.ending, BidAskReadings.ending] at h
    split_ifs at h <;> cases h <;> exact List.mem_singleton.mpr rfl
  | market r =>
    dsimp only [EntryRun.ending, MarketReadings.ending] at h
    split_ifs at h <;> cases h <;> exact List.mem_singleton.mpr rfl
  | smartMarket marketId run =>
    dsimp only [EntryRun.ending, smartEnding] at h
    split at h <;> cases h
    · exact List.mem_cons_self
    · exact List.mem_cons_of_mem _ (List.mem_singleton.mpr rfl)

theorem partReadQty_of_ne {o : OrderContext} {a : Replies} {id ibOrderId : ℤ}
    (h : ibOrderId ≠ id) (ho : o.ibOrderId ≠ id) (qtyFilled : ℚ) :
    partReadQty o a id ibOrderId qtyFilled = [] := by
  unfold partReadQty
  split
  · rfl
  · dsimp only
    split
    · exact bookedFor_of_ne ho _
    · exact bookedFor_of_ne h _

theorem entryReadQty_of_not_mem {o : OrderContext} {placed : Reply Unit} {run : EntryRun}
    {a : Replies} {id : ℤ} (h : id ∉ run.numbers o) : entryReadQty o placed run a id = [] := by
  have ho : o.ibOrderId ≠ id := by
    rintro rfl
    refine h ?_
    cases run <;> exact List.mem_cons_self
  unfold entryReadQty
  split
  case h_2 => rfl
  case h_1 =>
    cases hending : run.ending o with
    | filled qtyFilled avgPrice commission => exact bookedFor_of_ne ho _
    | partlyFilled ibOrderId qtyFilled avgPrice commission =>
      refine partReadQty_of_ne ?_ ho _
      rintro rfl
      exact h (mem_numbers_of_partlyFilled hending)
    | marketRefused recorded =>
      cases recorded with
      | none => rfl
      | some recorded => exact partReadQty_of_ne ho ho _
    | expired =>
      dsimp only [Ending.readQty]
      split
      · rfl
      · split
        · exact bookedFor_of_ne ho _
        · rfl
    | raised | rejected | notRouted | letBe | inactive | canceledByIb | gaveUp => rfl

theorem closeReadQty_of_ne {cmd : CloseCommand} {a : CloseReplies} {rows : List TransactionEvent}
    {id : ℤ} (h : a.placed.value ≠ .ok id) : closeReadQty cmd a rows id = [] := by
  unfold closeReadQty
  split
  case h_2 => rfl
  case h_1 =>
    split
    case isFalse => rfl
    case isTrue =>
      split
      case h_2 => rfl
      case h_1 ibOrderId _ hplaced =>
        have hne : ibOrderId ≠ id := by
          rintro rfl
          exact h hplaced
        unfold bookedForSome
        simp [bookedFor_of_ne hne]

/-- A command books nothing of another's order. -/
theorem Placer.Foreign.wrote {p : Placer} {id : ℤ} (h : p.Foreign id) :
    fillQtys id p.rows = [] ∧ NoExitPlacement id p.rows := by
  obtain ⟨hqtys, hplacement⟩ := p.wrote id
  cases p with
  | entry o cmd placed run a =>
    exact ⟨hqtys.trans (entryReadQty_of_not_mem h.2), hplacement h.1⟩
  | close cmd a rows => exact ⟨hqtys.trans (closeReadQty_of_ne h), hplacement trivial⟩

-- ============================================================================
-- The rows of a run
-- ============================================================================

/-- The rows the commands write, in the order of the run. -/
def writes (steps : List BookStep) : List TransactionEvent :=
  steps.filterMap fun
    | .write event => some event
    | .deliver .. => none

theorem mem_writes {steps : List BookStep} {event : TransactionEvent} :
    event ∈ writes steps ↔ .write event ∈ steps := by
  unfold writes
  rw [List.mem_filterMap]
  constructor
  · rintro ⟨step, hstep, heq⟩
    cases step with
    | write other => cases heq; exact hstep
    | deliver => cases heq
  · exact fun h => ⟨_, h, rfl⟩

theorem written_eq (steps : List BookStep) (rows : List TransactionEvent) :
    written rows steps = rows ++ (writes steps).map (·.stored) := by
  induction steps generalizing rows with
  | nil => exact (List.append_nil rows).symm
  | cons step later ih =>
    cases step with
    | write event =>
      rw [written, ih, Data.insert, List.append_assoc]
      rfl
    | deliver ibOrderId execution => exact ih rows

theorem fillQtys_written (id : ℤ) (steps : List BookStep) :
    fillQtys id (written [] steps) = fillQtys id (writes steps) := by
  rw [written_eq, List.nil_append]
  unfold fillQtys
  rw [List.filter_map, List.map_map]
  rfl

theorem noExitPlacement_written_iff {id : ℤ} {steps : List BookStep} :
    NoExitPlacement id (written [] steps) ↔ NoExitPlacement id (writes steps) := by
  rw [written_eq, List.nil_append, NoExitPlacement, List.forall_mem_map]
  rfl

/-- The rows of the run are those of the commands, in any interleaving. -/
def RowsOf (commands : List Placer) (steps : List BookStep) : Prop :=
  (writes steps).Perm (commands.flatMap Placer.rows)

instance (commands : List Placer) (steps : List BookStep) : Decidable (RowsOf commands steps) := by
  unfold RowsOf; infer_instance

/-- Other commands book nothing of the order. -/
theorem foreign_rows {id : ℤ} {others : List Placer} (h : ∀ q ∈ others, q.Foreign id) :
    fillQtys id (others.flatMap Placer.rows) = [] ∧
      NoExitPlacement id (others.flatMap Placer.rows) := by
  induction others with
  | nil => exact ⟨rfl, List.forall_mem_nil _⟩
  | cons q later ih =>
    obtain ⟨hqtys, hplacement⟩ := (h q List.mem_cons_self).wrote
    obtain ⟨hlater, hrest⟩ := ih fun q hq => h q (List.mem_cons_of_mem _ hq)
    rw [List.flatMap_cons]
    exact ⟨by rw [fillQtys_append, hqtys, hlater, List.append_nil],
      List.forall_mem_append.mpr ⟨hplacement, hrest⟩⟩

section Runs

variable {p : Placer} {others : List Placer} {id : ℤ} {steps : List BookStep}

/-- Of the rows of a run, those about the fills of the order are its command's. -/
theorem RowsOf.fillQtys_perm (h : RowsOf (p :: others) steps) (hothers : ∀ q ∈ others, q.Foreign id) :
    (fillQtys id (writes steps)).Perm (p.readQty id) := by
  have hrows := ((h : (writes steps).Perm _).filter (bookRow id)).map (·.filledQty)
  have hfill : fillQtys id ((p :: others).flatMap Placer.rows) = p.readQty id := by
    rw [List.flatMap_cons, fillQtys_append, (foreign_rows hothers).1, List.append_nil, (p.wrote id).1]
  rwa [← hfill]

theorem RowsOf.noExitPlacement (h : RowsOf (p :: others) steps)
    (hothers : ∀ q ∈ others, q.Foreign id) (hown : p.Own id) : NoExitPlacement id (writes steps) := by
  intro row hrow
  have hmem : row ∈ p.rows ++ others.flatMap Placer.rows := (h : (writes steps).Perm _).mem_iff.mp hrow
  rcases List.mem_append.mp hmem with hmem | hmem
  · exact (p.wrote id).2 hown row hmem
  · exact (foreign_rows hothers).2 row hmem

/-- No command writes a fill row of an order it books nothing of. -/
theorem RowsOf.noFillWritten (h : RowsOf (p :: others) steps) (hothers : ∀ q ∈ others, q.Foreign id)
    (hnone : p.readQty id = []) : NoFillWritten id steps := by
  have hqtys : fillQtys id (writes steps) = [] := by
    have hperm := h.fillQtys_perm hothers
    rw [hnone] at hperm
    exact hperm.eq_nil
  intro event hevent
  have hnot := List.filter_eq_nil_iff.mp (List.map_eq_nil_iff.mp hqtys) event (mem_writes.mpr hevent)
  exact Bool.eq_false_iff.mpr hnot

/-- Of an order that is no exit order of its command, the books hold what the
    command books. -/
theorem booked_of_own (hothers : ∀ q ∈ others, q.Foreign id) (hrows : RowsOf (p :: others) steps)
    (hown : p.Own id) : booked id (book {} steps).rows = (p.readQty id).foldr max 0 := by
  have hplacement := noExitPlacement_written_iff.mpr (hrows.noExitPlacement hothers hown)
  rw [booked_eq, fillQtys_book steps {} [] (List.forall_mem_nil _) rfl hplacement, fillQtys_written]
  exact (hrows.fillQtys_perm hothers).foldr_eq' (fun x _ y _ z => max_left_comm y x z) 0

/-- An exit order of a command is none of its entry orders. -/
theorem readQty_of_not_own (hnumbered : p.Numbered id) (hown : ¬p.Own id) :
    p.readQty id = [] := by
  cases p with
  | entry o cmd placed run a => exact entryReadQty_of_not_mem (hnumbered.resolve_left hown)
  | close cmd a rows => exact absurd trivial hown

/-- When the books hold what IB fills of an order of the command.  An order of the
    entry or of a close fills what its coroutine has read when it ends, all of it and
    no more, or nothing if the ending books nothing; an exit order does not fill, or
    fills in one execution once its placement and the priced entry are on the books. -/
def Placer.Books (p : Placer) (id : ℤ) (steps : List BookStep) : Prop :=
  (p.Own id → filledQty id steps = (p.readQty id).foldr max 0) ∧
    (¬p.Own id → BookedWhole id [] steps)

/-- After one pass of the daemon the largest `ib_filled_qty` of the order is what IB
    has filled of it, exactly under this condition. -/
theorem booked_iff (p : Placer) (others : List Placer) (id : ℤ) (ib : DaemonClient)
    (steps : List BookStep) (hnumbered : p.Numbered id) (hothers : ∀ q ∈ others, q.Foreign id)
    (hrows : RowsOf (p :: others) steps) :
    booked id (runReconciliation ib (book {} steps)).rows = filledQty id steps ↔
      p.Books id steps := by
  rw [runReconciliation_eq, Placer.Books]
  by_cases hown : p.Own id
  · rw [booked_of_own hothers hrows hown]
    exact ⟨fun h => ⟨fun _ => h.symm, fun hnot => absurd hown hnot⟩, fun h => (h.1 hown).symm⟩
  · have hnone := hrows.noFillWritten hothers (readQty_of_not_own hnumbered hown)
    have hreads : SameReads [] (({} : Trade)).rows := ⟨fun _ => rfl, rfl, rfl⟩
    rw [booked_exit_iff steps {} [] hreads rfl hnone]
    exact ⟨fun h => ⟨fun h' => absurd h' hown, fun _ => h⟩, fun h => h.2 hown⟩

end Runs

-- ============================================================================
-- A buy that fills when its coroutine has returned
-- ============================================================================

/-- A limit buy of 10 that is live when it is left to itself. -/
def leftAlone : Placer :=
  .entry { tradeSerial := 1, ibOrderId := 101, side := .buy, qtyRequested := 10 } {}
    { value := .ok () }
    (.resting { ack := { status := "Submitted" }, final := { status := "Submitted" } }) {}

/-- The same buy, filled while it is watched. -/
def filledAtOnce : Placer :=
  .entry { tradeSerial := 1, ibOrderId := 101, side := .buy, qtyRequested := 10 } {}
    { value := .ok () }
    (.resting
      { ack := { status := "Submitted" }
        final := { status := "Filled", qtyFilled := 10, avgFillPrice := some 20 } }) {}

/-- IB fills all of it. -/
def fillOfTen : Execution := ⟨⟨10, 20, 1⟩, by norm_num⟩

/-- The daemon's client has seen the fill. -/
def filledClient : DaemonClient where
  openOrders := []
  activeTrades := [("101", { status := "Filled", qtyFilled := 10, avgFillPrice := some 20 })]

/-- What the command writes, and then the fill. -/
def fillLater (p : Placer) : List BookStep := p.rows.map .write ++ [.deliver 101 fillOfTen]

theorem rowsOf_fillLater (p : Placer) : RowsOf [p] (fillLater p) := by
  unfold RowsOf fillLater writes
  simp [List.filterMap_map]

theorem booked_filledAtOnce :
    booked 101 (runReconciliation filledClient (book {} (fillLater filledAtOnce))).rows =
      filledQty 101 (fillLater filledAtOnce) := by
  have hread : filledQty 101 (fillLater filledAtOnce) =
      (filledAtOnce.readQty 101).foldr max 0 := by decide +kernel
  have hown : filledAtOnce.Own 101 := ⟨by decide, by decide⟩
  exact (booked_iff filledAtOnce [] 101 filledClient (fillLater filledAtOnce) (.inl hown)
    (List.forall_mem_nil _) (rowsOf_fillLater _)).mpr ⟨fun _ => hread, fun h => absurd hown h⟩

theorem unbooked_leftAlone :
    leftAlone.Numbered 101 ∧ RowsOf [leftAlone] (fillLater leftAlone) ∧
      booked 101 (runReconciliation filledClient (book {} (fillLater leftAlone))).rows = 0 ∧
      filledQty 101 (fillLater leftAlone) = 10 :=
  ⟨.inl ⟨by decide, by decide⟩, rowsOf_fillLater _, by decide +kernel, by decide +kernel⟩

end IbTrader.Engine.OrderFlow
