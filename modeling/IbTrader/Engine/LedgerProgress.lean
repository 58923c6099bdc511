/-
  IbTrader.Engine.LedgerProgress

  What the progress events of the ledger say while IB ends no order.

  An entry may be created by any of the three calls, and `register` fills in what the
  other two did not know.  Whichever comes first, the entry of an order has the fills
  recorded for it (`Recorded`), so each progress event adds up those fills
  (`progress_arithmetic`).
-/

import IbTrader.Engine.OrderLedgerReroute

namespace IbTrader.Engine.OrderLedger

open Lib

-- ============================================================================
-- Fills
-- ============================================================================

/-- The fill that a call records for an order. -/
def Call.fillOf (id : String) : Call → Option Fill
  | .recordFill id' fill .. => if id' = id then some fill else none
  | .register .. | .recordStatus .. => none

/-- The fills recorded for an order. -/
def recordedFills (id : String) (cs : List Call) : List Fill := cs.filterMap (Call.fillOf id)

/-- The mean of the prices weighted by quantity; none where nothing is filled. -/
def meanPrice (fills : List Fill) : Option ℚ :=
  if (fills.map Fill.qty).sum = 0 then none
  else some ((fills.map fun fill => fill.qty * fill.price).sum / (fills.map Fill.qty).sum)

/-- A call about an order that ib_async knows, with a status that does not end it. -/
def Call.ongoing (c : Call) : Prop :=
  c.ibOrderId ∉ phantomIbOrderIds ∧
    match c with
    | .recordStatus _ status .. => status ∉ terminalStatuses
    | .register .. | .recordFill .. => True

instance : DecidablePred Call.ongoing
  | .recordStatus .. => inferInstanceAs (Decidable (_ ∧ _))
  | .register .. | .recordFill .. => inferInstanceAs (Decidable (_ ∧ True))

theorem recordedFills_append (id : String) (cs ds : List Call) :
    recordedFills id (cs ++ ds) = recordedFills id cs ++ recordedFills id ds := List.filterMap_append

theorem recordedFills_of_ne {id : String} {c : Call} (h : id ≠ c.ibOrderId) : recordedFills id [c] = [] := by
  cases c with
  | recordFill id' fill => simp [recordedFills, Call.fillOf, show id' ≠ id from fun heq => h heq.symm]
  | register => rfl
  | recordStatus => rfl

/-- The fills in the ledger. -/
def Ledger.fills (l : Ledger) (id : String) : List Fill := ((l.get id).map LedgerEntry.fills).getD []

theorem Ledger.fills_of_get {l : Ledger} {id : String} {e : LedgerEntry} (h : l.get id = some e) :
    l.fills id = e.fills := by
  rw [Ledger.fills, h]
  rfl

theorem Ledger.fills_of_none {l : Ledger} {id : String} (h : l.get id = none) : l.fills id = [] := by
  rw [Ledger.fills, h]
  rfl

-- ============================================================================
-- Steps
-- ============================================================================

/-- What a call that ends no order does: it stores an entry, with the fill that it
    records, and emits one event of it. -/
structure Progress (l : Ledger) (c : Call) (e : LedgerEntry) : Prop where
  id : e.ibOrderId = c.ibOrderId
  fills : e.fills = l.fills c.ibOrderId ++ recordedFills c.ibOrderId [c]
  stored : (step l c).1 = l.put e
  emitted : ∃ status lastQty lastPrice, (step l c).2 = [makeEvent e false status lastQty lastPrice]

theorem Progress.of_step {l : Ledger} {c : Call} {e : LedgerEntry} {status : String} {lastQty lastPrice : Option ℚ}
    (hstep : step l c = (l.put e, [makeEvent e false status lastQty lastPrice])) (hid : e.ibOrderId = c.ibOrderId)
    (hfills : e.fills = l.fills c.ibOrderId ++ recordedFills c.ibOrderId [c]) : Progress l c e where
  id := hid
  fills := hfills
  stored := congrArg Prod.fst hstep
  emitted := ⟨status, lastQty, lastPrice, congrArg Prod.snd hstep⟩

/-- `register` keeps the fills, the target quantity where it is known, and the position
    from before the order where it is known. -/
theorem progress_register (l : Ledger) (id : String) (order : OrderMeta) (target : ℚ) (pre : Option ℚ) :
    ∃ e, Progress l (.register id order target pre) e ∧
      ∀ existing, l.get id = some existing → e = backfill existing target pre := by
  cases hget : l.get id with
  | none =>
    have hstep : step l (.register id order target pre) =
        (l.put (newEntry id order target pre), [makeEvent (newEntry id order target pre) false "Submitted"]) := by
      rw [step, register, hget]
    have hfills : (newEntry id order target pre).fills = l.fills id ++ [] := by
      rw [Ledger.fills_of_none hget]
      rfl
    exact ⟨_, .of_step hstep rfl hfills, fun existing h => by cases h⟩
  | some existing =>
    have hstep : step l (.register id order target pre) =
        (l.put (backfill existing target pre), [makeEvent (backfill existing target pre) false "Submitted"]) := by
      rw [step, register, hget]
    have hfills : (backfill existing target pre).fills = l.fills id ++ [] := by
      rw [Ledger.fills_of_get hget, List.append_nil]
      rfl
    have hid : existing.ibOrderId = id := Ledger.ibOrderId_of_get hget
    refine ⟨_, .of_step hstep hid hfills, fun e he => ?_⟩
    rw [Option.some.inj he]

theorem progress_recordFill {l : Ledger} {id : String} (hlive : id ∉ l.recentlyEvicted) (hph : id ∉ phantomIbOrderIds)
    (fill : Fill) (order : OrderMeta) (remaining total : ℚ) :
    ∃ e, Progress l (.recordFill id fill order remaining total) e := by
  have hrecorded : recordedFills id [.recordFill id fill order remaining total] = [fill] := by
    simp [recordedFills, Call.fillOf]
  cases hget : l.get id with
  | none =>
    let e := (newEntry id order (fillTarget fill.qty remaining total)).addFill fill
    have hstep : step l (.recordFill id fill order remaining total) = (l.put e, [fillEvent e fill.qty fill.price]) := by
      rw [step, recordFill, if_neg hlive, hget]
      exact if_neg hph
    have hfills : e.fills = l.fills id ++ recordedFills id [.recordFill id fill order remaining total] := by
      rw [Ledger.fills_of_none hget, hrecorded]
      rfl
    exact ⟨e, .of_step hstep rfl hfills⟩
  | some entry =>
    have hstep : step l (.recordFill id fill order remaining total) =
        (l.put (entry.addFill fill), [fillEvent (entry.addFill fill) fill.qty fill.price]) := by
      rw [step, recordFill, if_neg hlive, hget]
    have hfills : (entry.addFill fill).fills = l.fills id ++ recordedFills id [.recordFill id fill order remaining total] := by
      rw [Ledger.fills_of_get hget, hrecorded]
      rfl
    have hid : entry.ibOrderId = id := Ledger.ibOrderId_of_get hget
    exact ⟨_, .of_step hstep hid hfills⟩

theorem progress_recordStatus {l : Ledger} {id status : String} (hlive : id ∉ l.recentlyEvicted)
    (hph : id ∉ phantomIbOrderIds) (hstatus : status ∉ terminalStatuses) (order : OrderMeta)
    (position : PositionGetter) : ∃ e, Progress l (.recordStatus id status order position) e := by
  have hentry (entry : LedgerEntry) : statusOnEntry l entry status position =
      (l.put (entry.withStatus status), [makeEvent (entry.withStatus status) false status]) := if_neg hstatus
  cases hget : l.get id with
  | none =>
    have hinactive : ¬ (status = "Inactive" ∧ order.orderRef = "") := by
      rintro ⟨rfl, -⟩
      exact hstatus (by decide)
    have hstep : step l (.recordStatus id status order position) = statusOnEntry l (newEntry id order 0) status position := by
      rw [step, recordStatus, if_neg hlive, hget]
      exact (if_neg hph).trans (if_neg hinactive)
    have hfills : ((newEntry id order 0).withStatus status).fills = l.fills id ++ [] := by
      rw [Ledger.fills_of_none hget]
      rfl
    exact ⟨_, .of_step (hstep.trans (hentry _)) rfl hfills⟩
  | some entry =>
    have hstep : step l (.recordStatus id status order position) = statusOnEntry l entry status position := by
      rw [step, recordStatus, if_neg hlive, hget]
    have hfills : (entry.withStatus status).fills = l.fills id ++ [] := by
      rw [Ledger.fills_of_get hget, List.append_nil]
      rfl
    have hid : entry.ibOrderId = id := Ledger.ibOrderId_of_get hget
    exact ⟨_, .of_step (hstep.trans (hentry _)) hid hfills⟩

theorem progress_step {l : Ledger} {c : Call} (hlive : c.ibOrderId ∉ l.recentlyEvicted) (hongoing : c.ongoing) :
    ∃ e, Progress l c e := by
  obtain ⟨hph, hstatus⟩ := hongoing
  cases c with
  | register id order target pre =>
    obtain ⟨e, he, -⟩ := progress_register l id order target pre
    exact ⟨e, he⟩
  | recordFill id fill order remaining total => exact progress_recordFill hlive hph fill order remaining total
  | recordStatus id status order position => exact progress_recordStatus hlive hph hstatus order position

-- ============================================================================
-- Runs
-- ============================================================================

/-- The ledger has the fills recorded so far, and no order has ended. -/
structure Recorded (cs : List Call) (l : Ledger) : Prop where
  live : l.recentlyEvicted = ∅
  fills : ∀ id, l.fills id = recordedFills id cs

theorem Recorded.next {cs : List Call} {l : Ledger} (h : Recorded cs l) {c : Call} (hongoing : c.ongoing) :
    Recorded (cs ++ [c]) (step l c).1 := by
  have hlive : c.ibOrderId ∉ l.recentlyEvicted := by
    rw [h.live]
    exact Finset.notMem_empty _
  obtain ⟨e, he⟩ := progress_step hlive hongoing
  constructor
  · rw [he.stored, Ledger.put_recentlyEvicted, h.live]
  · intro id
    rw [recordedFills_append]
    by_cases hid : id = c.ibOrderId
    · have hget : (step l c).1.get id = some e := by
        rw [he.stored, hid, ← he.id, Ledger.put_get_self]
      rw [Ledger.fills_of_get hget, he.fills, hid, h.fills]
    · rw [Ledger.fills, step_get_of_ne (Ne.symm hid), recordedFills_of_ne hid, List.append_nil]
      exact h.fills id

theorem recorded_run (wired : Bool) (cs : List Call) (h : ∀ c ∈ cs, c.ongoing) :
    Recorded cs (machine.run (Ledger.init wired) cs) := by
  induction cs using List.reverseRecOn with
  | nil => exact ⟨rfl, fun _ => rfl⟩
  | append_singleton cs c ih =>
    have hbefore := ih fun d hd => h d (List.mem_append_left _ hd)
    rw [Mealy.run_append]
    exact hbefore.next (h c (List.mem_append_right _ (List.mem_singleton_self c)))

/-- After any calls that end no order, a call is answered by one progress event with the
    sum, the mean and the commission of the fills recorded for its order; `register`
    keeps the fills, and what is known of target and position; and the entries of other
    orders are left alone. -/
theorem progress_arithmetic (wired : Bool) (before : List Call) (c : Call) (h : ∀ d ∈ before ++ [c], d.ongoing) :
    let l := machine.run (Ledger.init wired) before
    let fills := recordedFills c.ibOrderId (before ++ [c])
    (∃ event, (step l c).2 = [event] ∧ event.terminal = false ∧ event.ibOrderId = c.ibOrderId ∧
      event.filledQty = (fills.map Fill.qty).sum ∧ event.avgPrice = meanPrice fills ∧
      event.totalCommission = (fills.map Fill.commission).sum) ∧
    (c.isRegister → ∀ e, l.get c.ibOrderId = some e → ∃ e', (step l c).1.get c.ibOrderId = some e' ∧
      e'.fills = e.fills ∧ (e.targetQty ≠ 0 → e'.targetQty = e.targetQty) ∧
      (e.prePosition ≠ none → e'.prePosition = e.prePosition)) ∧
    ∀ id, id ≠ c.ibOrderId → (step l c).1.get id = l.get id := by
  intro l fills
  have hrecorded : Recorded before l := recorded_run wired before fun d hd => h d (List.mem_append_left _ hd)
  have hongoing : c.ongoing := h c (List.mem_append_right _ (List.mem_singleton_self c))
  have hlive : c.ibOrderId ∉ l.recentlyEvicted := by
    rw [hrecorded.live]
    exact Finset.notMem_empty _
  refine ⟨?_, ?_, fun id hid => step_get_of_ne hid.symm⟩
  · obtain ⟨e, he⟩ := progress_step hlive hongoing
    obtain ⟨status, lastQty, lastPrice, hevent⟩ := he.emitted
    have hfills : e.fills = fills := by
      rw [he.fills, hrecorded.fills, ← recordedFills_append]
    refine ⟨_, hevent, rfl, he.id, ?_, ?_, ?_⟩
    · exact congrArg (fun fs => (fs.map Fill.qty).sum) hfills
    · exact congrArg meanPrice hfills
    · exact congrArg (fun fs => (fs.map Fill.commission).sum) hfills
  · intro hregister existing hget
    cases c with
    | recordFill => exact absurd hregister Bool.false_ne_true
    | recordStatus => exact absurd hregister Bool.false_ne_true
    | register id order target pre =>
      obtain ⟨e, he, hbackfill⟩ := progress_register l id order target pre
      obtain rfl := hbackfill existing hget
      refine ⟨backfill existing target pre, ?_, rfl, fun hknown => ?_, fun hknown => ?_⟩
      · rw [he.stored, ← he.id, Ledger.put_get_self]
      · exact if_neg fun hzero => hknown hzero.1
      · obtain ⟨p, hp⟩ := Option.ne_none_iff_exists'.mp hknown
        rw [backfill, hp]
        rfl

/-- A fill and a status that come before the order is registered, and a fill of another
    order. -/
theorem progress_arithmetic_races :
    let before : List Call := [.recordFill "7" ⟨2, 10, 1, "a"⟩ {} (-1) (-1), .recordStatus "7" "Submitted" {} fun _ _ => none,
      .recordFill "8" ⟨5, 3, 0, "b"⟩ {} (-1) (-1)]
    ∃ event, (step (machine.run (Ledger.init false) before) (.register "7" {} 6 none)).2 = [event] ∧
      event.filledQty = 2 := by
  obtain ⟨event, hevent, -, -, hfilled, -⟩ := (progress_arithmetic false [.recordFill "7" ⟨2, 10, 1, "a"⟩ {} (-1) (-1),
    .recordStatus "7" "Submitted" {} fun _ _ => none, .recordFill "8" ⟨5, 3, 0, "b"⟩ {} (-1) (-1)]
    (.register "7" {} 6 none) (by decide)).1
  exact ⟨event, hevent, hfilled.trans (by decide +kernel)⟩

end IbTrader.Engine.OrderLedger
