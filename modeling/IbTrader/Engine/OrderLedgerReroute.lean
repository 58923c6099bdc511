/-
  IbTrader.Engine.OrderLedgerReroute

  Orders that IB re-routes between venues: a cancel that follows PreSubmitted,
  Submitted or PendingSubmit while the order is short of its target is held, and
  the order goes on.

  What IB has reported of an order is a `Feed`, its last status and its fills.
  Over any run of fills, non-terminal statuses and held cancels, and of calls
  about other orders, the ledger's entry is the registered one with the feed
  written into it (`Mirrors.run`); the `Filled` status then reads the whole feed.
-/

import IbTrader.Engine.OrderLedgerFills
import IbTrader.Lib.Run

namespace IbTrader.Engine.OrderLedger

open Lib

-- ============================================================================
-- What IB reports of an order
-- ============================================================================

/-- The last status of an order and its fills. -/
structure Feed where
  lastStatus : String
  fills : List Fill
  deriving DecidableEq, Repr

/-- The quantity of the fills. -/
def Feed.filled (f : Feed) : ℚ := (f.fills.map Fill.qty).sum

/-- The value of the fills. -/
def Feed.notional (f : Feed) : ℚ := (f.fills.map fun fill => fill.qty * fill.price).sum

def Feed.commission (f : Feed) : ℚ := (f.fills.map Fill.commission).sum

/-- What a call reports of the order `id`. -/
def Feed.next (id : String) (f : Feed) (c : Call) : Feed :=
  if c.ibOrderId = id then
    match c with
    | .register .. => f
    | .recordFill _ fill .. => { f with fills := f.fills ++ [fill] }
    | .recordStatus _ status .. => { f with lastStatus := status }
  else f

@[simp] theorem Feed.next_recordFill (id : String) (f : Feed) (fill : Fill) (order : OrderMeta)
    (remaining total : ℚ) :
    f.next id (.recordFill id fill order remaining total) =
      { f with fills := f.fills ++ [fill] } := if_pos rfl

@[simp] theorem Feed.next_recordStatus (id : String) (f : Feed) (status : String)
    (order : OrderMeta) (position : PositionGetter) :
    f.next id (.recordStatus id status order position) = { f with lastStatus := status } :=
  if_pos rfl

theorem Feed.next_of_ne {id : String} {c : Call} (h : c.ibOrderId ≠ id) (f : Feed) :
    f.next id c = f := if_neg h

/-- What has been reported after a list of calls. -/
def Feed.after (id : String) (f : Feed) (cs : List Call) : Feed := cs.foldl (Feed.next id) f

/-- A call about another order, a fill, a non-terminal status, or a cancel of a
    re-route: one directly after a pre-route status, short of the target. -/
def Reroutes (id : String) (target : ℚ) (f : Feed) (c : Call) : Prop :=
  c.ibOrderId = id →
    match c with
    | .register .. => False
    | .recordFill .. => True
    | .recordStatus _ status .. => status ∉ terminalStatuses ∨
        (status ∈ ["Cancelled", "ApiCancelled"] ∧ f.lastStatus ∈ preroutePrevStatuses ∧
          f.filled < target)

instance (id : String) (target : ℚ) (f : Feed) (c : Call) : Decidable (Reroutes id target f c) := by
  unfold Reroutes; cases c <;> infer_instance

/-- The feed of an entry. -/
def LedgerEntry.feed (e : LedgerEntry) : Feed where
  lastStatus := e.lastStatus
  fills := e.fills

/-- The entry with a feed in place of its own. -/
def LedgerEntry.reporting (e : LedgerEntry) (f : Feed) : LedgerEntry :=
  { e with fills := f.fills, lastStatus := f.lastStatus }

-- ============================================================================
-- Other orders
-- ============================================================================

theorem Ledger.put_get_of_ne {l : Ledger} {e : LedgerEntry} {id : String} (h : id ≠ e.ibOrderId) :
    (l.put e).get id = l.get id :=
  AList.lookup_insert_ne h

theorem Ledger.evict_get_of_ne {l : Ledger} {id id' : String} (h : id ≠ id') :
    (l.evict id').get id = l.get id :=
  AList.lookup_erase_ne h

/-- A call leaves the entries of other orders alone. -/
theorem step_get_of_ne {l : Ledger} {c : Call} {id : String} (h : c.ibOrderId ≠ id) :
    (step l c).1.get id = l.get id := by
  have hshape := step_shape l c
  revert hshape
  generalize step l c = r
  intro hshape
  cases hshape with
  | silent => rfl
  | progress e status lastQty lastPrice hid =>
    apply Ledger.put_get_of_ne
    rw [hid]
    exact h.symm
  | terminal => exact Ledger.evict_get_of_ne h.symm
  | untracked => rfl

/-- The terminal events of one order in a trace. -/
def terminalEventsOf (id : String) (trace : List (Call × LedgerEvent)) : List LedgerEvent :=
  (terminalEvents trace).filter (·.ibOrderId = id)

@[simp] theorem terminalEventsOf_nil (id : String) : terminalEventsOf id [] = [] := rfl

theorem terminalEventsOf_trace_cons (id : String) (l : Ledger) (c : Call) (cs : List Call) :
    terminalEventsOf id (machine.trace l (c :: cs)) =
      ((step l c).2.filter LedgerEvent.terminal).filter (·.ibOrderId = id) ++
        terminalEventsOf id (machine.trace (step l c).1 cs) := by
  rw [terminalEventsOf, terminalEvents_trace_cons, List.filter_append, terminalEventsOf]

theorem terminalEventsOf_trace_append (id : String) (l : Ledger) (cs ds : List Call) :
    terminalEventsOf id (machine.trace l (cs ++ ds)) =
      terminalEventsOf id (machine.trace l cs) ++
        terminalEventsOf id (machine.trace (machine.run l cs) ds) := by
  rw [terminalEventsOf, terminalEvents_trace_append, List.filter_append, terminalEventsOf,
    terminalEventsOf]

/-- A call about another order emits no terminal event of this one. -/
theorem terminalEventsOf_step_of_ne {l : Ledger} {c : Call} {id : String} (h : c.ibOrderId ≠ id) :
    ((step l c).2.filter LedgerEvent.terminal).filter (·.ibOrderId = id) = [] := by
  rw [List.filter_eq_nil_iff]
  intro event hevent hid
  have hcall := step_event_ibOrderId (List.mem_filter.mp hevent).1
  exact h (hcall ▸ of_decide_eq_true hid)

-- ============================================================================
-- The entry follows the feed
-- ============================================================================

/-- The order is live, its entry `e` with the feed written into it. -/
structure Mirrors (l : Ledger) (id : String) (e : LedgerEntry) (f : Feed) : Prop where
  notEvicted : id ∉ l.recentlyEvicted
  entry : l.get id = some (e.reporting f)

theorem Mirrors.put {l : Ledger} {id : String} {e entry : LedgerEntry} {f : Feed}
    (h : id ∉ l.recentlyEvicted) (hid : e.ibOrderId = id) (hentry : entry = e.reporting f) :
    Mirrors (l.put entry) id e f := by
  subst hid hentry
  exact ⟨h, Ledger.put_get_self l (e.reporting f)⟩

/-- What one call of a re-routed order does: the entry follows the feed, and no
    terminal event of the order is emitted. -/
theorem Mirrors.step {l : Ledger} {id : String} {e : LedgerEntry} {f : Feed} {c : Call}
    (h : Mirrors l id e f) (hT : 0 < e.targetQty) (hc : Reroutes id e.targetQty f c) :
    Mirrors (step l c).1 id e (f.next id c) ∧
      ((OrderLedger.step l c).2.filter LedgerEvent.terminal).filter (·.ibOrderId = id) = [] := by
  obtain ⟨hlive, hget⟩ := h
  by_cases hown : c.ibOrderId = id
  case neg =>
    rw [Feed.next_of_ne hown]
    refine ⟨⟨fun hev => ?_, (step_get_of_ne hown).trans hget⟩, terminalEventsOf_step_of_ne hown⟩
    rcases step_recentlyEvicted_inv hev with hev | ⟨hid, -⟩
    · exact hlive hev
    · exact hown hid
  case pos =>
    have hid : e.ibOrderId = id := Ledger.ibOrderId_of_get (e := e.reporting f) hget
    have hallowed := hc hown
    cases c with
    | register => exact hallowed.elim
    | recordFill id' fill order remaining total =>
      obtain rfl : id' = id := hown
      simp only [OrderLedger.step, recordFill, hlive, if_false, hget]
      refine ⟨?_, by simp [fillEvent, makeEvent]⟩
      rw [Feed.next_recordFill]
      exact Mirrors.put hlive hid rfl
    | recordStatus id' status order position =>
      obtain rfl : id' = id := hown
      have hput : Mirrors (l.put ((e.reporting f).withStatus status)) id' e
          (f.next id' (.recordStatus id' status order position)) := by
        rw [Feed.next_recordStatus]
        exact Mirrors.put hlive hid rfl
      simp only [OrderLedger.step, recordStatus, hlive, if_false, hget, statusOnEntry]
      rcases hallowed with hstatus | ⟨hcancel, hprev, hshort⟩
      · rw [if_neg hstatus]
        exact ⟨hput, by simp [makeEvent]⟩
      · have hterminal : status ∈ terminalStatuses := by
          simp only [List.mem_cons, List.not_mem_nil, or_false] at hcancel
          rcases hcancel with rfl | rfl <;> decide
        have hheld : cancelMightBePreroute ((e.reporting f).withStatus status)
            (e.reporting f).lastStatus status := ⟨hcancel, hprev, .inr ⟨hT, hshort⟩⟩
        rw [if_pos hterminal, if_pos hheld]
        exact ⟨hput, by simp [makeEvent]⟩

/-- Over a run of them the entry follows the feed, and no terminal event of the
    order is emitted. -/
theorem Mirrors.run {id : String} {e : LedgerEntry} (hT : 0 < e.targetQty) (cs : List Call) :
    ∀ {l : Ledger} {f : Feed}, Mirrors l id e f →
      Along (Feed.next id) (Reroutes id e.targetQty) f cs →
      Mirrors (machine.run l cs) id e (f.after id cs) ∧
        terminalEventsOf id (machine.trace l cs) = [] := by
  induction cs with
  | nil => intro l f h _; exact ⟨h, rfl⟩
  | cons c cs ih =>
    intro l f h halong
    obtain ⟨hmirrors, hquiet⟩ := h.step hT halong.1
    obtain ⟨hrun, hnone⟩ := ih hmirrors halong.2
    refine ⟨hrun, ?_⟩
    rw [terminalEventsOf_trace_cons, hquiet, List.nil_append]
    exact hnone

/-- `Filled` on an order with its target filled: the terminal event reads the feed. -/
theorem Mirrors.filled {l : Ledger} {id : String} {e : LedgerEntry} {f : Feed}
    (h : Mirrors l id e f) (hT : 0 < e.targetQty) (hfilled : f.filled = e.targetQty)
    (order : OrderMeta) (position : PositionGetter) :
    ∃ event, (OrderLedger.step l (.recordStatus id "Filled" order position)).2 = [event] ∧
      event.terminal = true ∧ event.ibOrderId = id ∧ event.status = "Filled" ∧
      event.filledQty = e.targetQty ∧ event.avgPrice = some (f.notional / e.targetQty) ∧
      event.totalCommission = f.commission := by
  obtain ⟨hlive, hget⟩ := h
  have hid : e.ibOrderId = id := Ledger.ibOrderId_of_get (e := e.reporting f) hget
  set final := (e.reporting f).withStatus "Filled" with hfinal
  have hqty : final.filledQty = e.targetQty := hfilled
  have hreached : final.targetQty ≤ final.filledQty := by rw [hqty]; exact le_rfl
  -- the position is not asked for: the target is reached
  have hdiff : applyPositionDiff l.positionGetterWired position final = none := by
    unfold applyPositionDiff
    split
    · rfl
    · rfl
    · rw [if_pos (.inr hreached)]
  have hghost : reconciledEntry l.positionGetterWired position final = final := by
    rw [reconciledEntry, hdiff]
  have hheld : ¬ cancelMightBePreroute final (e.reporting f).lastStatus "Filled" :=
    fun hcancel => absurd hcancel.1 (by decide)
  have hterminal : "Filled" ∈ terminalStatuses := by decide
  refine ⟨makeEvent final true (resolveTerminalStatus final), ?_, rfl, hid, ?_, hqty, ?_, rfl⟩
  · simp only [OrderLedger.step, recordStatus, hlive, if_false, hget, statusOnEntry]
    rw [if_pos hterminal, if_neg hheld, makeTerminal, hghost]
  · exact (resolveTerminalStatus_eq_filled (e := final) hT).mpr hreached
  · change final.avgPrice = _
    rw [LedgerEntry.avgPrice, if_neg (by rw [hqty]; exact hT.ne'), hqty]
    rfl

-- ============================================================================
-- From the registration on
-- ============================================================================

/-- The entry `register` leaves. -/
def registeredEntry (l : Ledger) (id : String) (order : OrderMeta) (target : ℚ)
    (prePosition : Option ℚ) : LedgerEntry :=
  match l.get id with
  | some existing => backfill existing target prePosition
  | none => newEntry id order target prePosition

theorem Mirrors.register {l : Ledger} {id : String} (hlive : id ∉ l.recentlyEvicted)
    (order : OrderMeta) (target : ℚ) (prePosition : Option ℚ) :
    Mirrors (OrderLedger.step l (.register id order target prePosition)).1 id
      (registeredEntry l id order target prePosition)
      (registeredEntry l id order target prePosition).feed := by
  simp only [OrderLedger.step, OrderLedger.register, registeredEntry]
  cases hget : l.get id with
  | some existing =>
    have hid : (backfill existing target prePosition).ibOrderId = id :=
      (Ledger.ibOrderId_of_get hget : existing.ibOrderId = id)
    exact Mirrors.put hlive hid rfl
  | none => exact Mirrors.put hlive rfl rfl

/-- A registered order whose cancels are all those of re-routes, ended by `Filled`
    with its target filled: up to `Filled` no terminal event is emitted and no fill
    is lost, and the terminal event carries them all. -/
theorem reroute_run_terminal {l : Ledger} {id : String} {order order' : OrderMeta} {target : ℚ}
    {prePosition : Option ℚ} {position : PositionGetter} {cs : List Call} {e : LedgerEntry}
    (hlive : id ∉ l.recentlyEvicted) (he : registeredEntry l id order target prePosition = e)
    (hT : 0 < e.targetQty) (hrun : Along (Feed.next id) (Reroutes id e.targetQty) e.feed cs)
    (htotal : (e.feed.after id cs).filled = e.targetQty) :
    let registered := Call.register id order target prePosition
    terminalEventsOf id (machine.trace l (registered :: cs)) = [] ∧
      ((machine.run l (registered :: cs)).get id).map LedgerEntry.fills =
        some (e.feed.after id cs).fills ∧
      ∃ event, terminalEventsOf id (machine.trace l
          (registered :: cs ++ [.recordStatus id "Filled" order' position])) = [event] ∧
        event.status = "Filled" ∧ event.filledQty = e.targetQty ∧
        event.avgPrice = some ((e.feed.after id cs).notional / e.targetQty) ∧
        event.totalCommission = (e.feed.after id cs).commission := by
  intro registered
  have hregister := Mirrors.register hlive order target prePosition
  rw [he] at hregister
  have hquiet₀ : ((step l registered).2.filter LedgerEvent.terminal).filter
      (·.ibOrderId = id) = [] := by
    simp only [registered, step, register]
    split <;> simp [makeEvent]
  obtain ⟨hmirrors, hquiet⟩ := hregister.run hT cs hrun
  have hnone : terminalEventsOf id (machine.trace l (registered :: cs)) = [] := by
    rw [terminalEventsOf_trace_cons, hquiet₀, List.nil_append]
    exact hquiet
  obtain ⟨event, hemit, hterminal, hid, hstatus, hqty, havg, hcommission⟩ :=
    hmirrors.filled hT htotal order' position
  refine ⟨hnone, ?_, event, ?_, hstatus, hqty, havg, hcommission⟩
  · have hget : (machine.run l (registered :: cs)).get id =
        some (e.reporting (e.feed.after id cs)) := hmirrors.entry
    rw [hget]
    rfl
  · have hlast : (step (machine.run l (registered :: cs))
        (.recordStatus id "Filled" order' position)).2 = [event] := hemit
    rw [terminalEventsOf_trace_append, hnone, List.nil_append, terminalEventsOf_trace_cons, hlast]
    simp [hterminal, hid]

/-- A hundred and fourteen ordered: thirty-four fill, the rest is re-routed twice
    and fills. -/
def reroutedTwice : List Call :=
  [.recordStatus "100" "Submitted" {} (fun _ _ => none),
   .recordFill "100" ⟨34, 5, 1, "a"⟩ {} (-1) (-1),
   .recordStatus "100" "Cancelled" {} (fun _ _ => none),
   .recordStatus "7" "Inactive" {} (fun _ _ => none),
   .recordFill "100" ⟨20, 6, 1, "b"⟩ {} (-1) (-1),
   .recordStatus "100" "PreSubmitted" {} (fun _ _ => none),
   .recordStatus "100" "ApiCancelled" {} (fun _ _ => none),
   .recordStatus "100" "Submitted" {} (fun _ _ => none),
   .recordFill "100" ⟨60, 7, 2, "c"⟩ {} (-1) (-1)]

theorem reroute_run_terminal_twice :
    let registered := Call.register "100" {} 114 none
    let feed := (newEntry "100" {} 114).feed.after "100" reroutedTwice
    terminalEventsOf "100" (machine.trace (Ledger.init false) (registered :: reroutedTwice)) = [] ∧
      ((machine.run (Ledger.init false) (registered :: reroutedTwice)).get "100").map
        LedgerEntry.fills = some feed.fills ∧
      ∃ event, terminalEventsOf "100" (machine.trace (Ledger.init false) (registered ::
          reroutedTwice ++ [.recordStatus "100" "Filled" {} (fun _ _ => none)])) = [event] ∧
        event.status = "Filled" ∧ event.filledQty = 114 ∧
        event.avgPrice = some (feed.notional / 114) ∧ event.totalCommission = feed.commission :=
  reroute_run_terminal (by simp) rfl (by norm_num) (by decide +kernel) (by decide +kernel)

end IbTrader.Engine.OrderLedger
