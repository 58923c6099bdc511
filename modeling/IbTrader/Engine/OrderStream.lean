/-
  IbTrader.Engine.OrderStream

  The events of one order on the `order:updates` stream: a progress event for
  each fill, carrying the cumulative quantity, and the terminal event.  They are
  what the ledger emits when IB reports the fills and then a terminal status
  (`trace_orderEvents`).
-/

import IbTrader.Engine.OrderLedgerFills

namespace IbTrader.Engine.OrderLedger

open Lib

/-- The progress events of the fills of an order, from the entry before them. -/
def progressEvents : LedgerEntry → List Fill → List LedgerEvent
  | _, [] => []
  | e, f :: fills => fillEvent (e.addFill f) f.qty f.price :: progressEvents (e.addFill f) fills

/-- The terminal event of an order. -/
def terminalEvent (e : LedgerEntry) : LedgerEvent := makeEvent e true (resolveTerminalStatus e)

/-- All events of an order, from the entry it ends with. -/
def orderEvents (e : LedgerEntry) : List LedgerEvent :=
  progressEvents { e with fills := [] } e.fills ++ [terminalEvent e]

/-- The events do not carry the status the order was last seen with. -/
theorem progressEvents_withStatus (status : String) (fills : List Fill) :
    ∀ e : LedgerEntry, progressEvents (e.withStatus status) fills = progressEvents e fills := by
  induction fills with
  | nil => intro e; rfl
  | cons f fills ih =>
    intro e
    have hadd : (e.withStatus status).addFill f = (e.addFill f).withStatus status := rfl
    simp only [progressEvents, hadd, ih]
    rfl

/-- The entry with more fills. -/
def LedgerEntry.addFills (e : LedgerEntry) (fills : List Fill) : LedgerEntry :=
  fills.foldl LedgerEntry.addFill e

theorem addFills_eq (fills : List Fill) :
    ∀ e : LedgerEntry, e.addFills fills = { e with fills := e.fills ++ fills } := by
  induction fills with
  | nil => intro e; simp [LedgerEntry.addFills]
  | cons f fills ih =>
    intro e
    have hstep : e.addFills (f :: fills) = (e.addFill f).addFills fills := rfl
    rw [hstep, ih]
    simp [LedgerEntry.addFill]

/-- Recording the fills of a live order: the ledger follows the entry and emits
    the progress events. -/
theorem run_fills (order : OrderMeta) (remaining total : ℚ) (fills : List Fill) :
    ∀ {l : Ledger} {e : LedgerEntry}, e.ibOrderId ∉ l.recentlyEvicted →
      l.get e.ibOrderId = some e →
      let calls := fills.map fun f => Call.recordFill e.ibOrderId f order remaining total
      (machine.run l calls).get e.ibOrderId = some (e.addFills fills) ∧
        e.ibOrderId ∉ (machine.run l calls).recentlyEvicted ∧
        (machine.trace l calls).map Prod.snd = progressEvents e fills := by
  induction fills with
  | nil => intro l e hlive hget; exact ⟨hget, hlive, rfl⟩
  | cons f fills ih =>
    intro l e hlive hget
    have hstep : step l (.recordFill e.ibOrderId f order remaining total) =
        (l.put (e.addFill f), [fillEvent (e.addFill f) f.qty f.price]) := by
      simp only [step, recordFill, hlive, if_false, hget]
    have hid : (e.addFill f).ibOrderId = e.ibOrderId := rfl
    have hlive' : (e.addFill f).ibOrderId ∉ (l.put (e.addFill f)).recentlyEvicted := by
      rw [Ledger.put_recentlyEvicted, hid]
      exact hlive
    obtain ⟨hrun, hnot, htrace⟩ := ih hlive' (Ledger.put_get_self l (e.addFill f))
    have hnext : machine.next l (.recordFill e.ibOrderId f order remaining total) =
        l.put (e.addFill f) := congrArg Prod.fst hstep
    have hemit : machine.emit l (.recordFill e.ibOrderId f order remaining total) =
        [fillEvent (e.addFill f) f.qty f.price] := congrArg Prod.snd hstep
    simp only [List.map_cons, Mealy.run_cons, Mealy.trace_cons, hnext, hemit]
    refine ⟨hrun, hnot, ?_⟩
    rw [List.map_nil, List.singleton_append, List.map_cons, progressEvents]
    exact congrArg _ htrace

/-- The events of an order are what the ledger emits when IB reports its fills
    and then ends it with a status that is no re-route cancel. -/
theorem trace_orderEvents {l : Ledger} {e : LedgerEntry} {order : OrderMeta}
    {remaining total : ℚ} {fills : List Fill} {status : String} {position : PositionGetter}
    (hunwired : l.positionGetterWired = false) (hlive : e.ibOrderId ∉ l.recentlyEvicted)
    (hget : l.get e.ibOrderId = some e) (hnew : e.fills = [])
    (hstatus : status ∈ terminalStatuses)
    (hcancel : ¬cancelMightBePreroute ((e.addFills fills).withStatus status)
      (e.addFills fills).lastStatus status) :
    (machine.trace l
        ((fills.map fun f => Call.recordFill e.ibOrderId f order remaining total) ++
          [.recordStatus e.ibOrderId status order position])).map Prod.snd =
      orderEvents ((e.addFills fills).withStatus status) := by
  obtain ⟨hrun, hnot, htrace⟩ := run_fills order remaining total fills hlive hget
  have hwired := machine_positionGetterWired
    (fills.map fun f => Call.recordFill e.ibOrderId f order remaining total) hunwired
  rw [Mealy.trace_append, List.map_append, htrace, orderEvents]
  generalize machine.run l (fills.map fun f =>
    Call.recordFill e.ibOrderId f order remaining total) = l' at hrun hnot hwired
  have hemit : (machine.trace l' [.recordStatus e.ibOrderId status order position]).map Prod.snd =
      [terminalEvent ((e.addFills fills).withStatus status)] := by
    simp only [Mealy.trace_cons, Mealy.trace_nil, machine, step, recordStatus, hnot, if_false,
      hrun, statusOnEntry, hstatus, if_true, hcancel, makeTerminal, hwired,
      reconciledEntry_unwired, List.append_nil, List.map_cons, List.map_nil]
    rfl
  have hfills : ((e.addFills fills).withStatus status).fills = fills := by
    rw [addFills_eq, hnew]
    rfl
  have hfresh : { (e.addFills fills).withStatus status with fills := [] } =
      e.withStatus status := by
    rw [addFills_eq]
    cases e
    simp only at hnew
    subst hnew
    rfl
  rw [hemit, hfills, hfresh, progressEvents_withStatus]

end IbTrader.Engine.OrderLedger
