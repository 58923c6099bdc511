/-
  IbTrader.Engine.OrderLedgerFills

  What the terminal event of a registered order says, for every order in which
  its fills, its non-terminal statuses and IB's `Filled` status arrive.

  The ledger never second-guesses IB: the `Filled` status ends the order with
  what has been recorded by then, and a fill that comes later is dropped.
-/

import IbTrader.Engine.OrderLedgerTerminal

namespace IbTrader.Engine.OrderLedger

open Lib

/-- A fill of the order, or a status of it that is not terminal. -/
def FillOrProgress (id : String) : Call → Prop
  | .register .. => False
  | .recordFill id' .. => id' = id
  | .recordStatus id' status .. => id' = id ∧ status ∉ terminalStatuses

/-- The quantity a call fills. -/
def Call.fillQty : Call → ℚ
  | .recordFill _ fill .. => fill.qty
  | .register .. | .recordStatus .. => 0

/-- The quantity a list of calls fills. -/
def fillTotal (cs : List Call) : ℚ := (cs.map Call.fillQty).sum

@[simp] theorem fillTotal_nil : fillTotal [] = 0 := rfl

@[simp] theorem fillTotal_cons (c : Call) (cs : List Call) :
    fillTotal (c :: cs) = c.fillQty + fillTotal cs := by
  simp [fillTotal]

/-- The terminal events of a trace, in order. -/
def terminalEvents (trace : List (Call × LedgerEvent)) : List LedgerEvent :=
  (trace.map Prod.snd).filter LedgerEvent.terminal

@[simp] theorem terminalEvents_nil : terminalEvents [] = [] := rfl

/-- The terminal events of a run are those of its first call and of the rest. -/
theorem terminalEvents_trace_cons (l : Ledger) (c : Call) (cs : List Call) :
    terminalEvents (machine.trace l (c :: cs)) =
      (step l c).2.filter LedgerEvent.terminal ++
        terminalEvents (machine.trace (step l c).1 cs) := by
  simp [terminalEvents, Mealy.trace_cons, machine, Function.comp_def]

theorem terminalEvents_trace_append (l : Ledger) (cs ds : List Call) :
    terminalEvents (machine.trace l (cs ++ ds)) =
      terminalEvents (machine.trace l cs) ++
        terminalEvents (machine.trace (machine.run l cs) ds) := by
  simp [terminalEvents, Mealy.trace_append]

/-- The order is live in the ledger with this target and this much filled. -/
structure Live (l : Ledger) (id : String) (target filled : ℚ) : Prop where
  notEvicted : id ∉ l.recentlyEvicted
  entry : ∃ e, l.get id = some e ∧ e.targetQty = target ∧ e.filledQty = filled

theorem Live.put {l : Ledger} {id : String} {target filled : ℚ} {e : LedgerEntry}
    (h : id ∉ l.recentlyEvicted) (hid : e.ibOrderId = id) (ht : e.targetQty = target)
    (hf : e.filledQty = filled) : Live (l.put e) id target filled := by
  subst hid
  exact ⟨by simpa using h, e, by simp, ht, hf⟩

/-- Registering an order the ledger does not know makes it live, unfilled. -/
theorem Live.register {l : Ledger} {id : String} (order : OrderMeta) (target : ℚ)
    (prePosition : Option ℚ) (hfresh : l.get id = none) (h : id ∉ l.recentlyEvicted) :
    Live (step l (.register id order target prePosition)).1 id target 0 := by
  simp only [step, OrderLedger.register, hfresh]
  exact Live.put h rfl rfl rfl

/-- A fill adds its quantity, a non-terminal status changes nothing, and neither
    is answered with a terminal event. -/
theorem Live.step {l : Ledger} {id : String} {target filled : ℚ} {c : Call}
    (h : Live l id target filled) (hc : FillOrProgress id c) :
    Live (step l c).1 id target (filled + c.fillQty) ∧
      ∀ event ∈ (OrderLedger.step l c).2, event.terminal = false := by
  obtain ⟨hlive, e, hget, htarget, hfilled⟩ := h
  cases c with
  | register => exact hc.elim
  | recordFill id' fill order r t =>
    obtain rfl : id' = id := hc
    have hid : e.ibOrderId = id' := Ledger.ibOrderId_of_get hget
    simp only [OrderLedger.step, recordFill, hlive, if_false, hget]
    refine ⟨Live.put hlive hid htarget (by simp [hfilled, Call.fillQty]), ?_⟩
    intro event hev
    rw [List.mem_singleton.mp hev]
    rfl
  | recordStatus id' status order position =>
    obtain ⟨rfl, hstatus⟩ := hc
    have hid : e.ibOrderId = id' := Ledger.ibOrderId_of_get hget
    simp only [OrderLedger.step, recordStatus, hlive, if_false, hget, statusOnEntry, hstatus]
    refine ⟨Live.put hlive hid htarget ?_, ?_⟩
    · simpa [Call.fillQty] using hfilled
    · intro event hev
      rw [List.mem_singleton.mp hev]
      rfl

/-- Over a run of fills and non-terminal statuses the filled quantity is the sum
    of the fills, and no terminal event is emitted. -/
theorem Live.run {id : String} {target : ℚ} (cs : List Call) :
    ∀ {l : Ledger} {filled : ℚ}, Live l id target filled →
      (∀ c ∈ cs, FillOrProgress id c) →
      Live (machine.run l cs) id target (filled + fillTotal cs) ∧
        terminalEvents (machine.trace l cs) = [] := by
  induction cs with
  | nil => intro l filled h _; simpa [terminalEvents] using h
  | cons c cs ih =>
    intro l filled h hcs
    obtain ⟨hlive, hquiet⟩ := h.step (hcs c List.mem_cons_self)
    obtain ⟨hrun, hnone⟩ := ih hlive (fun d hd => hcs d (List.mem_cons_of_mem _ hd))
    refine ⟨?_, ?_⟩
    · rw [fillTotal_cons, ← add_assoc]
      exact hrun
    · have hhead : (OrderLedger.step l c).2.filter LedgerEvent.terminal = [] := by
        simpa [List.filter_eq_nil_iff] using hquiet
      rw [terminalEvents_trace_cons, hhead, List.nil_append]
      exact hnone

theorem machine_positionGetterWired (cs : List Call) {l : Ledger}
    (h : l.positionGetterWired = false) : (machine.run l cs).positionGetterWired = false := by
  refine machine.run_preserves (P := fun l => l.positionGetterWired = false)
    (R := fun _ => True) ?_ cs l h (fun _ _ => trivial)
  intro s c hs _
  have hshape := step_shape s c
  show (step s c).1.positionGetterWired = false
  revert hshape
  generalize step s c = r
  intro hshape
  cases hshape <;> simpa using hs

@[simp] theorem reconciledEntry_unwired (position : PositionGetter) (e : LedgerEntry) :
    reconciledEntry false position e = e := by
  simp [reconciledEntry, applyPositionDiff]

/-- A positive target: the terminal status is `Filled` exactly when the fills
    reach it. -/
theorem resolveTerminalStatus_eq_filled {e : LedgerEntry} (h : 0 < e.targetQty) :
    resolveTerminalStatus e = "Filled" ↔ e.targetQty ≤ e.filledQty := by
  unfold resolveTerminalStatus
  constructor
  · intro hs
    by_contra hlt
    have hne : e.targetQty ≠ 0 := ne_of_gt h
    simp only [hlt, hne, or_self, and_false, if_false] at hs
    split at hs
    · split at hs <;> exact absurd hs (by decide)
    · exact absurd hs (by decide)
  · intro hle
    rw [if_pos ⟨lt_of_lt_of_le h hle, .inl hle⟩]

/-- IB's `Filled` status ends a live order with what has been recorded. -/
theorem Live.filled {l : Ledger} {id : String} {target filled : ℚ} (h : Live l id target filled)
    (hwired : l.positionGetterWired = false) (hT : 0 < target) (order : OrderMeta)
    (position : PositionGetter) :
    id ∈ (OrderLedger.step l (.recordStatus id "Filled" order position)).1.recentlyEvicted ∧
      ∃ event, (OrderLedger.step l (.recordStatus id "Filled" order position)).2 = [event] ∧
        event.terminal = true ∧ event.ibOrderId = id ∧ event.filledQty = filled ∧
        (event.status = "Filled" ↔ target ≤ filled) := by
  obtain ⟨hlive, e, hget, htarget, hfilled⟩ := h
  have hid : e.ibOrderId = id := Ledger.ibOrderId_of_get hget
  have hheld : ¬ cancelMightBePreroute (e.withStatus "Filled") e.lastStatus "Filled" := by
    rintro ⟨h, -⟩
    exact absurd h (by decide)
  have hmem : "Filled" ∈ terminalStatuses := by decide
  simp only [OrderLedger.step, recordStatus, hlive, if_false, hget, statusOnEntry, hmem, if_true,
    hheld, makeTerminal, hwired, reconciledEntry_unwired]
  refine ⟨by simp [hid], _, rfl, rfl, hid, hfilled, ?_⟩
  have hresolve := resolveTerminalStatus_eq_filled (e := e.withStatus "Filled")
    (by rwa [LedgerEntry.withStatus_targetQty, htarget])
  rwa [LedgerEntry.withStatus_targetQty, LedgerEntry.withStatus_filledQty, htarget,
    hfilled] at hresolve

/-- After its terminal event an order gets no further terminal event from fills
    and statuses. -/
theorem terminalEvents_of_evicted {id : String} (cs : List Call) {l : Ledger}
    (h : id ∈ l.recentlyEvicted) (hcs : ∀ c ∈ cs, FillOrProgress id c) :
    terminalEvents (machine.trace l cs) = [] := by
  have hall : ∀ p ∈ machine.trace l cs, p.2.terminal = false := by
    refine machine.forall_mem_trace (P := fun l => id ∈ l.recentlyEvicted)
      (R := fun c => FillOrProgress id c) (fun s c hs _ => step_recentlyEvicted_mono hs)
      ?_ cs l h hcs
    intro s c hs hc event hev
    have hid : c.ibOrderId = id := by
      cases c with
      | register => exact hc.elim
      | recordFill => exact hc
      | recordStatus => exact hc.1
    exact (step_of_evicted (by rwa [hid]) hev).2
  simp only [terminalEvents, List.filter_eq_nil_iff, List.mem_map]
  rintro event ⟨p, hp, rfl⟩
  simp [hall p hp]

/-- For every registered order and every interleaving of its fills, its
    non-terminal statuses and IB's `Filled`: one terminal event, carrying the
    fills recorded before `Filled`, with status `Filled` exactly when these reach
    the target. -/
theorem filled_run_terminal (l : Ledger) (id : String) (order order' : OrderMeta) (target : ℚ)
    (prePosition : Option ℚ) (position : PositionGetter) (before after : List Call)
    (hT : 0 < target) (hfresh : l.get id = none) (hlive : id ∉ l.recentlyEvicted)
    (hwired : l.positionGetterWired = false)
    (hbefore : ∀ c ∈ before, FillOrProgress id c) (hafter : ∀ c ∈ after, FillOrProgress id c) :
    ∃ event,
      terminalEvents (machine.trace l (.register id order target prePosition ::
        (before ++ .recordStatus id "Filled" order' position :: after))) = [event] ∧
      event.ibOrderId = id ∧ event.filledQty = fillTotal before ∧
      (event.status = "Filled" ↔ target ≤ fillTotal before) := by
  have hreg := Live.register order target prePosition hfresh hlive
  have hquiet₀ : (step l (.register id order target prePosition)).2.filter
      LedgerEvent.terminal = [] := by
    simp [step, register, hfresh, makeEvent]
  have hwired₁ : (step l (.register id order target prePosition)).1.positionGetterWired = false :=
    machine_positionGetterWired [.register id order target prePosition] hwired
  rw [terminalEvents_trace_cons, hquiet₀, List.nil_append, terminalEvents_trace_append]
  generalize (step l (.register id order target prePosition)).1 = l₁ at hreg hwired₁ ⊢
  obtain ⟨hrun, hquiet₁⟩ := hreg.run before hbefore
  rw [zero_add] at hrun
  have hwired₂ := machine_positionGetterWired before hwired₁
  rw [hquiet₁, List.nil_append, terminalEvents_trace_cons]
  generalize machine.run l₁ before = l₂ at hrun hwired₂ ⊢
  obtain ⟨hev, event, hemit, hterm, hid, hqty, hstatus⟩ :=
    hrun.filled hwired₂ hT order' position
  refine ⟨event, ?_, hid, hqty, hstatus⟩
  rw [hemit, terminalEvents_of_evicted after hev hafter]
  simp [hterm]

/-- A registered order of 10 filled 2 before the `Filled` status and 8 after it. -/
theorem filled_run_terminal_straddled :
    ∃ event,
      terminalEvents (machine.trace (Ledger.init false) (.register "100" {} 10 none ::
        ([.recordFill "100" ⟨2, 5, 1, "a"⟩ {} (-1) (-1), .recordStatus "100" "Submitted" {}
            (fun _ _ => none)] ++
          .recordStatus "100" "Filled" {} (fun _ _ => none) ::
          [.recordFill "100" ⟨8, 5, 1, "b"⟩ {} (-1) (-1)]))) = [event] ∧
      event.ibOrderId = "100" ∧
      event.filledQty = fillTotal [.recordFill "100" ⟨2, 5, 1, "a"⟩ {} (-1) (-1),
        .recordStatus "100" "Submitted" {} (fun _ _ => none)] ∧
      (event.status = "Filled" ↔
        10 ≤ fillTotal [.recordFill "100" ⟨2, 5, 1, "a"⟩ {} (-1) (-1),
          .recordStatus "100" "Submitted" {} (fun _ _ => none)]) :=
  filled_run_terminal (Ledger.init false) "100" {} {} 10 none (fun _ _ => none) _ _
    (by norm_num) rfl (by simp) rfl (by simp [FillOrProgress, terminalStatuses])
    (by simp [FillOrProgress])

/-- The `Filled` status before the fills: one terminal event, and it is neither
    `Filled` nor for the order's target. -/
theorem filled_before_fills_terminal :
    ¬ ∃ event,
      terminalEvents (machine.trace (Ledger.init false)
        [.register "100" {} 10 none, .recordStatus "100" "Filled" {} (fun _ _ => none),
         .recordFill "100" ⟨10, 5, 1, "a"⟩ {} (-1) (-1)]) = [event] ∧
      event.status = "Filled" ∧ event.filledQty = 10 := by
  have hrun : (terminalEvents (machine.trace (Ledger.init false)
      [.register "100" {} 10 none, .recordStatus "100" "Filled" {} (fun _ _ => none),
       .recordFill "100" ⟨10, 5, 1, "a"⟩ {} (-1) (-1)])).map LedgerEvent.status =
      ["Cancelled"] := by decide +kernel
  rintro ⟨event, hevents, hstatus, -⟩
  rw [hevents, List.map_singleton, hstatus] at hrun
  exact absurd hrun (by decide)

end IbTrader.Engine.OrderLedger
