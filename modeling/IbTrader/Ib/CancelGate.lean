/-
  IbTrader.Ib.CancelGate

  The verify-cancel gate of the IB client (`ib_trader/ib/insync_client.py`), for
  one order: a Cancelled status is held back until IB's list of open orders has
  been asked, while other statuses go to the callbacks at once.

  The inputs are the order-status events and the answers to the queries, in any
  order.  Every cancel starts a query of its own; an answer names its query by the
  number of that cancel.  The dispatches of one order run under its lock, first
  come first served, so the callbacks receive the statuses in the order in which
  they are dispatched.  Logging is left out.
-/

import Mathlib.Algebra.Order.Ring.Rat
import IbTrader.Lib.Mealy

namespace IbTrader.Ib.CancelGate

open Lib

-- ============================================================================
-- The client
-- ============================================================================

/-- `_TERMINAL_STATUSES`. -/
def terminalStatuses : List String := ["Filled", "Cancelled", "Inactive", "ApiCancelled"]

/-- The statuses that are verified. -/
def cancelStatuses : List String := ["Cancelled", "ApiCancelled"]

/-- What `_on_order_status` reads of the trade. -/
structure StatusEvent where
  status : String
  permId : ℤ
  filled : ℚ
  deriving DecidableEq, Repr

/-- `is_prerouting_cancel`. -/
def StatusEvent.isPreroutingCancel (e : StatusEvent) : Prop :=
  e.status = "Cancelled" ∧ e.permId = 0 ∧ e.filled = 0

instance (e : StatusEvent) : Decidable e.isPreroutingCancel := by
  unfold StatusEvent.isPreroutingCancel; infer_instance

/-- A cancel that is verified. -/
def StatusEvent.isCancel (e : StatusEvent) : Prop :=
  ¬ e.isPreroutingCancel ∧ e.status ∈ cancelStatuses

instance (e : StatusEvent) : Decidable e.isCancel := by
  unfold StatusEvent.isCancel; infer_instance

/-- How a query of the open orders ends. -/
inductive Answer where
  | stillOpen
  | gone
  | failed
  deriving DecidableEq, Repr

inductive Input where
  | status (event : StatusEvent)
  | answered (query : ℕ) (answer : Answer)
  deriving DecidableEq, Repr

/-- What the client keeps of the order. -/
structure Gate where
  /-- `trade.orderStatus.status`. -/
  field : String := "PendingSubmit"
  /-- The order's `_previous_clean_status_map`. -/
  previousClean : Option String := none
  /-- Callbacks are registered for this order. -/
  registered : Bool := true
  /-- The verifications started so far. -/
  started : ℕ := 0
  /-- Those that wait for their answer. -/
  waiting : List ℕ := []
  deriving DecidableEq, Repr

/-- A status given to the callbacks of the order, or to the global ones. -/
inductive Delivery where
  | toOrder (status : String)
  | toGlobal (status : String)
  deriving DecidableEq, Repr

/-- `unregister_callbacks`. -/
def Gate.unregisterCallbacks (g : Gate) : Gate := { g with registered := false, previousClean := none }

/-- `_dispatch_status_to_callbacks`. -/
def Gate.dispatchStatus (g : Gate) (status : String) : Gate × List Delivery :=
  (if status ∈ terminalStatuses then g.unregisterCallbacks else g,
    (if g.registered then [.toOrder status] else []) ++ [.toGlobal status])

/-- `_on_order_status`.  The event has written the field before it is handled. -/
def Gate.onOrderStatus (g : Gate) (e : StatusEvent) : Gate × List Delivery :=
  let g := { g with field := e.status }
  if e.isPreroutingCancel then (g, [])
  else if e.status ∈ cancelStatuses then
    ({ g with
        field := g.previousClean.getD "Submitted"
        started := g.started + 1
        waiting := g.waiting ++ [g.started] }, [])
  else ({ g with previousClean := some e.status } : Gate).dispatchStatus e.status

/-- `_verify_cancel`, once its query has ended. -/
def Gate.verifyCancel (g : Gate) (query : ℕ) (answer : Answer) : Gate × List Delivery :=
  if query ∈ g.waiting then
    let g := { g with waiting := g.waiting.erase query }
    match answer with
    -- a failed query counts as open
    | .stillOpen | .failed => (g, [])
    | .gone =>
      if g.field = "Filled" then (g, [])
      else ({ g with field := "Cancelled" } : Gate).dispatchStatus "Cancelled"
  else (g, [])

def Gate.step (g : Gate) : Input → Gate × List Delivery
  | .status e => g.onOrderStatus e
  | .answered query answer => g.verifyCancel query answer

/-- The client as a machine: events and answers in, deliveries out. -/
def machine : Mealy Gate Input Delivery where
  next g i := (g.step i).1
  emit g i := (g.step i).2

/-- What the global callbacks receive. -/
def Delivery.received : Delivery → Option String
  | .toGlobal status => some status
  | .toOrder _ => none

def received (trace : List (Input × Delivery)) : List String :=
  trace.filterMap fun p => p.2.received

/-- What the global callbacks receive over a run. -/
def receivedBy (inputs : List Input) : List String := received (machine.trace {} inputs)

/-- The terminal statuses among them. -/
def terminals (statuses : List String) : List String := statuses.filter (· ∈ terminalStatuses)

-- ============================================================================
-- What IB has reported
-- ============================================================================

/-- The inputs so far, as IB knows them. -/
structure Reports where
  /-- The status of the last event. -/
  last : Option String := none
  cancels : ℕ := 0
  /-- The queries not answered yet. -/
  awaiting : List ℕ := []
  deriving DecidableEq, Repr

def Reports.next (r : Reports) : Input → Reports
  | .status e =>
    if e.isCancel then
      { last := some e.status, cancels := r.cancels + 1, awaiting := r.awaiting ++ [r.cancels] }
    else { r with last := some e.status }
  | .answered query _ => { r with awaiting := r.awaiting.erase query }

/-- An input that says the order is over: Filled or Inactive, or the answer that it
    is no longer open while the last status is not Filled. -/
def Reports.Conclusive (r : Reports) : Input → Prop
  | .status e => e.status ∈ ["Filled", "Inactive"]
  | .answered query answer => query ∈ r.awaiting ∧ answer = .gone ∧ r.last ≠ some "Filled"

instance (r : Reports) (i : Input) : Decidable (r.Conclusive i) := by
  unfold Reports.Conclusive; cases i <;> infer_instance

/-- The conclusive inputs of a run. -/
def conclusions : Reports → List Input → ℕ
  | _, [] => 0
  | r, i :: is => (if r.Conclusive i then 1 else 0) + conclusions (r.next i) is

/-- The number of cancels among some inputs. -/
def cancelCount (inputs : List Input) : ℕ :=
  inputs.countP fun i => match i with
    | .status e => decide e.isCancel
    | .answered .. => false

-- ============================================================================
-- The client follows the reports
-- ============================================================================

/-- The field reads Filled just after a Filled event, for the last clean status a
    cancel restores is never Filled. -/
structure Follows (g : Gate) (r : Reports) : Prop where
  field : g.field = "Filled" ↔ r.last = some "Filled"
  previousClean : g.previousClean ≠ some "Filled"
  started : g.started = r.cancels
  waiting : g.waiting = r.awaiting

theorem Follows.start : Follows {} {} where
  field := by decide
  previousClean := nofun
  started := rfl
  waiting := rfl

@[simp] theorem dispatchStatus_field (g : Gate) (status : String) :
    (g.dispatchStatus status).1.field = g.field := by
  unfold Gate.dispatchStatus; dsimp only; split <;> rfl

@[simp] theorem dispatchStatus_started (g : Gate) (status : String) :
    (g.dispatchStatus status).1.started = g.started := by
  unfold Gate.dispatchStatus; dsimp only; split <;> rfl

@[simp] theorem dispatchStatus_waiting (g : Gate) (status : String) :
    (g.dispatchStatus status).1.waiting = g.waiting := by
  unfold Gate.dispatchStatus; dsimp only; split <;> rfl

/-- A dispatch reaches the global callbacks once. -/
@[simp] theorem dispatchStatus_received (g : Gate) (status : String) :
    (g.dispatchStatus status).2.filterMap Delivery.received = [status] := by
  unfold Gate.dispatchStatus
  cases g.registered <;> rfl

/-- A terminal dispatch forgets the last clean status. -/
theorem dispatchStatus_previousClean {g : Gate} {status : String}
    (h : status ∉ terminalStatuses → g.previousClean ≠ some "Filled") :
    (g.dispatchStatus status).1.previousClean ≠ some "Filled" := by
  unfold Gate.dispatchStatus
  dsimp only
  split
  · exact nofun
  case isFalse hstatus => exact h hstatus

/-- What the global callbacks receive of one input. -/
def Gate.received (g : Gate) (i : Input) : List String := (g.step i).2.filterMap Delivery.received

/-- What one input does: the client keeps following, a terminal status is received
    for a conclusive input and no other, and Cancelled only for an answer. -/
structure Stepped (g : Gate) (r : Reports) (i : Input) : Prop where
  follows : Follows (g.step i).1 (r.next i)
  terminals : (terminals (g.received i)).length = if r.Conclusive i then 1 else 0
  verified : "Cancelled" ∈ g.received i → ∃ query, i = .answered query .gone ∧ query ∈ g.waiting

/-- An input that is not conclusive and reaches no callback. -/
theorem Stepped.silent {g : Gate} {r : Reports} {i : Input} (h : Follows (g.step i).1 (r.next i))
    (hnone : g.received i = []) (hopen : ¬ r.Conclusive i) : Stepped g r i where
  follows := h
  terminals := by rw [hnone, if_neg hopen]; rfl
  verified := by rw [hnone]; exact fun hmem => absurd hmem List.not_mem_nil

theorem stepped_preroutingCancel {g : Gate} {r : Reports} (h : Follows g r) {e : StatusEvent}
    (hpre : e.isPreroutingCancel) : Stepped g r (.status e) := by
  have hcancel : ¬ e.isCancel := fun hcancel => hcancel.1 hpre
  have hstep : g.step (.status e) = ({ g with field := e.status }, []) := if_pos hpre
  refine .silent ?_ (by rw [Gate.received, hstep]; rfl) (by simp [Reports.Conclusive, hpre.1])
  rw [hstep, Reports.next, if_neg hcancel]
  exact ⟨by simp, h.previousClean, h.started, h.waiting⟩

theorem stepped_cancel {g : Gate} {r : Reports} (h : Follows g r) {e : StatusEvent}
    (hcancel : e.isCancel) : Stepped g r (.status e) := by
  have hname : e.status = "Cancelled" ∨ e.status = "ApiCancelled" := by
    simpa [cancelStatuses] using hcancel.2
  have hstep : g.step (.status e) = ({ g with
      field := g.previousClean.getD "Submitted"
      started := g.started + 1
      waiting := g.waiting ++ [g.started] }, []) := by
    rw [Gate.step, Gate.onOrderStatus, if_neg hcancel.1, if_pos hcancel.2]
  have hopen : ¬ r.Conclusive (.status e) := by
    rcases hname with hs | hs <;> simp [Reports.Conclusive, hs]
  -- what the cancel restores is not Filled, and neither is the cancel
  have hrestored : g.previousClean.getD "Submitted" ≠ "Filled" := by
    have hclean := h.previousClean
    cases hprev : g.previousClean with
    | none => decide
    | some status =>
      rintro rfl
      exact hclean hprev
  have hlast : some e.status ≠ some "Filled" := by
    rcases hname with hs | hs <;> simp [hs]
  refine .silent ?_ (by rw [Gate.received, hstep]; rfl) hopen
  rw [hstep, Reports.next, if_pos hcancel]
  refine ⟨iff_of_false hrestored hlast, h.previousClean, ?_, ?_⟩
  · change g.started + 1 = r.cancels + 1
    rw [h.started]
  · change g.waiting ++ [g.started] = r.awaiting ++ [r.cancels]
    rw [h.waiting, h.started]

theorem stepped_clean {g : Gate} {r : Reports} (h : Follows g r) {e : StatusEvent}
    (hpre : ¬ e.isPreroutingCancel) (hstatus : e.status ∉ cancelStatuses) :
    Stepped g r (.status e) := by
  have hcancel : ¬ e.isCancel := fun hcancel => hstatus hcancel.2
  have hstep : g.step (.status e) =
      ({ g with field := e.status, previousClean := some e.status } : Gate).dispatchStatus
        e.status := by
    rw [Gate.step, Gate.onOrderStatus, if_neg hpre, if_neg hstatus]
  have hreceived : g.received (.status e) = [e.status] := by
    rw [Gate.received, hstep, dispatchStatus_received]
  have hterminal : e.status ∈ terminalStatuses ↔ r.Conclusive (.status e) := by
    simp only [cancelStatuses, List.mem_cons, List.not_mem_nil, or_false] at hstatus
    simp only [terminalStatuses, Reports.Conclusive, List.mem_cons, List.not_mem_nil, or_false]
    tauto
  refine ⟨?_, ?_, ?_⟩
  · rw [hstep, Reports.next, if_neg hcancel]
    refine ⟨by simp, ?_, by simpa using h.started, by simpa using h.waiting⟩
    refine dispatchStatus_previousClean fun hopen heq => hopen ?_
    rw [Option.some.inj heq]
    decide
  · rw [hreceived]
    by_cases hover : r.Conclusive (.status e)
    · rw [if_pos hover, terminals, List.filter_cons_of_pos (by simpa using hterminal.mpr hover)]
      rfl
    · rw [if_neg hover, terminals, List.filter_cons_of_neg]
      · rfl
      · simpa using fun hmem => hover (hterminal.mp hmem)
  · rw [hreceived]
    intro hmem
    rw [← List.mem_singleton.mp hmem] at hstatus
    exact absurd (by decide) hstatus

theorem stepped_answered {g : Gate} {r : Reports} (h : Follows g r) (query : ℕ) (answer : Answer) :
    Stepped g r (.answered query answer) := by
  obtain ⟨hfield, hclean, hstarted, hwaiting⟩ := h
  by_cases hquery : query ∈ g.waiting
  case neg =>
    have hnot : query ∉ r.awaiting := hwaiting ▸ hquery
    have hstep : g.step (.answered query answer) = (g, []) := if_neg hquery
    refine .silent ?_ (by rw [Gate.received, hstep]; rfl) (fun hover => hnot hover.1)
    rw [hstep, Reports.next, List.erase_of_not_mem hnot]
    exact ⟨hfield, hclean, hstarted, hwaiting⟩
  case pos =>
    have hawaiting : query ∈ r.awaiting := hwaiting ▸ hquery
    have herase : g.waiting.erase query = r.awaiting.erase query := by rw [hwaiting]
    have hunheard : g.step (.answered query answer) =
        ({ g with waiting := g.waiting.erase query }, []) → ¬ r.Conclusive (.answered query answer) →
        Stepped g r (.answered query answer) := by
      intro hstep hopen
      refine .silent ?_ (by rw [Gate.received, hstep]; rfl) hopen
      rw [hstep]
      exact ⟨hfield, hclean, hstarted, herase⟩
    cases answer with
    | stillOpen => exact hunheard (if_pos hquery) (by simp [Reports.Conclusive])
    | failed => exact hunheard (if_pos hquery) (by simp [Reports.Conclusive])
    | gone =>
      by_cases hfilled : g.field = "Filled"
      · refine hunheard ?_ (fun hover => hover.2.2 (hfield.mp hfilled))
        rw [Gate.step, Gate.verifyCancel, if_pos hquery]
        exact if_pos hfilled
      · have hlast : r.last ≠ some "Filled" := fun heq => hfilled (hfield.mpr heq)
        have hover : r.Conclusive (.answered query .gone) := ⟨hawaiting, rfl, hlast⟩
        have hstep : g.step (.answered query .gone) =
            ({ g with waiting := g.waiting.erase query, field := "Cancelled" } : Gate).dispatchStatus
              "Cancelled" := by
          rw [Gate.step, Gate.verifyCancel, if_pos hquery]
          exact if_neg hfilled
        have hreceived : g.received (.answered query .gone) = ["Cancelled"] := by
          rw [Gate.received, hstep, dispatchStatus_received]
        refine ⟨?_, ?_, fun _ => ⟨query, rfl, hquery⟩⟩
        · rw [hstep]
          refine ⟨by simpa [Reports.next] using hlast, ?_, by simpa [Reports.next] using hstarted,
            by simpa [Reports.next] using herase⟩
          exact dispatchStatus_previousClean fun hmem => absurd (by decide) hmem
        · rw [hreceived, if_pos hover]
          rfl

theorem Follows.step {g : Gate} {r : Reports} (h : Follows g r) (i : Input) : Stepped g r i := by
  cases i with
  | answered query answer => exact stepped_answered h query answer
  | status e =>
    by_cases hpre : e.isPreroutingCancel
    · exact stepped_preroutingCancel h hpre
    · by_cases hstatus : e.status ∈ cancelStatuses
      · exact stepped_cancel h ⟨hpre, hstatus⟩
      · exact stepped_clean h hpre hstatus

-- ============================================================================
-- Whole runs
-- ============================================================================

theorem received_trace_cons (g : Gate) (i : Input) (is : List Input) :
    received (machine.trace g (i :: is)) =
      g.received i ++ received (machine.trace (g.step i).1 is) := by
  simp [received, Mealy.trace_cons, machine, Gate.received, List.filterMap_append,
    List.filterMap_map, Function.comp_def]

/-- As many terminal statuses are received as there are conclusive inputs. -/
theorem Follows.terminals_length (inputs : List Input) :
    ∀ {g : Gate} {r : Reports}, Follows g r →
      (terminals (received (machine.trace g inputs))).length = conclusions r inputs := by
  induction inputs with
  | nil => intro g r _; rfl
  | cons i is ih =>
    intro g r h
    obtain ⟨hfollows, hterminals, -⟩ := h.step i
    rw [received_trace_cons, terminals, List.filter_append, List.length_append, conclusions,
      ← hterminals, ← ih hfollows]
    rfl

theorem Follows.run (inputs : List Input) :
    ∀ {g : Gate} {r : Reports}, Follows g r →
      Follows (machine.run g inputs) (inputs.foldl Reports.next r) := by
  induction inputs with
  | nil => intro g r h; exact h
  | cons i is ih => intro g r h; exact ih (h.step i).follows

theorem cancelCount_append (inputs more : List Input) :
    cancelCount (inputs ++ more) = cancelCount inputs + cancelCount more :=
  List.countP_append

/-- A query that is waited for was started by one of the cancels. -/
theorem awaiting_lt (inputs : List Input) :
    ∀ {r : Reports}, (∀ query ∈ r.awaiting, query < r.cancels) →
      (inputs.foldl Reports.next r).cancels = r.cancels + cancelCount inputs ∧
        ∀ query ∈ (inputs.foldl Reports.next r).awaiting,
          query < (inputs.foldl Reports.next r).cancels := by
  induction inputs with
  | nil => intro r h; exact ⟨rfl, h⟩
  | cons i is ih =>
    intro r h
    suffices hnext : (r.next i).cancels = r.cancels + cancelCount [i] ∧
        ∀ query ∈ (r.next i).awaiting, query < (r.next i).cancels by
      obtain ⟨hcancels, hawaiting⟩ := ih hnext.2
      refine ⟨?_, hawaiting⟩
      rw [List.foldl_cons, hcancels, hnext.1, add_assoc, ← cancelCount_append,
        List.singleton_append]
    cases i with
    | answered query answer =>
      exact ⟨rfl, fun q hq => h q (List.mem_of_mem_erase hq)⟩
    | status e =>
      by_cases hcancel : e.isCancel
      · rw [Reports.next, if_pos hcancel]
        refine ⟨by simp [cancelCount, hcancel], fun q hq => ?_⟩
        rcases List.mem_append.mp hq with hq | hq
        · exact Nat.lt_succ_of_lt (h q hq)
        · rw [List.mem_singleton.mp hq]
          exact Nat.lt_succ_self r.cancels
      · rw [Reports.next, if_neg hcancel]
        exact ⟨by simp [cancelCount, hcancel], h⟩

/-- The element of a list with so many of its kind before it. -/
theorem exists_split_of_lt_countP {α : Type*} {p : α → Bool} {n : ℕ} :
    ∀ {l : List α}, n < l.countP p →
      ∃ l₁ a l₂, l = l₁ ++ a :: l₂ ∧ p a = true ∧ l₁.countP p = n := by
  intro l
  induction l generalizing n with
  | nil => intro h; exact absurd h (by simp)
  | cons a l ih =>
    intro h
    by_cases ha : p a = true
    · rw [List.countP_cons_of_pos ha] at h
      cases n with
      | zero => exact ⟨[], a, l, rfl, ha, rfl⟩
      | succ n =>
        obtain ⟨l₁, b, l₂, rfl, hb, hcount⟩ := ih (Nat.lt_of_succ_lt_succ h)
        refine ⟨a :: l₁, b, l₂, rfl, hb, ?_⟩
        rw [List.countP_cons_of_pos ha, hcount]
    · rw [List.countP_cons_of_neg ha] at h
      obtain ⟨l₁, b, l₂, rfl, hb, hcount⟩ := ih h
      refine ⟨a :: l₁, b, l₂, rfl, hb, ?_⟩
      rw [List.countP_cons_of_neg ha, hcount]

/-- The input answers, no longer open, the query that a cancel among the inputs
    before it has started. -/
def VerifiesCancel (before : List Input) (i : Input) : Prop :=
  ∃ e earlier later, before = earlier ++ .status e :: later ∧ e.isCancel ∧
    i = .answered (cancelCount earlier) .gone

/-- Cancelled is received only on the answer to a query that a cancel started. -/
theorem cancelled_verified {before : List Input} {i : Input}
    (h : "Cancelled" ∈ (machine.run {} before).received i) : VerifiesCancel before i := by
  have hfollows := Follows.run before Follows.start
  obtain ⟨query, rfl, hquery⟩ := (hfollows.step i).verified h
  obtain ⟨hcancels, hlt⟩ := awaiting_lt before (r := {}) (by simp)
  rw [hfollows.waiting] at hquery
  have hcount : query < cancelCount before := by
    have hbelow := hlt query hquery
    rw [hcancels] at hbelow
    simpa using hbelow
  obtain ⟨earlier, input, later, rfl, hinput, rfl⟩ := exists_split_of_lt_countP hcount
  cases input with
  | answered query answer => cases hinput
  | status e => exact ⟨e, earlier, later, rfl, of_decide_eq_true hinput, rfl⟩

/-- At most one terminal status. -/
def TerminalOnce (statuses : List String) : Prop := (terminals statuses).length ≤ 1

/-- Cancelled does not come after Filled. -/
def FilledIsFinal (statuses : List String) : Prop :=
  statuses.Pairwise fun s t => s = "Filled" → t ≠ "Cancelled"

instance (statuses : List String) : Decidable (TerminalOnce statuses) := by
  unfold TerminalOnce; infer_instance

instance (statuses : List String) : Decidable (FilledIsFinal statuses) := by
  unfold FilledIsFinal; infer_instance

/-- With one terminal status there is none after Filled. -/
theorem filledIsFinal_of_terminalOnce {statuses : List String} (h : TerminalOnce statuses) :
    FilledIsFinal statuses := by
  induction statuses with
  | nil => exact .nil
  | cons s statuses ih =>
    have hrest : TerminalOnce statuses := by
      refine le_trans (List.Sublist.length_le ?_) h
      exact (List.sublist_cons_self s statuses).filter _
    refine .cons ?_ (ih hrest)
    rintro t ht rfl rfl
    have hcancelled : "Cancelled" ∈ terminals statuses := List.mem_filter.mpr ⟨ht, by decide⟩
    rw [TerminalOnce, terminals, List.filter_cons_of_pos (by decide), List.length_cons] at h
    have hpos := List.length_pos_of_mem hcancelled
    rw [terminals] at hpos
    omega

/-- Over every run, Cancelled is received only once a query that a cancel started
    has found the order gone; and the global callbacks receive one terminal status
    at most, and no Cancelled after Filled, exactly when at most one input is
    conclusive. -/
theorem cancelGate_iff (inputs : List Input) :
    (∀ before i after, inputs = before ++ i :: after →
      "Cancelled" ∈ (machine.run {} before).received i → VerifiesCancel before i) ∧
      (TerminalOnce (receivedBy inputs) ∧ FilledIsFinal (receivedBy inputs) ↔
        conclusions {} inputs ≤ 1) := by
  refine ⟨fun before i after _ h => cancelled_verified h, ?_⟩
  have hlength : (terminals (receivedBy inputs)).length = conclusions {} inputs :=
    Follows.terminals_length inputs Follows.start
  rw [← hlength]
  exact ⟨fun h => h.1, fun h => ⟨h, filledIsFinal_of_terminalOnce h⟩⟩

/-- Two cancels, both verified: Cancelled is received twice. -/
theorem cancelGate_fails :
    ¬ ∀ inputs, TerminalOnce (receivedBy inputs) ∧ FilledIsFinal (receivedBy inputs) := by
  intro h
  have htwice := (h [.status ⟨"Cancelled", 1, 0⟩, .status ⟨"ApiCancelled", 1, 0⟩,
    .answered 0 .gone, .answered 1 .gone]).1
  exact absurd htwice (by decide +kernel)

/-- A cancel after Filled hides it from the verification. -/
example : receivedBy [.status ⟨"Filled", 1, 10⟩, .status ⟨"Cancelled", 1, 10⟩, .answered 0 .gone] =
    ["Filled", "Cancelled"] := by decide +kernel

end IbTrader.Ib.CancelGate
