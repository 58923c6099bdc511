/-
  IbTrader.Daemon.Monitor

  The monitors of the daemon (`check_repl_heartbeat` and `check_ib_connectivity` in
  `ib_trader/daemon/monitor.py`) and the alerts that they raise.

  A failed check of IB counts, a passed one sets the count back.  Each spell of failures is
  announced by one warning, and from the third failure on by a catastrophic alert as long
  as none is open (`connectivity_alerts`); of either catastrophic alert no two are ever
  open (`one_open_alert`).  What is logged is left out.
-/

import IbTrader.Lib.Run
import IbTrader.Lib.Streak
import Mathlib.Algebra.Order.Field.Rat
import Mathlib.Data.List.Count

namespace IbTrader.Daemon

open Lib

-- ============================================================================
-- The alerts
-- ============================================================================

inductive AlertSeverity
  | warning
  | catastrophic
  deriving DecidableEq, Repr

/-- `SystemAlert`. -/
structure SystemAlert where
  severity : AlertSeverity
  trigger : String
  message : String
  /-- `resolved_at` is set. -/
  resolved : Bool := false
  deriving DecidableEq, Repr

structure Monitor where
  alerts : List SystemAlert := []
  /-- `consecutive_failures`. -/
  consecutiveFailures : List String := []
  deriving DecidableEq, Repr

/-- `get_open`. -/
def getOpen (alerts : List SystemAlert) : List SystemAlert := alerts.filter fun a => !a.resolved

def alreadyAlerted (alerts : List SystemAlert) (trigger : String) : Bool :=
  (getOpen alerts).any fun a => a.trigger = trigger

namespace Monitor

def create (m : Monitor) (a : SystemAlert) : Monitor := { m with alerts := m.alerts ++ [a] }

-- ============================================================================
-- The checks
-- ============================================================================

/-- How old the heartbeat of the REPL is, and its process. -/
structure Heartbeat where
  age : ℚ
  pid : ℤ
  deriving DecidableEq, Repr

def replStale (hb : Heartbeat) : SystemAlert where
  severity := .catastrophic
  trigger := "REPL_HEARTBEAT_STALE"
  message := s!"CLI heartbeat lost (last seen {hb.age.floor}s ago, PID {hb.pid}). " ++
    "REPL may have crashed. Check the process and restart if needed."

/-- `check_repl_heartbeat`; the REPL that has exited has no heartbeat. -/
def checkReplHeartbeat (threshold : ℚ) (m : Monitor) : Option Heartbeat → Monitor
  | none => m
  | some hb =>
    if threshold < hb.age ∧ !alreadyAlerted m.alerts "REPL_HEARTBEAT_STALE" then m.create (replStale hb) else m

def connectivityFailure (count : ℕ) (e : String) : SystemAlert where
  severity := .catastrophic
  trigger := "IB_CONNECTIVITY_FAILURE"
  message := s!"IB Gateway unreachable — {count} consecutive failures. Last error: {e}"

def connectivityWarning (count : ℕ) (e : String) : SystemAlert where
  severity := .warning
  trigger := "IB_CONNECTIVITY_WARNING"
  message := s!"IB Gateway connectivity check failed (attempt {count}): {e}"

/-- `check_ib_connectivity`, by the error of the request. -/
def checkIbConnectivity (m : Monitor) : Option String → Monitor
  | none => { m with consecutiveFailures := [] }
  | some e =>
    let m := { m with consecutiveFailures := m.consecutiveFailures ++ [e] }
    let count := m.consecutiveFailures.length
    if 3 ≤ count then
      if alreadyAlerted m.alerts "IB_CONNECTIVITY_FAILURE" then m else m.create (connectivityFailure count e)
    else if count = 1 then m.create (connectivityWarning count e)
    else m

/-- `resolve`, of the alert with this number. -/
def resolve (m : Monitor) (i : ℕ) : Monitor :=
  { m with alerts := m.alerts.modify i fun a => { a with resolved := true } }

end Monitor

inductive MonitorEvent
  | repl (hb : Option Monitor.Heartbeat)
  | ib (error : Option String)
  | resolve (i : ℕ)
  deriving DecidableEq, Repr

variable (threshold : ℚ)

def Monitor.next (m : Monitor) : MonitorEvent → Monitor
  | .repl hb => checkReplHeartbeat threshold m hb
  | .ib error => m.checkIbConnectivity error
  | .resolve i => m.resolve i

def Monitor.after (events : List MonitorEvent) : Monitor := events.foldl (Monitor.next threshold) {}

-- ============================================================================
-- What is open
-- ============================================================================

/-- How many alerts of a kind are open. -/
def openAlerts (alerts : List SystemAlert) (trigger : String) : ℕ :=
  alerts.countP fun a => !a.resolved && decide (a.trigger = trigger)

section Open

variable {threshold} {m : Monitor} {trigger : String}

theorem openAlerts_eq_zero (h : alreadyAlerted m.alerts trigger = false) : openAlerts m.alerts trigger = 0 := by
  refine List.countP_eq_zero.mpr fun a ha hopen => ?_
  rw [Bool.and_eq_true] at hopen
  refine absurd h (Bool.not_eq_false _ ▸ List.any_eq_true.mpr ⟨a, List.mem_filter.mpr ⟨ha, hopen.1⟩, hopen.2⟩)

theorem openAlerts_concat (alerts : List SystemAlert) (a : SystemAlert) :
    openAlerts (alerts ++ [a]) trigger = openAlerts alerts trigger +
      if !a.resolved && decide (a.trigger = trigger) then 1 else 0 := by
  unfold openAlerts
  rw [List.countP_append, List.countP_singleton]

/-- An alert that is raised only where none of its kind is open. -/
theorem openAlerts_create {a : SystemAlert} (h : openAlerts m.alerts trigger ≤ 1)
    (hnone : a.trigger = trigger → alreadyAlerted m.alerts trigger = false) :
    openAlerts (m.create a).alerts trigger ≤ 1 := by
  show openAlerts (m.alerts ++ [a]) trigger ≤ 1
  rw [openAlerts_concat]
  by_cases htrigger : a.trigger = trigger
  · rw [openAlerts_eq_zero (hnone htrigger)]
    split <;> decide
  · simpa [htrigger] using h

/-- Resolving one opens none. -/
theorem openAlerts_resolve (alerts : List SystemAlert) (i : ℕ) (trigger : String) :
    openAlerts (alerts.modify i fun a => { a with resolved := true }) trigger ≤ openAlerts alerts trigger := by
  induction alerts generalizing i with
  | nil => simp [openAlerts]
  | cons a alerts ih =>
    unfold openAlerts at ih ⊢
    cases i with
    | zero =>
      rw [List.modify_zero_cons, List.countP_cons, List.countP_cons]
      simp
    | succ i =>
      rw [List.modify_succ_cons, List.countP_cons, List.countP_cons]
      exact Nat.add_le_add_right (ih i) _

theorem openAlerts_next (htrigger : trigger = "IB_CONNECTIVITY_FAILURE" ∨ trigger = "REPL_HEARTBEAT_STALE")
    (h : openAlerts m.alerts trigger ≤ 1) (e : MonitorEvent) :
    openAlerts (m.next threshold e).alerts trigger ≤ 1 := by
  cases e with
  | repl hb =>
    cases hb with
    | none => exact h
    | some hb =>
      show openAlerts (if _ then _ else _ : Monitor).alerts trigger ≤ 1
      split
      case isTrue hstale => exact openAlerts_create h fun heq => heq ▸ (Bool.not_eq_true' _).mp hstale.2
      case isFalse => exact h
  | ib error =>
    cases error with
    | none => exact h
    | some e =>
      show openAlerts (if _ then _ else _ : Monitor).alerts trigger ≤ 1
      split
      · split
        case isTrue => exact h
        case isFalse hnone =>
          exact openAlerts_create (m := { m with consecutiveFailures := m.consecutiveFailures ++ [e] }) h
            fun heq => heq ▸ Bool.eq_false_iff.mpr hnone
      · split
        · have hother : trigger ≠ "IB_CONNECTIVITY_WARNING" := by rcases htrigger with rfl | rfl <;> decide
          exact openAlerts_create (m := { m with consecutiveFailures := m.consecutiveFailures ++ [e] }) h
            fun heq => absurd heq.symm hother
        · exact h
  | resolve i => exact (openAlerts_resolve _ _ _).trans h

theorem openAlerts_after (htrigger : trigger = "IB_CONNECTIVITY_FAILURE" ∨ trigger = "REPL_HEARTBEAT_STALE")
    (events : List MonitorEvent) : openAlerts (Monitor.after threshold events).alerts trigger ≤ 1 := by
  have hall : Along (Monitor.next threshold) (fun _ _ => True) {} events := Along.of_forall events fun _ _ => trivial
  have hstart : openAlerts ({} : Monitor).alerts trigger ≤ 1 := Nat.zero_le 1
  exact Along.invariant (I := fun m : Monitor => openAlerts m.alerts trigger ≤ 1)
    (fun _ e h _ => openAlerts_next htrigger h e) events hstart hall

end Open

-- ============================================================================
-- The spells of failures
-- ============================================================================

/-- The checks of IB, by their errors. -/
def ibChecks (events : List MonitorEvent) : List (Option String) :=
  events.filterMap fun
    | .ib error => some error
    | _ => none

theorem ibChecks_concat (events : List MonitorEvent) (error : Option String) :
    ibChecks (events ++ [.ib error]) = ibChecks events ++ [error] := by
  unfold ibChecks
  rw [List.filterMap_append]
  rfl

theorem failures_checkReplHeartbeat (m : Monitor) (hb : Option Monitor.Heartbeat) :
    (m.checkReplHeartbeat threshold hb).consecutiveFailures = m.consecutiveFailures := by
  cases hb with
  | none => rfl
  | some hb =>
    show (if _ then _ else m : Monitor).consecutiveFailures = _
    split <;> rfl

theorem failures_checkIbConnectivity (m : Monitor) (error : Option String) :
    (m.checkIbConnectivity error).consecutiveFailures.length =
      if error.isSome then m.consecutiveFailures.length + 1 else 0 := by
  cases error with
  | none => rfl
  | some e =>
    have hlength : (m.consecutiveFailures ++ [e]).length = m.consecutiveFailures.length + 1 := List.length_append
    unfold Monitor.checkIbConnectivity
    dsimp only
    split
    · split <;> exact hlength
    · split <;> exact hlength

/-- The failures that are counted are the last checks in a row that failed. -/
theorem failures_after (events : List MonitorEvent) :
    (Monitor.after threshold events).consecutiveFailures.length = streak Option.isSome (ibChecks events) := by
  induction events using List.reverseRecOn with
  | nil => rfl
  | append_singleton events e ih =>
    have hstep : Monitor.after threshold (events ++ [e]) = (Monitor.after threshold events).next threshold e :=
      List.foldl_concat ..
    rw [hstep]
    cases e with
    | repl hb =>
      have hsame : ibChecks (events ++ [.repl hb]) = ibChecks events := by simp [ibChecks]
      rw [hsame, ← ih]
      exact congrArg List.length (failures_checkReplHeartbeat threshold _ hb)
    | ib error =>
      rw [ibChecks_concat, streak_concat, ← ih]
      exact failures_checkIbConnectivity _ error
    | resolve i =>
      have hsame : ibChecks (events ++ [.resolve i]) = ibChecks events := by simp [ibChecks]
      rw [hsame, ← ih]
      rfl

/-- Of the catastrophic alerts no two of a kind are ever open.  A failed check of IB is
    announced if it is the first in a row, and from the third in a row on where no such
    alert is open, with how many failed. -/
theorem monitor_alerts (threshold : ℚ) (events : List MonitorEvent) :
    openAlerts (Monitor.after threshold events).alerts "IB_CONNECTIVITY_FAILURE" ≤ 1 ∧
      openAlerts (Monitor.after threshold events).alerts "REPL_HEARTBEAT_STALE" ≤ 1 ∧
      ∀ e, ∃ count, count = streak Option.isSome (ibChecks (events ++ [.ib (some e)])) ∧
        ((Monitor.after threshold events).next threshold (.ib (some e))).alerts =
          (Monitor.after threshold events).alerts ++
            if 3 ≤ count then
              if alreadyAlerted (Monitor.after threshold events).alerts "IB_CONNECTIVITY_FAILURE" then []
              else [Monitor.connectivityFailure count e]
            else if count = 1 then [Monitor.connectivityWarning count e] else [] := by
  refine ⟨openAlerts_after (.inl rfl) events, openAlerts_after (.inr rfl) events, fun e => ⟨_, rfl, ?_⟩⟩
  have hcount : ((Monitor.after threshold events).consecutiveFailures ++ [e]).length =
      streak Option.isSome (ibChecks (events ++ [.ib (some e)])) := by
    rw [ibChecks_concat, streak_concat, ← failures_after threshold, List.length_append]
    rfl
  rw [← hcount]
  show (Monitor.checkIbConnectivity _ _).alerts = _
  unfold Monitor.checkIbConnectivity
  dsimp only
  split
  · split
    · exact (List.append_nil _).symm
    · rfl
  · split
    · rfl
    · exact (List.append_nil _).symm

end IbTrader.Daemon
