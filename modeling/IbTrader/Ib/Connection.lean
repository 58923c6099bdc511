/-
  IbTrader.Ib.Connection

  The connection to the Gateway, and who brings it back (`connect`, `disconnect`,
  `_on_connected` and `_on_disconnected` in `ib_trader/ib/insync_client.py`,
  `_raise_ib_disconnect_alert` and `_reconnect_with_backoff` in
  `ib_trader/engine/main.py`, `reconnect_ib` in `ib_trader/engine/ib_resilience.py`).

  A drop is expected or not by a flag that an intentional disconnect sets and the next
  drop, or the next connect, clears.  Whatever drops, reconnects by hand and failed
  attempts come together, the engine is connected with its subscriptions issued again, or
  somebody is reconnecting (`connection_watched`).  A loop that fails for five minutes
  escalates, once, and does so by the ninth failure (`escalates_once`).

  Of `connectAsync` it is used that it returns only where the client is ready, that it
  disconnects before it raises, and that it may close an older socket without an event.
  The alerts that the loop raises first and the ones that `_on_connected` removes, and
  the binding of the events at the first connect, are left out.
-/

import IbTrader.Lib.Run
import Mathlib.Algebra.Order.Field.Rat
import Mathlib.Logic.Function.Basic
import Mathlib.Tactic.NormNum

namespace IbTrader.Ib

open Lib

-- ============================================================================
-- The link
-- ============================================================================

/-- Where a task that reconnects is. -/
inductive Doing
  /-- It raises its alert or sleeps; `connect` has not been called. -/
  | waiting
  /-- `connect` waits for the throttle. -/
  | throttled
  /-- In `connectAsync`. -/
  | connecting
  deriving DecidableEq, Repr

/-- A live `_reconnect_with_backoff`, or a `reconnect_ib` that has disconnected and whose
    `connect` is not over. -/
structure Reconnecting where
  manual : Bool
  doing : Doing
  deriving DecidableEq, Repr

structure Link where
  /-- `is_connected`. -/
  connected : Bool := true
  /-- `_resubscribe_all_after_reconnect` has been spawned since the connection was last
      lost. -/
  resubscribed : Bool := true
  /-- `_expected_disconnect`. -/
  expectedDisconnect : Bool := false
  /-- `_ib_reconnect_task`. -/
  reconnectTask : Option ℕ := none
  task : ℕ → Option Reconnecting := fun _ => none
  spawned : ℕ := 0

namespace Link

def spawn (s : Link) (manual : Bool) : Link :=
  { s with task := Function.update s.task s.spawned (some ⟨manual, .waiting⟩), spawned := s.spawned + 1 }

/-- `_raise_ib_disconnect_alert`: one live loop at a time. -/
def raiseIbDisconnectAlert (s : Link) : Link :=
  match s.reconnectTask.bind s.task with
  | some _ => s
  | none => { s.spawn false with reconnectTask := some s.spawned }

/-- `_on_disconnected`. -/
def onDisconnected (s : Link) : Link :=
  if s.expectedDisconnect then { s with resubscribed := false, expectedDisconnect := false }
  else raiseIbDisconnectAlert { s with resubscribed := false }

/-- The client loses its connection, where it has one. -/
def lose (s : Link) : Link := if s.connected then onDisconnected { s with connected := false } else s

/-- `disconnect`. -/
def disconnect (s : Link) : Link := lose { s with expectedDisconnect := true }

/-- A task that sleeps calls `connect`, which clears the flag first. -/
def wakes (s : Link) (t : ℕ) : Link :=
  match s.task t with
  | some ⟨manual, .waiting⟩ =>
    { s with expectedDisconnect := false, task := Function.update s.task t (some ⟨manual, .throttled⟩) }
  | _ => s

/-- The throttle lets it go on with `connectAsync`. -/
def sends (s : Link) (t : ℕ) (closes : Bool) : Link :=
  match s.task t with
  | some ⟨manual, .throttled⟩ =>
    { s with connected := s.connected && !closes, resubscribed := s.resubscribed && !closes,
             task := Function.update s.task t (some ⟨manual, .connecting⟩) }
  | _ => s

/-- The client is ready; `connectAsync` goes on to ask for the orders and positions. -/
def handshake (s : Link) (t : ℕ) : Link :=
  match s.task t with
  | some ⟨_, .connecting⟩ => { s with connected := true }
  | _ => s

/-- `connectAsync` returns, after `_on_connected` has run. -/
def returns (s : Link) (t : ℕ) : Link :=
  match s.connected, s.task t with
  | true, some ⟨_, .connecting⟩ => { s with resubscribed := true, task := Function.update s.task t none }
  | _, _ => s

/-- `connectAsync` raises.  The loop sleeps again; a reconnect by hand leaves it to a loop. -/
def raises (s : Link) (t : ℕ) : Link :=
  match s.task t with
  | some ⟨false, .connecting⟩ => { s with task := Function.update s.task t (some ⟨false, .waiting⟩) }.lose
  | some ⟨true, .connecting⟩ => { s with task := Function.update s.task t none }.lose.raiseIbDisconnectAlert
  | _ => s

end Link

inductive LinkEvent
  | drop
  | reconnectIb
  | wakes (t : ℕ)
  | sends (t : ℕ) (closes : Bool)
  | handshake (t : ℕ)
  | returns (t : ℕ)
  | raises (t : ℕ)
  deriving DecidableEq, Repr

def Link.next (s : Link) : LinkEvent → Link
  | .drop => s.lose
  | .reconnectIb => s.disconnect.spawn true
  | .wakes t => s.wakes t
  | .sends t closes => s.sends t closes
  | .handshake t => s.handshake t
  | .returns t => s.returns t
  | .raises t => s.raises t

/-- From the end of the startup on. -/
def Link.after (events : List LinkEvent) : Link := events.foldl Link.next {}

-- ============================================================================
-- Somebody watches
-- ============================================================================

namespace Link

/-- A task that reconnects. -/
def Live (s : Link) : Prop := ∃ t r, s.task t = some r

/-- The tasks are numbered, and a loop is the one that `_ib_reconnect_task` holds. -/
structure Tasks (s : Link) : Prop where
  fresh : ∀ t, s.spawned ≤ t → s.task t = none
  one_loop : ∀ t doing, s.task t = some ⟨false, doing⟩ → s.reconnectTask = some t

/-- A drop is taken for an expected one only while a reconnect by hand has not called
    `connect`. -/
def Covered (s : Link) : Prop := s.expectedDisconnect = true → ∃ t, s.task t = some ⟨true, .waiting⟩

def Watched (s : Link) : Prop := (s.connected = true ∧ s.resubscribed = true) ∨ s.Live

structure Sound (s : Link) : Prop where
  tasks : s.Tasks
  covered : s.Covered
  watched : s.Watched

variable {s s' : Link} {t : ℕ} {r : Reconnecting}

theorem Tasks.lt (h : s.Tasks) (htask : s.task t = some r) : t < s.spawned := by
  by_contra hnot
  rw [h.fresh t (Nat.le_of_not_lt hnot)] at htask
  cases htask

theorem task_spawn (h : s.Tasks) (manual : Bool) (htask : s.task t = some r) : (s.spawn manual).task t = some r :=
  (Function.update_of_ne (h.lt htask).ne _ _).trans htask

theorem live_spawn (s : Link) (manual : Bool) : (s.spawn manual).task s.spawned = some ⟨manual, .waiting⟩ :=
  Function.update_self _ _ _

theorem fresh_spawn (h : s.Tasks) (manual : Bool) (ht : (s.spawn manual).spawned ≤ t) :
    (s.spawn manual).task t = none :=
  (Function.update_of_ne (Nat.succ_le_iff.mp ht).ne' _ _).trans (h.fresh t (Nat.le_of_succ_le ht))

theorem tasks_spawn_manual (h : s.Tasks) : (s.spawn true).Tasks := by
  refine ⟨fun t => fresh_spawn h true, fun t doing htask => ?_⟩
  · by_cases hts : t = s.spawned
    · rw [hts, live_spawn] at htask
      cases htask
    · exact h.one_loop t doing ((Function.update_of_ne hts _ _).symm.trans htask)

/-- A task that goes on, or ends. -/
theorem tasks_update (h : s.Tasks) (htask : s.task t = some r) (r' : Option Reconnecting)
    (hmanual : ∀ r'' ∈ r', r''.manual = r.manual) : Tasks { s with task := Function.update s.task t r' } := by
  refine ⟨fun u hu => ?_, fun u doing hu => ?_⟩
  · exact (Function.update_of_ne (h.lt htask |>.trans_le hu).ne' _ _).trans (h.fresh u hu)
  · by_cases hut : u = t
    · subst hut
      change Function.update s.task u r' u = _ at hu
      rw [Function.update_self] at hu
      obtain ⟨manual, doing'⟩ := r
      have hloop : false = manual := hmanual _ hu
      subst hloop
      exact h.one_loop u doing' htask
    · exact h.one_loop u doing ((Function.update_of_ne hut _ _).symm.trans hu)

/-- What `_raise_ib_disconnect_alert` does: afterwards a loop is live. -/
theorem raise_spec (h : s.Tasks) : s.raiseIbDisconnectAlert.Tasks ∧ s.raiseIbDisconnectAlert.Live ∧
    s.raiseIbDisconnectAlert.expectedDisconnect = s.expectedDisconnect ∧
    ∀ t r, s.task t = some r → s.raiseIbDisconnectAlert.task t = some r := by
  unfold raiseIbDisconnectAlert
  split
  case h_1 r hr =>
    obtain ⟨t, -, ht⟩ := Option.bind_eq_some_iff.mp hr
    exact ⟨h, ⟨t, r, ht⟩, rfl, fun _ _ => id⟩
  case h_2 hnone =>
    refine ⟨⟨fun t => fresh_spawn h false, fun t doing htask => ?_⟩, ⟨s.spawned, _, live_spawn s false⟩, rfl,
      fun t r htask => task_spawn h false htask⟩
    -- the loop that there was is over
    by_cases hts : t = s.spawned
    · rw [hts]
    · have hold : s.task t = some ⟨false, doing⟩ := (Function.update_of_ne hts _ _).symm.trans htask
      rw [h.one_loop t doing hold, Option.bind_some, hold] at hnone
      cases hnone

/-- What a drop does: afterwards somebody watches. -/
theorem lose_spec (h : s.Tasks) (hcovered : s.Covered) : s.lose.Tasks ∧ s.lose.Covered ∧
    (s.connected = true → s.lose.Live) ∧ ∀ t r, s.task t = some r → s.lose.task t = some r := by
  unfold lose onDisconnected
  split
  case isFalse hnot => exact ⟨h, hcovered, fun hc => absurd hc hnot, fun _ _ => id⟩
  case isTrue =>
    split
    case isTrue hexpected =>
      obtain ⟨t, ht⟩ := hcovered hexpected
      exact ⟨⟨h.fresh, h.one_loop⟩, nofun, fun _ => ⟨t, _, ht⟩, fun _ _ => id⟩
    case isFalse hexpected =>
      have htasks : Tasks { s with connected := false, resubscribed := false } := ⟨h.fresh, h.one_loop⟩
      obtain ⟨hkept, hlive, hflag, htask⟩ := raise_spec htasks
      exact ⟨hkept, fun hc => absurd (hflag ▸ hc) hexpected, fun _ => hlive, htask⟩

theorem sound_lose (h : s.Sound) : s.lose.Sound := by
  obtain ⟨htasks, hcovered, hlive, -⟩ := lose_spec h.tasks h.covered
  refine ⟨htasks, hcovered, ?_⟩
  cases hc : s.connected with
  | true => exact .inr (hlive hc)
  | false =>
    rw [lose, hc]
    exact h.watched

theorem sound_spawn_manual (h : s.Tasks) : (s.spawn true).Sound :=
  ⟨tasks_spawn_manual h, fun _ => ⟨s.spawned, live_spawn s true⟩, .inr ⟨s.spawned, _, live_spawn s true⟩⟩

/-- An intentional disconnect starts no loop. -/
theorem tasks_disconnect (h : s.Tasks) : s.disconnect.Tasks := by
  unfold disconnect lose onDisconnected
  split <;> exact ⟨h.fresh, h.one_loop⟩

/-- Another task still waits after one that does not wait has gone on. -/
theorem Covered.update (h : s.Covered) (htask : s.task t = some r) (hr : r.doing ≠ .waiting)
    (r' : Option Reconnecting) : Covered { s with task := Function.update s.task t r' } := by
  intro hexpected
  obtain ⟨u, hu⟩ := h hexpected
  refine ⟨u, (Function.update_of_ne ?_ _ _).trans hu⟩
  rintro rfl
  rw [htask] at hu
  exact hr (by cases hu; rfl)

theorem sound_wakes (h : s.Sound) (t : ℕ) : (s.wakes t).Sound := by
  unfold wakes
  split
  case h_1 manual htask =>
    have htasks := tasks_update h.tasks htask (some ⟨manual, .throttled⟩) (by rintro _ ⟨⟩; rfl)
    exact ⟨⟨htasks.fresh, htasks.one_loop⟩, nofun, .inr ⟨t, _, Function.update_self _ _ _⟩⟩
  case h_2 => exact h

theorem sound_sends (h : s.Sound) (t : ℕ) (closes : Bool) : (s.sends t closes).Sound := by
  unfold sends
  split
  case h_1 manual htask =>
    have htasks := tasks_update h.tasks htask (some ⟨manual, .connecting⟩) (by rintro _ ⟨⟩; rfl)
    have hcovered := h.covered.update htask nofun (some ⟨manual, .connecting⟩)
    exact ⟨⟨htasks.fresh, htasks.one_loop⟩, hcovered, .inr ⟨t, _, Function.update_self _ _ _⟩⟩
  case h_2 => exact h

theorem sound_handshake (h : s.Sound) (t : ℕ) : (s.handshake t).Sound := by
  unfold handshake
  split
  case h_1 manual htask => exact ⟨⟨h.tasks.fresh, h.tasks.one_loop⟩, h.covered, .inr ⟨t, _, htask⟩⟩
  case h_2 => exact h

theorem sound_returns (h : s.Sound) (t : ℕ) : (s.returns t).Sound := by
  unfold returns
  split
  case h_1 manual hconnected htask =>
    have htasks := tasks_update h.tasks htask none nofun
    exact ⟨⟨htasks.fresh, htasks.one_loop⟩, h.covered.update htask nofun none, .inl ⟨hconnected, rfl⟩⟩
  case h_2 => exact h

theorem sound_raises (h : s.Sound) (t : ℕ) : (s.raises t).Sound := by
  unfold raises
  split
  case h_1 htask =>
    -- the loop is still there
    have htasks := tasks_update h.tasks htask (some ⟨false, .waiting⟩) (by rintro _ ⟨⟩; rfl)
    exact sound_lose ⟨htasks, h.covered.update htask nofun _, .inr ⟨t, _, Function.update_self _ _ _⟩⟩
  case h_2 htask =>
    have htasks := tasks_update h.tasks htask none nofun
    obtain ⟨hlost, hcovered, -, -⟩ := lose_spec htasks (h.covered.update htask nofun none)
    obtain ⟨hkept, hlive, hflag, htask⟩ := raise_spec hlost
    refine ⟨hkept, fun hexpected => ?_, .inr hlive⟩
    obtain ⟨u, hu⟩ := hcovered (hflag ▸ hexpected)
    exact ⟨u, htask u _ hu⟩
  case h_3 => exact h

theorem sound_next (h : s.Sound) (e : LinkEvent) : (s.next e).Sound := by
  cases e with
  | drop => exact sound_lose h
  | reconnectIb => exact sound_spawn_manual (tasks_disconnect h.tasks)
  | wakes t => exact sound_wakes h t
  | sends t closes => exact sound_sends h t closes
  | handshake t => exact sound_handshake h t
  | returns t => exact sound_returns h t
  | raises t => exact sound_raises h t

theorem sound_start : Sound {} where
  tasks := ⟨fun _ _ => rfl, fun _ _ htask => nomatch htask⟩
  covered := fun hexpected => nomatch hexpected
  watched := .inl ⟨rfl, rfl⟩

theorem sound_after (events : List LinkEvent) : (Link.after events).Sound :=
  Along.invariant (I := Sound) (fun _ e h _ => sound_next h e) events sound_start
    (Along.of_forall (R := fun _ => True) events fun _ _ => trivial)

/-- A drop that nobody expects, while nobody reconnects, starts a loop. -/
theorem lose_starts (hconnected : s.connected = true) (hunexpected : s.expectedDisconnect = false)
    (hnobody : ∀ t, s.task t = none) : s.lose.task s.spawned = some ⟨false, .waiting⟩ := by
  have hover : s.reconnectTask.bind s.task = none := Option.bind_eq_none_iff.mpr fun t _ => hnobody t
  unfold lose onDisconnected raiseIbDisconnectAlert
  rw [if_pos hconnected]
  simp only [hunexpected, hover, Bool.false_eq_true, if_false]
  exact live_spawn _ false

end Link

/-- In every state the engine is connected and issues its subscriptions again, or a task
    reconnects; no two backoff loops are live; and once nobody reconnects any more the
    next drop starts a loop. -/
theorem connection_watched (events : List LinkEvent) :
    (((Link.after events).connected = true ∧ (Link.after events).resubscribed = true) ∨
        ∃ t r, (Link.after events).task t = some r) ∧
      (∀ t t' doing doing', (Link.after events).task t = some ⟨false, doing⟩ →
        (Link.after events).task t' = some ⟨false, doing'⟩ → t = t') ∧
      ((∀ t, (Link.after events).task t = none) →
        ∃ t, ((Link.after events).next .drop).task t = some ⟨false, .waiting⟩) := by
  have hsound := Link.sound_after events
  refine ⟨hsound.watched, fun t t' doing doing' ht ht' => ?_, fun hnobody => ?_⟩
  · exact Option.some.inj ((hsound.tasks.one_loop t doing ht).symm.trans (hsound.tasks.one_loop t' doing' ht'))
  · have hnotlive : ¬(Link.after events).Live := fun ⟨t, r, ht⟩ => nomatch (hnobody t).symm.trans ht
    obtain ⟨hconnected, -⟩ := hsound.watched.resolve_right hnotlive
    have hunexpected : (Link.after events).expectedDisconnect = false := by
      refine Bool.eq_false_iff.mpr fun hexpected => ?_
      obtain ⟨t, ht⟩ := hsound.covered hexpected
      exact hnotlive ⟨t, _, ht⟩
    exact ⟨_, Link.lose_starts hconnected hunexpected hnobody⟩

-- ============================================================================
-- The loop
-- ============================================================================

/-- `_RECONNECT_INITIAL_BACKOFF_SEC`. -/
def initialBackoffSec : ℚ := 2

/-- `_RECONNECT_MAX_BACKOFF_SEC`. -/
def maxBackoffSec : ℚ := 60

/-- `_RECONNECT_CATASTROPHIC_AFTER_SEC`. -/
def catastrophicAfterSec : ℚ := 300

/-- What `_reconnect_with_backoff` counts. -/
structure Backoff where
  backoff : ℚ := initialBackoffSec
  catastrophicFired : Bool := false

/-- Its `except Exception`, so long after the start: what it fires, and what it goes on
    with. -/
def Backoff.fail (b : Backoff) (redis : Bool) (elapsed : ℚ) : List ℚ × Backoff :=
  let fires := !b.catastrophicFired && decide (catastrophicAfterSec ≤ elapsed) && redis
  (if fires then [elapsed] else [],
    { backoff := min (b.backoff * 2) maxBackoffSec, catastrophicFired := b.catastrophicFired || fires })

/-- When the loop fires its CATASTROPHIC alert, of the times at which an attempt fails. -/
def Backoff.fires (redis : Bool) : Backoff → List ℚ → List ℚ
  | _, [] => []
  | b, elapsed :: fails => (b.fail redis elapsed).1 ++ fires redis (b.fail redis elapsed).2 fails

/-- `asyncio.sleep` is not short: an attempt fails its backoff after the one before it. -/
def Backoff.Slept : Backoff → ℚ → List ℚ → Prop
  | _, _, [] => True
  | b, last, elapsed :: fails => last + b.backoff ≤ elapsed ∧ Slept (b.fail true elapsed).2 elapsed fails

section Loop

variable {b : Backoff} {redis : Bool} {last : ℚ} {fails : List ℚ}

theorem fires_fired (hfired : b.catastrophicFired = true) (fails : List ℚ) : b.fires redis fails = [] := by
  induction fails generalizing b with
  | nil => rfl
  | cons elapsed fails ih =>
    have hstep : (b.fail redis elapsed).1 = [] := by simp [Backoff.fail, hfired]
    rw [Backoff.fires, hstep, List.nil_append]
    exact ih (by simp [Backoff.fail, hfired])

/-- It fires at the first failure that is late enough. -/
theorem fires_eq_find? (hfired : b.catastrophicFired = false) (fails : List ℚ) :
    b.fires true fails = (fails.find? (catastrophicAfterSec ≤ ·)).toList := by
  induction fails generalizing b with
  | nil => rfl
  | cons elapsed fails ih =>
    rw [Backoff.fires]
    by_cases hlate : catastrophicAfterSec ≤ elapsed
    · have hstep : (b.fail true elapsed).1 = [elapsed] := by simp [Backoff.fail, hfired, hlate]
      have hover : (b.fail true elapsed).2.catastrophicFired = true := by simp [Backoff.fail, hfired, hlate]
      rw [hstep, fires_fired hover, List.find?_cons_of_pos (by simpa using hlate)]
      rfl
    · have hstep : (b.fail true elapsed).1 = [] := by simp [Backoff.fail, hlate]
      have hnot : (b.fail true elapsed).2.catastrophicFired = false := by simp [Backoff.fail, hfired, hlate]
      rw [hstep, ih hnot, List.find?_cons_of_neg (by simpa using hlate), List.nil_append]

/-- How long the next sleeps take together. -/
def sleeps : ℕ → ℚ → ℚ
  | 0, _ => 0
  | n + 1, backoff => backoff + sleeps n (min (backoff * 2) maxBackoffSec)

theorem sleeps_le (hslept : b.Slept last fails) (n : ℕ) (hn : fails.length = n + 1) :
    last + sleeps (n + 1) b.backoff ≤ fails.getLast (List.ne_nil_of_length_eq_add_one hn) := by
  induction fails generalizing b last n with
  | nil => cases hn
  | cons elapsed fails ih =>
    obtain ⟨hle, hrest⟩ := hslept
    cases fails with
    | nil =>
      obtain rfl : n = 0 := by simpa using hn.symm
      simpa [sleeps] using hle
    | cons next fails =>
      obtain ⟨m, rfl⟩ : ∃ m, n = m + 1 := ⟨fails.length, by simpa using hn.symm⟩
      have hlast := ih hrest m (by simpa using hn)
      rw [List.getLast_cons (List.cons_ne_nil _ _)]
      refine le_trans ?_ hlast
      rw [sleeps, ← add_assoc]
      exact add_le_add_left hle _

theorem slept_init {more : List ℚ} (hslept : b.Slept last (fails ++ more)) : b.Slept last fails := by
  induction fails generalizing b last with
  | nil => exact trivial
  | cons elapsed fails ih => exact ⟨hslept.1, ih hslept.2⟩

/-- The ninth failure is late enough. -/
theorem late_of_nine (hslept : Backoff.Slept {} 0 fails) (hn : fails.length = 9) :
    (fails.find? (catastrophicAfterSec ≤ ·)).isSome = true := by
  have hlast := sleeps_le hslept 8 hn
  have hsum : sleeps 9 (({} : Backoff).backoff) = 302 := by
    norm_num [sleeps, initialBackoffSec, maxBackoffSec]
  rw [hsum, zero_add] at hlast
  rw [List.find?_isSome]
  refine ⟨_, List.getLast_mem _, decide_eq_true (le_trans ?_ hlast)⟩
  norm_num [catastrophicAfterSec]

/-- The CATASTROPHIC alert is fired at the first failure five minutes after the start or
    later, never again, and among the first nine. -/
theorem escalates_once (fails : List ℚ) (hslept : Backoff.Slept {} 0 fails) :
    Backoff.fires true {} fails = (fails.find? (catastrophicAfterSec ≤ ·)).toList ∧
      (9 ≤ fails.length → ∃ elapsed ∈ fails.take 9, Backoff.fires true {} fails = [elapsed]) := by
  have hfires := fires_eq_find? (b := {}) rfl fails
  refine ⟨hfires, fun hnine => ?_⟩
  rw [← List.take_append_drop 9 fails] at hslept
  obtain ⟨elapsed, helapsed⟩ := Option.isSome_iff_exists.mp
    (late_of_nine (slept_init hslept) (List.length_take_of_le hnine))
  have hfirst : fails.find? (catastrophicAfterSec ≤ ·) = some elapsed := by
    rw [← List.take_append_drop 9 fails, List.find?_append, helapsed]
    rfl
  exact ⟨elapsed, List.mem_of_find?_eq_some helapsed, by rw [hfires, hfirst]; rfl⟩

/-- Each attempt takes three seconds more. -/
def threeSecondsMore : List ℚ := [5, 12, 23, 42, 77, 140, 203, 266, 329]

theorem escalates_once_three : Backoff.fires true {} threeSecondsMore =
      (threeSecondsMore.find? (catastrophicAfterSec ≤ ·)).toList ∧
    (9 ≤ threeSecondsMore.length →
      ∃ elapsed ∈ threeSecondsMore.take 9, Backoff.fires true {} threeSecondsMore = [elapsed]) := by
  refine escalates_once threeSecondsMore ?_
  norm_num [threeSecondsMore, Backoff.Slept, Backoff.fail, initialBackoffSec, maxBackoffSec]

end Loop

end IbTrader.Ib
