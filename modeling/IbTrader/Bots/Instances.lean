/-
  IbTrader.Bots.Instances

  The registry of running bots (`ib_trader/bots/internal_api.py` and the loop of
  `run_bot_runner`), for one bot id.

  `bot_instances` and `running_tasks` are shared by the requests of the internal
  API and by the one coroutine of the runner, which first makes the automatic
  start pass and then cleans up for ever.  A coroutine runs from one await to the
  next without anybody else; `Action` lists what can run next.  What an awaited
  call answers is part of the action.

  A task is live from `asyncio.create_task` until it ends, is cancelled or is
  asked to stop.  The property is that a live task is the only one and is found
  under its bot id in both dictionaries (`SingleLive`); it is lost wherever a
  coroutine acts on what it had seen before an await.
-/

import Mathlib.Logic.Function.Basic
import IbTrader.Lib.Run

namespace IbTrader.Bots.InternalApi

open Lib

-- ============================================================================
-- The registry and the coroutines
-- ============================================================================

/-- A value of `bot_instances`; a bot goes by the number of its task. -/
inductive Slot where
  /-- `_RESERVED` -/
  | reserved
  | bot (task : ℕ)
  deriving DecidableEq, Repr

/-- The requests of the internal API. -/
inductive Request where
  | start
  | stop
  | forceStop
  | reset
  deriving DecidableEq, Repr

/-- Where a request waits. -/
inductive RequestPc where
  | idle
  /-- `start_bot`, in the GET of the document -/
  | startReading
  /-- `start_bot`, in `_create_and_start_bot` -/
  | startCreating
  /-- `start_bot`, in `bot.on_start` -/
  | startOnStart
  /-- `stop_bot` in `bot.on_stop`, or `force_stop_bot` in `bot.on_force_stop` -/
  | stopping (task : ℕ)
  deriving DecidableEq, Repr

/-- Where the coroutine of `run_bot_runner` is. -/
inductive RunnerPc where
  /-- before the second pass comes to the bot -/
  | autoStart
  | autoReading
  | autoCreating
  | autoOnStart
  /-- in the sleep of the cleanup loop -/
  | loop
  /-- in `bot.on_crash` -/
  | crashing
  deriving DecidableEq, Repr

/-- The registry under one bot id, and everything that works on it. -/
structure Instances where
  /-- `bot_instances.get(bot_id)` -/
  slot : Option Slot := none
  /-- `running_tasks.get(bot_id)` -/
  task : Option ℕ := none
  live : List ℕ := []
  /-- the tasks that ended with an exception -/
  crashed : List ℕ := []
  /-- the number of the next task -/
  fresh : ℕ := 0
  requests : ℕ → RequestPc := fun _ => .idle
  runner : RunnerPc := .autoStart

/-- What runs next. -/
inductive Action where
  /-- a request arrives and runs to its first await -/
  | arrive (r : ℕ) (request : Request)
  /-- the call a request waits in comes back: the document is clean, the bot is
      there, `on_start` has returned -/
  | resume (r : ℕ) (ok : Bool)
  /-- the runner goes on: the bot has `auto_start`, its state is read and not one
      of a panic, the bot is there -/
  | runner (ok : Bool)
  | taskEnds (task : ℕ) (crash : Bool)
  deriving DecidableEq, Repr

/-- A request goes to its next await. -/
def Instances.moveTo (s : Instances) (r : ℕ) (pc : RequestPc) : Instances :=
  { s with requests := Function.update s.requests r pc }

/-- `_create_and_start_bot` has returned: bot and task are stored under the id. -/
def Instances.created (s : Instances) : Instances :=
  { s with
    slot := some (.bot s.fresh)
    task := some s.fresh
    live := s.fresh :: s.live
    fresh := s.fresh + 1 }

/-- `if bot_instances.get(bot_id) is _RESERVED: bot_instances.pop(bot_id, None)`. -/
def Instances.release (s : Instances) : Instances :=
  if s.slot = some .reserved then { s with slot := none } else s

/-- A request up to its first await. -/
def Instances.arrive (s : Instances) (r : ℕ) : Request → Instances
  | .start =>
    match s.slot with
    -- already running
    | some _ => s
    | none => s.moveTo r .startReading
  | .stop | .forceStop =>
    match s.slot with
    | some (.bot t) => { s with slot := none }.moveTo r (.stopping t)
    -- no instance: only the document is written
    | some .reserved | none => { s with slot := none }
  | .reset => s

/-- A request from one await to the next. -/
def Instances.resume (s : Instances) (r : ℕ) (ok : Bool) : Instances :=
  match s.requests r with
  | .idle => s
  | .startReading =>
    if ok then { s with slot := some .reserved }.moveTo r .startCreating else s.moveTo r .idle
  | .startCreating =>
    if ok then s.created.moveTo r .startOnStart else s.release.moveTo r .idle
  | .startOnStart => if ok then s.moveTo r .idle else s.release.moveTo r .idle
  | .stopping t =>
    -- the bot is asked to stop, and whatever task is stored is cancelled
    { s with
      task := none
      live := s.live.filter fun u => u ≠ t ∧ s.task ≠ some u }.moveTo r .idle

/-- The runner from one await to the next. -/
def Instances.runnerStep (s : Instances) (ok : Bool) : Instances :=
  match s.runner with
  | .autoStart => { s with runner := if ok then .autoReading else .loop }
  | .autoReading => { s with runner := if ok then .autoCreating else .loop }
  | .autoCreating =>
    if ok then { s.created with runner := .autoOnStart } else { s with runner := .loop }
  | .autoOnStart => { s with runner := .loop }
  | .loop =>
    match s.task with
    | none => s
    | some t =>
      if t ∈ s.live then s
      else if t ∈ s.crashed then { s with runner := .crashing }
      else { s with task := none, slot := none }
  | .crashing =>
    match s.task with
    -- the `del` raises a `KeyError`
    | none => { s with runner := .loop }
    | some _ => { s with task := none, slot := none, runner := .loop }

/-- One action; a number that is in use takes no second request. -/
def Instances.next (s : Instances) : Action → Instances
  | .arrive r request => if s.requests r = .idle then s.arrive r request else s
  | .resume r ok => s.resume r ok
  | .runner ok => s.runnerStep ok
  | .taskEnds t crash =>
    { s with
      live := s.live.filter fun u => u ≠ t
      crashed := if crash then t :: s.crashed else s.crashed }

-- ============================================================================
-- The property
-- ============================================================================

/-- A stop request has taken the bot of the task and waits for it. -/
def Instances.Stopping (s : Instances) (t : ℕ) : Prop := ∃ r, s.requests r = .stopping t

/-- At most one task is live, and it is stored in both dictionaries.  With `waits`
    a bot that a stop request has taken out of `bot_instances` counts as found
    there until the request comes to cancel its task. -/
structure SingleLive (waits : Bool) (s : Instances) : Prop where
  unique : ∀ t ∈ s.live, ∀ u ∈ s.live, t = u
  task : ∀ t ∈ s.live, s.task = some t
  slot : ∀ t ∈ s.live, s.slot = some (.bot t) ∨ (waits = true ∧ s.Stopping t)

/-- The action does not act on what an await has made stale. -/
def Safe (waits : Bool) (s : Instances) : Action → Prop
  | .arrive r .stop | .arrive r .forceStop =>
    -- the entry goes first, the task after the await
    s.requests r = .idle → waits = false → s.live = []
  | .arrive _ .start | .arrive _ .reset => True
  | .resume r ok =>
    match s.requests r with
    | .startReading => ok = true → ∀ t ∈ s.live, waits = true ∧ s.Stopping t
    | .startCreating => ok = true → s.live = []
    | .idle | .startOnStart | .stopping _ => True
  | .runner ok =>
    match s.runner with
    | .autoCreating => ok = true → s.live = []
    | .crashing => s.live = []
    | .autoStart | .autoReading | .autoOnStart | .loop => True
  | .taskEnds .. => True

/-- The numbers of tasks to come are not in use. -/
def Fresh (s : Instances) : Prop := ∀ t ∈ s.live, t < s.fresh

-- ============================================================================
-- What each action keeps
-- ============================================================================

section Step

variable {waits : Bool} {s s' : Instances} {r : ℕ}

theorem singleLive_of_nil (h : s.live = []) : SingleLive waits s := by
  constructor <;> simp [h]

/-- Nothing is added to the live tasks and nothing about them is taken away. -/
theorem SingleLive.mono (h : SingleLive waits s) (hlive : s'.live ⊆ s.live)
    (htask : s'.task = s.task)
    (hslot : ∀ t ∈ s'.live, s.slot = some (.bot t) → s'.slot = some (.bot t))
    (hstopping : ∀ t, s.Stopping t → s'.Stopping t) : SingleLive waits s' where
  unique t ht u hu := h.unique t (hlive ht) u (hlive hu)
  task t ht := htask.trans (h.task t (hlive ht))
  slot t ht := by
    rcases h.slot t (hlive ht) with hbot | ⟨hwaits, hstop⟩
    · exact .inl (hslot t ht hbot)
    · exact .inr ⟨hwaits, hstopping t hstop⟩

/-- With nothing stored for the bot, a live task is one that is being stopped. -/
theorem SingleLive.stopping (h : SingleLive waits s) (hslot : ∀ t, s.slot ≠ some (.bot t)) :
    ∀ t ∈ s.live, waits = true ∧ s.Stopping t := by
  intro t ht
  rcases h.slot t ht with hbot | hstop
  · exact absurd hbot (hslot t)
  · exact hstop

/-- A request that was stopping no bot moves on without anybody noticing. -/
theorem stopping_moveTo (pc : RequestPc) (hr : ∀ t, s.requests r ≠ .stopping t) (t : ℕ)
    (h : s.Stopping t) : (s.moveTo r pc).Stopping t := by
  obtain ⟨q, hq⟩ := h
  have hne : q ≠ r := by
    rintro rfl
    exact hr t hq
  exact ⟨q, (Function.update_of_ne hne _ _).trans hq⟩

theorem stopping_of_moveTo {pc : RequestPc} (hpc : ∀ t, pc ≠ .stopping t) {t : ℕ}
    (h : (s.moveTo r pc).Stopping t) : s.Stopping t := by
  obtain ⟨q, hq⟩ := h
  have hq' : Function.update s.requests r pc q = .stopping t := hq
  by_cases hne : q = r
  · rw [hne, Function.update_self] at hq'
    exact absurd hq' (hpc t)
  · rw [Function.update_of_ne hne] at hq'
    exact ⟨q, hq'⟩

theorem SingleLive.moveTo (h : SingleLive waits s) (pc : RequestPc)
    (hr : ∀ t, s.requests r ≠ .stopping t) : SingleLive waits (s.moveTo r pc) :=
  h.mono (List.Subset.refl _) rfl (fun _ _ hbot => hbot) (stopping_moveTo pc hr)

/-- A reservation is given back where there is one. -/
theorem SingleLive.release (h : SingleLive waits s) : SingleLive waits s.release := by
  unfold Instances.release
  split
  case isFalse => exact h
  case isTrue hreserved =>
    refine h.mono (List.Subset.refl _) rfl (fun t _ hbot => ?_) fun _ hstop => hstop
    rw [hreserved] at hbot
    cases hbot

theorem release_requests : s.release.requests = s.requests := by
  unfold Instances.release
  split <;> rfl

/-- A new task is the only live one exactly when there was none. -/
theorem singleLive_created_iff (hfresh : Fresh s)
    (hslot : s'.slot = some (.bot s.fresh)) (htask : s'.task = some s.fresh)
    (hlive : s'.live = s.fresh :: s.live) : SingleLive waits s' ↔ s.live = [] := by
  constructor
  · intro h
    by_contra hne
    obtain ⟨t, ht⟩ := List.exists_mem_of_ne_nil _ hne
    have hnew : s.fresh ∈ s'.live := hlive ▸ List.mem_cons_self
    have hold : t ∈ s'.live := hlive ▸ List.mem_cons_of_mem _ ht
    exact absurd (h.unique t hold _ hnew) (Nat.ne_of_lt (hfresh t ht))
  · intro hnil
    rw [hnil] at hlive
    refine ⟨?_, ?_, ?_⟩ <;> simp [hlive, hslot, htask]

/-- Taking a bot out of `bot_instances` before its task is cancelled. -/
theorem stop_singleLive_iff (h : SingleLive waits s) (hidle : s.requests r = .idle) :
    SingleLive waits (s.arrive r .stop) ↔ (waits = false → s.live = []) := by
  have hr : ∀ t, s.requests r ≠ .stopping t := by
    intro t ht
    rw [hidle] at ht
    cases ht
  simp only [Instances.arrive]
  split
  case h_1 t hslot =>
    have hforward : SingleLive waits ({ s with slot := none }.moveTo r (.stopping t)) →
        waits = false → s.live = [] := by
      intro hstop hwaits
      by_contra hne
      obtain ⟨u, hu⟩ := List.exists_mem_of_ne_nil _ hne
      rcases hstop.slot u hu with hbot | ⟨htrue, -⟩
      · cases hbot
      · exact absurd (hwaits.symm.trans htrue) (by decide)
    refine ⟨hforward, fun hnil => ?_⟩
    cases hwaits : waits with
    | false => exact singleLive_of_nil (hnil hwaits)
    | true =>
      refine ⟨h.unique, h.task, fun u hu => .inr ⟨rfl, ?_⟩⟩
      rcases h.slot u hu with hbot | ⟨-, hstop⟩
      · have htu : t = u := by
          rw [hslot] at hbot
          cases hbot
          rfl
        exact ⟨r, htu ▸ Function.update_self _ _ _⟩
      · exact stopping_moveTo (.stopping t) hr u hstop
  case h_2 hslot | h_3 hslot =>
    have hstopping := h.stopping (by simp [hslot])
    constructor
    · intro _ hwaits
      by_contra hne
      obtain ⟨u, hu⟩ := List.exists_mem_of_ne_nil _ hne
      exact absurd (hwaits.symm.trans (hstopping u hu).1) (by decide)
    · intro _
      exact ⟨h.unique, h.task, fun u hu => .inr (hstopping u hu)⟩

/-- The stop request comes back and nothing of what was stored is live any more. -/
theorem stopped_live_nil (h : SingleLive waits s) (t : ℕ) :
    s.live.filter (fun u => u ≠ t ∧ s.task ≠ some u) = [] := by
  rw [List.filter_eq_nil_iff]
  intro u hu
  simp [h.task u hu]

theorem resume_singleLive_iff (ok : Bool) (hfresh : Fresh s) (h : SingleLive waits s) :
    SingleLive waits (s.resume r ok) ↔ Safe waits s (.resume r ok) := by
  simp only [Instances.resume, Safe]
  cases hpc : s.requests r with
  | idle => exact iff_of_true h trivial
  | startReading =>
    have hr : ∀ t, s.requests r ≠ .stopping t := by simp [hpc]
    cases ok with
    | false => exact iff_of_true (h.moveTo .idle hr) (by simp)
    | true =>
      simp only [if_true, forall_const]
      constructor
      · intro hreserved t ht
        rcases hreserved.slot t ht with hbot | ⟨hwaits, hstop⟩
        · cases hbot
        · exact ⟨hwaits, stopping_of_moveTo (by simp) hstop⟩
      · intro hstopping
        refine ⟨h.unique, h.task, fun t ht => .inr ⟨(hstopping t ht).1, ?_⟩⟩
        exact stopping_moveTo .startCreating hr t (hstopping t ht).2
  | startCreating =>
    have hr : ∀ t, s.requests r ≠ .stopping t := by simp [hpc]
    cases ok with
    | false =>
      refine iff_of_true (h.release.moveTo .idle ?_) (by simp)
      rw [release_requests]
      exact hr
    | true =>
      simp only [if_true, forall_const]
      exact singleLive_created_iff hfresh rfl rfl rfl
  | startOnStart =>
    have hr : ∀ t, s.requests r ≠ .stopping t := by simp [hpc]
    refine iff_of_true ?_ trivial
    cases ok with
    | false =>
      refine h.release.moveTo .idle ?_
      rw [release_requests]
      exact hr
    | true => exact h.moveTo .idle hr
  | stopping t => exact iff_of_true (singleLive_of_nil (stopped_live_nil h t)) trivial

/-- A live task is stored, so where none is stored or the stored one has ended
    nothing is live. -/
theorem SingleLive.live_nil (h : SingleLive waits s) (htask : ∀ t, s.task = some t → t ∉ s.live) :
    s.live = [] := by
  by_contra hne
  obtain ⟨t, ht⟩ := List.exists_mem_of_ne_nil _ hne
  exact htask t (h.task t ht) ht

theorem runner_singleLive_iff (ok : Bool) (hfresh : Fresh s) (h : SingleLive waits s) :
    SingleLive waits (s.runnerStep ok) ↔ Safe waits s (.runner ok) := by
  have hkept : ∀ pc, SingleLive waits { s with runner := pc } := fun _ =>
    h.mono (List.Subset.refl _) rfl (fun _ _ hbot => hbot) fun _ hstop => hstop
  simp only [Instances.runnerStep, Safe]
  cases s.runner with
  | autoStart => exact iff_of_true (hkept _) trivial
  | autoReading => exact iff_of_true (hkept _) trivial
  | autoOnStart => exact iff_of_true (hkept _) trivial
  | autoCreating =>
    cases ok with
    | false => exact iff_of_true (hkept .loop) (by simp)
    | true =>
      simp only [if_true, forall_const]
      exact singleLive_created_iff hfresh rfl rfl rfl
  | loop =>
    refine iff_of_true ?_ trivial
    cases htask : s.task with
    | none => exact h
    | some t =>
      dsimp only
      split_ifs with hlive hcrashed
      · exact h
      · exact h.mono (List.Subset.refl _) htask.symm (fun _ _ hbot => hbot) fun _ hstop => hstop
      · refine singleLive_of_nil (h.live_nil fun u hu => ?_)
        rw [htask] at hu
        cases hu
        exact hlive
  | crashing =>
    cases htask : s.task with
    | none =>
      have hnil : s.live = [] := h.live_nil (by simp [htask])
      exact iff_of_true (singleLive_of_nil hnil) hnil
    | some t =>
      constructor
      · intro hdeleted
        refine h.live_nil fun u _ hu => ?_
        cases hdeleted.task u hu
      · intro hnil
        exact singleLive_of_nil hnil

/-- Every action: the property survives it exactly when it is safe. -/
theorem next_singleLive_iff (a : Action) (hfresh : Fresh s) (h : SingleLive waits s) :
    SingleLive waits (s.next a) ↔ Safe waits s a := by
  cases a with
  | arrive r request =>
    simp only [Instances.next]
    by_cases hidle : s.requests r = .idle
    · rw [if_pos hidle]
      have hr : ∀ t, s.requests r ≠ .stopping t := by simp [hidle]
      cases request with
      | start =>
        refine iff_of_true ?_ trivial
        simp only [Instances.arrive]
        split
        · exact h
        · exact h.moveTo .startReading hr
      | stop | forceStop =>
        have hstop := stop_singleLive_iff h hidle
        exact hstop.trans ⟨fun hsafe _ => hsafe, fun hsafe => hsafe hidle⟩
      | reset => exact iff_of_true h trivial
    · rw [if_neg hidle]
      refine iff_of_true h ?_
      cases request with
      | start | reset => trivial
      | stop | forceStop => exact fun hi => absurd hi hidle
  | resume r ok => exact resume_singleLive_iff ok hfresh h
  | runner ok => exact runner_singleLive_iff ok hfresh h
  | taskEnds t crash =>
    refine iff_of_true ?_ trivial
    exact h.mono List.filter_sublist.subset rfl (fun _ _ hbot => hbot) fun _ hstop => hstop

-- ============================================================================
-- Task numbers
-- ============================================================================

theorem Fresh.mono (h : Fresh s) (hlive : s'.live ⊆ s.live) (hnext : s.fresh ≤ s'.fresh) :
    Fresh s' := fun t ht => lt_of_lt_of_le (h t (hlive ht)) hnext

theorem Fresh.created (h : Fresh s) (hlive : s'.live = s.fresh :: s.live)
    (hnext : s'.fresh = s.fresh + 1) : Fresh s' := by
  intro t ht
  rw [hlive] at ht
  rw [hnext]
  rcases List.mem_cons.mp ht with rfl | ht
  · exact Nat.lt_succ_self _
  · exact Nat.lt_succ_of_lt (h t ht)

theorem Fresh.release (h : Fresh s) : Fresh s.release := by
  unfold Instances.release
  split <;> exact h

theorem Fresh.resume (h : Fresh s) (ok : Bool) : Fresh (s.resume r ok) := by
  simp only [Instances.resume]
  split
  · exact h
  · split <;> exact h
  · split
    · exact h.created rfl rfl
    · exact h.release
  · split
    · exact h
    · exact h.release
  · exact h.mono List.filter_sublist.subset le_rfl

theorem Fresh.runnerStep (h : Fresh s) (ok : Bool) : Fresh (s.runnerStep ok) := by
  simp only [Instances.runnerStep]
  split
  · exact h
  · exact h
  · split
    · exact h.created rfl rfl
    · exact h
  · exact h
  · split
    · exact h
    · split_ifs <;> exact h
  · split <;> exact h

theorem Fresh.next (h : Fresh s) (a : Action) : Fresh (s.next a) := by
  cases a with
  | arrive r request =>
    simp only [Instances.next]
    split
    · cases request with
      | start | stop | forceStop =>
        simp only [Instances.arrive]
        split <;> exact h
      | reset => exact h
    · exact h
  | resume r ok => exact h.resume ok
  | runner ok => exact h.runnerStep ok
  | taskEnds t crash => exact h.mono List.filter_sublist.subset le_rfl

end Step

-- ============================================================================
-- Every interleaving
-- ============================================================================

/-- In every interleaving from the empty registry, at most one task of the bot is
    live and a stop request finds it exactly when every action is safe.  `waits`
    says whether a bot that a stop request has taken and not yet cancelled counts
    as found. -/
theorem singleLive_throughout_iff (waits : Bool) (actions : List Action) :
    (∀ as, as <+: actions → SingleLive waits (as.foldl Instances.next {})) ↔
      Along Instances.next (Safe waits) {} actions := by
  have hfresh : Fresh {} := fun _ ht => absurd ht List.not_mem_nil
  exact Along.iff_forall_prefix (I := Fresh) (J := SingleLive waits) (fun _ a h => h.next a)
    (fun _ a h hlive => next_singleLive_iff a h hlive) actions hfresh (singleLive_of_nil rfl)

/-- Two starts read the clean document before either reserves the slot. -/
def doubleStart : List Action :=
  [.arrive 0 .start, .arrive 1 .start, .resume 0 true, .resume 1 true, .resume 0 true,
    .resume 1 true]

/-- Both end with a live task, and only the second is stored. -/
theorem singleLive_throughout_fails :
    ¬∃ waits : Bool, ∀ actions : List Action,
      SingleLive waits (actions.foldl Instances.next {}) := by
  rintro ⟨waits, hall⟩
  have htwo : (doubleStart.foldl Instances.next {}).live = [1, 0] := by decide +kernel
  have hunique := (hall doubleStart).unique
  rw [htwo] at hunique
  exact absurd (hunique 1 (by decide) 0 (by decide)) (by decide)

end IbTrader.Bots.InternalApi
