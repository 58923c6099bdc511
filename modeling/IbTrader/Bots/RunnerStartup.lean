/-
  IbTrader.Bots.RunnerStartup

  The start of the bot runner (`run_bot_runner` in `ib_trader/bots/runner.py`).

  Two passes over the bots of the registry read and rewrite the same documents.
  The first raises an alert for every bot that was holding or in flight when the
  process last ended (`panicStates`) and forces it off; the second starts the bots
  that ask for it, and reads the documents again to leave the panic bots alone.
  What it reads is what the first pass wrote.

  What Redis answers and whether a bot comes up are parameters (`Startup`); the
  requests the internal API serves meanwhile are in `IbTrader.Bots.Instances`.
-/

import IbTrader.Lib.KeyedFold
import IbTrader.Bots.Runtime

namespace IbTrader.Bots.Runner

open Lib

-- ============================================================================
-- The registry and the documents
-- ============================================================================

/-- The fields of `BotDefinition` that the passes read. -/
structure BotDefinition where
  id : String
  autoStart : Bool := false
  /-- `config.get("symbol")` -/
  symbol : Option String := none
  deriving DecidableEq, Repr

/-- The definitions as `load_all_bots` returns them: it refuses an id that comes
    twice. -/
structure Registry where
  definitions : List BotDefinition
  ids_nodup : (definitions.map BotDefinition.id).Nodup

/-- What is stored for a bot. -/
inductive StoredDoc where
  | missing
  /-- the `state` is not one of `BotState` -/
  | corrupt
  | doc (d : BotDoc)
  deriving DecidableEq, Repr

/-- `BotState(doc.get("state", BotState.OFF.value))`, and `OFF` on a
    `ValueError`. -/
def persistedState : StoredDoc → BotState
  | .missing | .corrupt => .off
  | .doc d => d.state

/-- `_PANIC_STATES`. -/
def panicStates : List BotState :=
  [.entryOrderPlaced, .awaitingExitTrigger, .exitOrderPlaced, .errored]

theorem off_not_panic : BotState.off ∉ panicStates := by decide

theorem ne_off_of_panic {s : BotState} (h : s ∈ panicStates) : s ≠ .off :=
  fun hoff => off_not_panic (hoff ▸ h)

/-- The document a stored one is completed from: `store.get(...) or {}`. -/
def StoredDoc.orEmpty : StoredDoc → BotDoc
  | .missing | .corrupt => {}
  | .doc d => d

-- ============================================================================
-- The passes
-- ============================================================================

/-- How the calls of the two passes end for each bot. -/
structure Startup where
  /-- the first pass reads the document -/
  sweepReads : String → Bool
  /-- the document of `force_off_state` is written -/
  forceOffWrites : String → Bool
  /-- the second pass reads the document -/
  autoStartReads : String → Bool
  /-- `_create_and_start_bot` returns the bot and its task -/
  creates : String → Bool
  /-- `on_start` writes its document -/
  onStartWrites : String → Bool

/-- The runner while it starts. -/
structure RunnerState where
  docs : String → StoredDoc
  /-- the alerts of `_panic_alert_on_startup`: the bot and its state -/
  alerts : List (String × BotState)
  /-- the keys of `running_tasks` and `bot_instances` -/
  running : List String

/-- The document of one bot is written. -/
def RunnerState.write (s : RunnerState) (id : String) (d : BotDoc) : RunnerState :=
  { s with docs := fun k => if k = id then .doc d else s.docs k }

/-- `force_off_state`, its exception caught. -/
def forceOff (env : Startup) (id reason : String) (s : RunnerState) : RunnerState :=
  if env.forceOffWrites id then s.write id ((s.docs id).orEmpty.forceOffState (some reason)) else s

/-- The first pass on one bot. -/
def sweepBot (env : Startup) (s : RunnerState) (defn : BotDefinition) : RunnerState :=
  if env.sweepReads defn.id then
    let cur := persistedState (s.docs defn.id)
    if cur ∈ panicStates then
      forceOff env defn.id "startup_forced_off_with_panic"
        { s with alerts := s.alerts ++ [(defn.id, cur)] }
    else if cur ≠ .off then forceOff env defn.id "startup_forced_off" s
    else s
  else s

/-- `bot.on_start` after the task is there; a corrupt state raises. -/
def startBot (env : Startup) (defn : BotDefinition) (s : RunnerState) : RunnerState :=
  match s.docs defn.id with
  | .corrupt => s
  | stored =>
    if env.onStartWrites defn.id then
      match Runtime.onStart defn.symbol stored.orEmpty with
      | some (d, _) => s.write defn.id d
      | none => s
    else s

/-- The second pass on one bot. -/
def autoStartBot (env : Startup) (s : RunnerState) (defn : BotDefinition) : RunnerState :=
  if defn.autoStart then
    if env.autoStartReads defn.id then
      if persistedState (s.docs defn.id) ∈ panicStates then s
      else if env.creates defn.id then
        startBot env defn { s with running := s.running ++ [defn.id] }
      else s
    else s
  else s

/-- The two passes of `run_bot_runner`. -/
def runBotRunner (env : Startup) (registry : Registry) (docs : String → StoredDoc) : RunnerState :=
  registry.definitions.foldl (autoStartBot env)
    (registry.definitions.foldl (sweepBot env) { docs := docs, alerts := [], running := [] })

-- ============================================================================
-- The passes on one bot
-- ============================================================================

/-- What the passes know of one bot: its document, and whether it runs. -/
def RunnerState.bot (s : RunnerState) (id : String) : StoredDoc × Bool :=
  (s.docs id, id ∈ s.running)

/-- The document of a bot after the first pass. -/
def sweptDoc (env : Startup) (id : String) (stored : StoredDoc) : StoredDoc :=
  let cur := persistedState stored
  if env.sweepReads id ∧ cur ≠ .off ∧ env.forceOffWrites id then
    .doc (stored.orEmpty.forceOffState (some
      (if cur ∈ panicStates then "startup_forced_off_with_panic" else "startup_forced_off")))
  else stored

/-- The second pass starts the bot whose document it finds so. -/
def AutoStarts (env : Startup) (defn : BotDefinition) (stored : StoredDoc) : Prop :=
  defn.autoStart ∧ env.autoStartReads defn.id ∧ persistedState stored ∉ panicStates ∧
    env.creates defn.id

instance (env : Startup) (defn : BotDefinition) (stored : StoredDoc) :
    Decidable (AutoStarts env defn stored) := inferInstanceAs (Decidable (_ ∧ _))

/-- The document of a started bot. -/
def startedDoc (env : Startup) (defn : BotDefinition) : StoredDoc → StoredDoc
  | .corrupt => .corrupt
  | stored =>
    if env.onStartWrites defn.id then
      match Runtime.onStart defn.symbol stored.orEmpty with
      | some (d, _) => .doc d
      | none => stored
    else stored

section Passes

variable {env : Startup} {defn : BotDefinition} {s : RunnerState}

@[simp] theorem write_docs_self (id : String) (d : BotDoc) : (s.write id d).docs id = .doc d :=
  if_pos rfl

theorem write_docs_of_ne {id k : String} (d : BotDoc) (h : k ≠ id) :
    (s.write id d).docs k = s.docs k := if_neg h

@[simp] theorem write_running (id : String) (d : BotDoc) : (s.write id d).running = s.running := rfl

@[simp] theorem forceOff_running (id reason : String) :
    (forceOff env id reason s).running = s.running := by
  unfold forceOff
  split <;> rfl

theorem forceOff_docs_self (id reason : String) :
    (forceOff env id reason s).docs id =
      if env.forceOffWrites id then .doc ((s.docs id).orEmpty.forceOffState (some reason))
      else s.docs id := by
  unfold forceOff
  split
  · exact write_docs_self id _
  · rfl

theorem forceOff_docs_of_ne {id k : String} (reason : String) (h : k ≠ id) :
    (forceOff env id reason s).docs k = s.docs k := by
  unfold forceOff
  split
  · exact write_docs_of_ne _ h
  · rfl

@[simp] theorem sweepBot_running : (sweepBot env s defn).running = s.running := by
  unfold sweepBot
  dsimp only
  split_ifs <;> simp

theorem sweepBot_docs_self :
    (sweepBot env s defn).docs defn.id = sweptDoc env defn.id (s.docs defn.id) := by
  unfold sweepBot sweptDoc
  dsimp only
  by_cases hread : env.sweepReads defn.id = true
  · by_cases hpanic : persistedState (s.docs defn.id) ∈ panicStates
    · have hoff := ne_off_of_panic hpanic
      simp only [hread, hpanic, hoff, if_true, forceOff_docs_self, ne_eq, not_false_eq_true,
        true_and]
    · by_cases hoff : persistedState (s.docs defn.id) = .off
      · simp only [hread, hoff, off_not_panic, if_true, if_false, ne_eq, not_true_eq_false,
          false_and, and_false]
      · simp only [hread, hpanic, hoff, if_true, if_false, forceOff_docs_self, ne_eq,
          not_false_eq_true, true_and]
  · simp [hread]

theorem sweepBot_docs_of_ne {k : String} (h : k ≠ defn.id) :
    (sweepBot env s defn).docs k = s.docs k := by
  unfold sweepBot
  dsimp only
  split_ifs
  · exact forceOff_docs_of_ne _ h
  · exact forceOff_docs_of_ne _ h
  · rfl
  · rfl

/-- The first pass works on each bot by itself. -/
theorem sweep_keyed (env : Startup) :
    KeyedStep RunnerState.bot BotDefinition.id
      (fun defn bot => (sweptDoc env defn.id bot.1, bot.2)) (sweepBot env) where
  own s defn := by
    simp only [RunnerState.bot, sweepBot_docs_self, sweepBot_running]
  other s defn k hk := by
    simp only [RunnerState.bot, sweepBot_docs_of_ne hk, sweepBot_running]

@[simp] theorem startBot_running : (startBot env defn s).running = s.running := by
  unfold startBot
  split
  · rfl
  · split
    · split <;> rfl
    · rfl

theorem startBot_docs_self :
    (startBot env defn s).docs defn.id = startedDoc env defn (s.docs defn.id) := by
  unfold startBot
  cases hstored : s.docs defn.id with
  | corrupt => exact hstored
  | missing | doc d =>
    simp only [startedDoc]
    split
    · split
      · exact write_docs_self _ _
      · exact hstored
    · exact hstored

theorem startBot_docs_of_ne {k : String} (h : k ≠ defn.id) :
    (startBot env defn s).docs k = s.docs k := by
  unfold startBot
  split
  · rfl
  · split
    · split
      · exact write_docs_of_ne _ h
      · rfl
    · rfl

/-- What the second pass does. -/
theorem autoStartBot_eq :
    autoStartBot env s defn =
      if AutoStarts env defn (s.docs defn.id) then
        startBot env defn { s with running := s.running ++ [defn.id] }
      else s := by
  unfold autoStartBot AutoStarts
  split_ifs <;> simp_all

/-- The second pass works on each bot by itself. -/
theorem autoStart_keyed (env : Startup) :
    KeyedStep RunnerState.bot BotDefinition.id
      (fun defn bot =>
        if AutoStarts env defn bot.1 then (startedDoc env defn bot.1, true) else bot)
      (autoStartBot env) where
  own s defn := by
    by_cases h : AutoStarts env defn (s.docs defn.id)
    · simp [RunnerState.bot, autoStartBot_eq, h, startBot_docs_self]
    · simp [RunnerState.bot, autoStartBot_eq, h]
  other s defn k hk := by
    rw [autoStartBot_eq]
    split
    · simp [RunnerState.bot, startBot_docs_of_ne hk, hk]
    · rfl

end Passes

-- ============================================================================
-- What is started
-- ============================================================================

/-- A bot is started exactly when the second pass would start it on the document
    the first one has left. -/
theorem running_iff (env : Startup) (registry : Registry) (docs : String → StoredDoc)
    {defn : BotDefinition} (hdefn : defn ∈ registry.definitions) :
    defn.id ∈ (runBotRunner env registry docs).running ↔
      AutoStarts env defn (sweptDoc env defn.id (docs defn.id)) := by
  have hswept := (sweep_keyed env).view_foldl registry.definitions
    { docs := docs, alerts := [], running := [] } registry.ids_nodup hdefn
  have hstarted := (autoStart_keyed env).view_foldl registry.definitions
    (registry.definitions.foldl (sweepBot env) { docs := docs, alerts := [], running := [] })
    registry.ids_nodup hdefn
  rw [hswept] at hstarted
  have hrunning : decide (defn.id ∈ (runBotRunner env registry docs).running) =
      (if AutoStarts env defn (sweptDoc env defn.id (docs defn.id)) then
        (startedDoc env defn (sweptDoc env defn.id (docs defn.id)), true)
      else (sweptDoc env defn.id (docs defn.id), false)).2 := congrArg Prod.snd hstarted
  by_cases h : AutoStarts env defn (sweptDoc env defn.id (docs defn.id))
  · rw [if_pos h] at hrunning
    exact iff_of_true (of_decide_eq_true hrunning) h
  · rw [if_neg h] at hrunning
    exact iff_of_false (of_decide_eq_false hrunning) h

/-- The document of a panic bot is no longer one at the second pass exactly when
    the first has read it and forced it off. -/
theorem swept_panic_iff (env : Startup) (id : String) {stored : StoredDoc}
    (hpanic : persistedState stored ∈ panicStates) :
    persistedState (sweptDoc env id stored) ∉ panicStates ↔
      env.sweepReads id = true ∧ env.forceOffWrites id = true := by
  have hoff := ne_off_of_panic hpanic
  unfold sweptDoc
  dsimp only
  split
  case isTrue h => exact iff_of_true off_not_panic ⟨h.1, h.2.2⟩
  case isFalse h =>
    exact iff_of_false (not_not.mpr hpanic) fun hdone => h ⟨hdone.1, hoff, hdone.2⟩

/-- No bot that was holding or in flight is started by itself: exactly when none of
    them asks for it, or the sweep did not get to force it off, or it does not come
    up. -/
theorem no_auto_start_iff (env : Startup) (registry : Registry) (docs : String → StoredDoc) :
    (∀ defn ∈ registry.definitions, persistedState (docs defn.id) ∈ panicStates →
        defn.id ∉ (runBotRunner env registry docs).running) ↔
      ∀ defn ∈ registry.definitions, persistedState (docs defn.id) ∈ panicStates →
        ¬(defn.autoStart ∧ env.sweepReads defn.id ∧ env.forceOffWrites defn.id ∧
          env.autoStartReads defn.id ∧ env.creates defn.id) := by
  refine forall₂_congr fun defn hdefn => forall_congr' fun hpanic => not_congr ?_
  rw [running_iff env registry docs hdefn, AutoStarts, swept_panic_iff env defn.id hpanic]
  constructor
  · rintro ⟨hauto, hreads, ⟨hsweep, hoff⟩, hcreates⟩
    exact ⟨hauto, hsweep, hoff, hreads, hcreates⟩
  · rintro ⟨hauto, hsweep, hoff, hreads, hcreates⟩
    exact ⟨hauto, hreads, ⟨hsweep, hoff⟩, hcreates⟩

/-- Every call succeeds. -/
def allWell : Startup where
  sweepReads _ := true
  forceOffWrites _ := true
  autoStartReads _ := true
  creates _ := true
  onStartWrites _ := true

/-- A bot that was holding ten when the process ended is started. -/
theorem no_auto_start_fails :
    ¬∀ (env : Startup) (registry : Registry) (docs : String → StoredDoc),
      ∀ defn ∈ registry.definitions, persistedState (docs defn.id) ∈ panicStates →
        defn.id ∉ (runBotRunner env registry docs).running := by
  intro hall
  have hstarted := hall allWell
    { definitions := [{ id := "bot", autoStart := true, symbol := some "MGC" }]
      ids_nodup := by decide }
    (fun _ => .doc { state := .awaitingExitTrigger, qty := 10, entryPrice := some 100 })
    { id := "bot", autoStart := true, symbol := some "MGC" } List.mem_cons_self (by decide)
  exact hstarted (by decide +kernel)

end IbTrader.Bots.Runner
