/-
  IbTrader.Bots.StaleQuotes

  The supervisor's look at a bot's quotes (`check_stale_quote` in
  `ib_trader/bots/runtime.py`, and the quote tick of `_dispatch_event`).

  A check halts the bot where the heartbeat of all quotes is stale and the engine does not
  reconnect, and warns where only the bot's own quotes are.  Both latch: between two quotes
  of its own a bot is halted, warned or muted at most once, so that one that has been
  warned is not halted until it sees a quote again (`one_alarm_between_quotes`).

  A check is two events, as quotes may come while it asks Redis.  The probe that is logged
  and the dispatch of the crash are left out.
-/

import IbTrader.Lib.Mealy
import Mathlib.Algebra.Order.Field.Rat
import Mathlib.Data.List.Chain

namespace IbTrader.Bots

open Lib

-- ============================================================================
-- The check
-- ============================================================================

/-- `_STALE_QUOTE_WARN_SECONDS`. -/
def staleQuoteWarnSeconds : ℚ := 45

structure QuoteWatch where
  /-- `_last_quote_time`. -/
  lastQuoteTime : ℚ := 0
  /-- `_quote_stale_logged`. -/
  quoteStaleLogged : Bool := false
  /-- `_reconnect_pause_logged`. -/
  reconnectPauseLogged : Bool := false
  /-- `per_symbol_elapsed` of a check that is under way. -/
  perSymbolElapsed : Option ℚ := none
  deriving DecidableEq, Repr

inductive QuoteEvent
  /-- A quote of the bot's symbol. -/
  | quote (now : ℚ)
  /-- `check_stale_quote` starts, for a bot that waits for its trigger or does not. -/
  | looks (watching : Bool) (now : ℚ)
  /-- It has asked for the heartbeat, which may not be there or not be read, and where that
      is stale for the alerts of a reconnect; for a future in its daily break or not. -/
  | decides (hbAge : Option ℚ) (reconnecting futuresBreak : Bool) (now : ℚ)
  deriving DecidableEq, Repr

inductive QuoteOutput
  | fresh
  | halted
  | warned
  /-- A future in its break. -/
  | muted
  | paused
  | resumed
  deriving DecidableEq, Repr

variable (haltThreshold : ℚ)

/-- `heartbeat_stale`. -/
def heartbeatStale (hbAge : Option ℚ) : Bool := hbAge.all fun age => decide (haltThreshold < age)

/-- The alarm of a check that is not paused. -/
def QuoteWatch.alarm (w : QuoteWatch) (stale futuresBreak : Bool) (elapsed : ℚ) : Option QuoteOutput :=
  if w.quoteStaleLogged then none
  else if stale then some .halted
  else if staleQuoteWarnSeconds < elapsed then some (if futuresBreak then .muted else .warned)
  else none

def QuoteWatch.step (w : QuoteWatch) : QuoteEvent → QuoteWatch × List QuoteOutput
  | .quote now => ({ w with lastQuoteTime := now, quoteStaleLogged := false }, [.fresh])
  | .looks watching now => ({ w with perSymbolElapsed := if watching then some (now - w.lastQuoteTime) else none }, [])
  | .decides hbAge reconnecting futuresBreak now =>
    match w.perSymbolElapsed with
    | none => (w, [])
    | some elapsed =>
      let stale := heartbeatStale haltThreshold hbAge
      if stale && reconnecting then
        ({ w with lastQuoteTime := now, reconnectPauseLogged := true, perSymbolElapsed := none },
          if w.reconnectPauseLogged then [] else [.paused])
      else
        let alarm := w.alarm stale futuresBreak elapsed
        ({ w with reconnectPauseLogged := false, quoteStaleLogged := w.quoteStaleLogged || alarm.isSome,
                  perSymbolElapsed := none },
          (if w.reconnectPauseLogged then [.resumed] else []) ++ alarm.toList)

/-- The quotes of a bot and the checks of its supervisor. -/
def quoteWatch : Mealy QuoteWatch QuoteEvent QuoteOutput where
  next w e := (w.step haltThreshold e).1
  emit w e := (w.step haltThreshold e).2

-- ============================================================================
-- One alarm
-- ============================================================================

def QuoteOutput.isAlarm : QuoteOutput → Bool
  | .halted | .warned | .muted => true
  | .fresh | .paused | .resumed => false

/-- The alarms and the quotes among the outputs. -/
def alarms (os : List QuoteOutput) : List QuoteOutput := os.filter fun o => o.isAlarm || o = .fresh

/-- No two alarms follow one another. -/
def Apart (o o' : QuoteOutput) : Prop := ¬(o.isAlarm = true ∧ o'.isAlarm = true)

/-- The latch says whether an alarm was the last. -/
structure Latched (w : QuoteWatch) (os : List QuoteOutput) : Prop where
  apart : (alarms os).IsChain Apart
  latch : w.quoteStaleLogged = (alarms os).getLast?.any QuoteOutput.isAlarm

section Latch

variable {haltThreshold} {w w' : QuoteWatch} {os : List QuoteOutput}

theorem alarms_append (os os' : List QuoteOutput) : alarms (os ++ os') = alarms os ++ alarms os' :=
  List.filter_append ..

/-- Outputs that are no alarms leave the latch alone. -/
theorem Latched.quiet (h : Latched w os) (hw : w'.quoteStaleLogged = w.quoteStaleLogged) {os' : List QuoteOutput}
    (hos' : alarms os' = []) : Latched w' (os ++ os') := by
  have hsame : alarms (os ++ os') = alarms os := by rw [alarms_append, hos', List.append_nil]
  exact ⟨hsame ▸ h.apart, hw.trans (hsame ▸ h.latch)⟩

/-- A quote opens the latch. -/
theorem Latched.quote (h : Latched w os) (hw : w'.quoteStaleLogged = false) : Latched w' (os ++ [.fresh]) := by
  have hlast : alarms (os ++ [.fresh]) = alarms os ++ [.fresh] := alarms_append _ _
  refine ⟨?_, ?_⟩
  · rw [hlast, List.isChain_append]
    refine ⟨h.apart, List.IsChain.singleton _, fun o _ o' ho' => ?_⟩
    obtain rfl : .fresh = o' := by simpa using ho'
    exact fun hboth => Bool.false_ne_true hboth.2
  · rw [hw, hlast, List.getLast?_concat]
    rfl

/-- An alarm closes it. -/
theorem Latched.alarm (h : Latched w os) (hopen : w.quoteStaleLogged = false) (hw : w'.quoteStaleLogged = true)
    {o : QuoteOutput} (ho : o.isAlarm = true) {os' : List QuoteOutput} (hos' : alarms os' = []) :
    Latched w' (os ++ (os' ++ [o])) := by
  have hlast : alarms (os ++ (os' ++ [o])) = alarms os ++ [o] := by
    have hone : alarms [o] = [o] := by simp [alarms, ho]
    rw [alarms_append, alarms_append, hos', List.nil_append, hone]
  refine ⟨?_, ?_⟩
  · rw [hlast, List.isChain_append]
    refine ⟨h.apart, List.IsChain.singleton _, fun o' ho' _ _ hboth => ?_⟩
    have hlatch := h.latch
    rw [hopen, Option.mem_def.mp ho'] at hlatch
    exact Bool.false_ne_true (hlatch.trans hboth.1)
  · rw [hw, hlast, List.getLast?_concat]
    exact ho.symm

theorem isAlarm_alarm {stale futuresBreak : Bool} {elapsed : ℚ} {o : QuoteOutput}
    (h : w.alarm stale futuresBreak elapsed = some o) : o.isAlarm = true ∧ w.quoteStaleLogged = false := by
  unfold QuoteWatch.alarm at h
  split at h
  case isTrue => cases h
  case isFalse hopen =>
    refine ⟨?_, Bool.eq_false_iff.mpr hopen⟩
    split at h
    · cases h
      rfl
    · split at h
      · cases h
        cases futuresBreak <;> rfl
      · cases h

theorem latched_step (h : Latched w os) (e : QuoteEvent) :
    Latched (w.step haltThreshold e).1 (os ++ (w.step haltThreshold e).2) := by
  cases e with
  | quote now => exact h.quote rfl
  | looks watching now =>
    refine h.quiet ?_ ?_
    · rfl
    · rfl
  | decides hbAge reconnecting futuresBreak now =>
    unfold QuoteWatch.step
    dsimp only
    split
    case h_1 =>
      refine h.quiet ?_ ?_
      · rfl
      · rfl
    case h_2 elapsed _ =>
      split
      case isTrue =>
        have hpaused : alarms (if w.reconnectPauseLogged then [] else [.paused]) = [] := by split <;> rfl
        refine h.quiet ?_ hpaused
        rfl
      case isFalse =>
        have hresumed : alarms (if w.reconnectPauseLogged then [.resumed] else []) = [] := by split <;> rfl
        cases halarm : w.alarm (heartbeatStale haltThreshold hbAge) futuresBreak elapsed with
        | none =>
          refine h.quiet (Bool.or_false _) ?_
          rw [Option.toList_none, List.append_nil]
          exact hresumed
        | some o =>
          obtain ⟨ho, hopen⟩ := isAlarm_alarm halarm
          exact h.alarm hopen (Bool.or_true _) ho hresumed

/-- The outputs of a run. -/
def quoteOutputs (haltThreshold : ℚ) (start : ℚ) (events : List QuoteEvent) : List QuoteOutput :=
  ((quoteWatch haltThreshold).trace { lastQuoteTime := start } events).map Prod.snd

theorem latched_run (haltThreshold start : ℚ) (events : List QuoteEvent) :
    Latched ((quoteWatch haltThreshold).run { lastQuoteTime := start } events)
      (quoteOutputs haltThreshold start events) := by
  have hrun := (quoteWatch haltThreshold).run_history (P := Latched) (fun _ _ e h => latched_step h e) events
    { lastQuoteTime := start } [] ⟨.nil, rfl⟩
  rwa [List.nil_append] at hrun

/-- When a check halts. -/
theorem halted_mem_iff {elapsed : ℚ} (helapsed : w.perSymbolElapsed = some elapsed) (hbAge : Option ℚ)
    (reconnecting futuresBreak : Bool) (now : ℚ) :
    .halted ∈ (w.step haltThreshold (.decides hbAge reconnecting futuresBreak now)).2 ↔
      heartbeatStale haltThreshold hbAge = true ∧ reconnecting = false ∧ w.quoteStaleLogged = false := by
  unfold QuoteWatch.step QuoteWatch.alarm
  simp only [helapsed]
  cases heartbeatStale haltThreshold hbAge with
  | false =>
    refine iff_of_false ?_ fun h => Bool.false_ne_true h.1
    cases w.reconnectPauseLogged <;> cases w.quoteStaleLogged <;> cases futuresBreak <;>
      by_cases hquiet : staleQuoteWarnSeconds < elapsed <;> simp [hquiet]
  | true =>
    cases reconnecting with
    | true => cases w.reconnectPauseLogged <;> simp
    | false => cases w.reconnectPauseLogged <;> cases w.quoteStaleLogged <;> simp

/-- Between two quotes a bot gets at most one alarm.  A check that is under way and finds
    the heartbeat stale, and no reconnect, halts the bot exactly if no alarm was the last
    that happened: one that was warned or muted since its last quote is not halted. -/
theorem one_alarm_between_quotes (haltThreshold start : ℚ) (events : List QuoteEvent) :
    (alarms (quoteOutputs haltThreshold start events)).IsChain Apart ∧
      ∀ elapsed hbAge reconnecting futuresBreak now,
        ((quoteWatch haltThreshold).run { lastQuoteTime := start } events).perSymbolElapsed = some elapsed →
        (.halted ∈ (quoteWatch haltThreshold).emit ((quoteWatch haltThreshold).run { lastQuoteTime := start } events)
            (.decides hbAge reconnecting futuresBreak now) ↔
          heartbeatStale haltThreshold hbAge = true ∧ reconnecting = false ∧
            ∀ last ∈ (alarms (quoteOutputs haltThreshold start events)).getLast?, last.isAlarm = false) := by
  have hlatched := latched_run haltThreshold start events
  refine ⟨hlatched.apart, fun elapsed hbAge reconnecting futuresBreak now helapsed => ?_⟩
  have hlast : (∀ last ∈ (alarms (quoteOutputs haltThreshold start events)).getLast?, last.isAlarm = false) ↔
      ((quoteWatch haltThreshold).run { lastQuoteTime := start } events).quoteStaleLogged = false := by
    rw [hlatched.latch]
    cases (alarms (quoteOutputs haltThreshold start events)).getLast? <;> simp
  rw [hlast]
  exact halted_mem_iff helapsed hbAge reconnecting futuresBreak now

/-- A quiet symbol is warned about, then the heartbeat of all quotes stops. -/
example : quoteOutputs 120 0
    [.looks true 50, .decides (some 1) false false 50, .looks true 300, .decides none false false 300] = [.warned] := by
  decide +kernel

end Latch

end IbTrader.Bots
