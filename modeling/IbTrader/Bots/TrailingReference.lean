/-
  IbTrader.Bots.TrailingReference

  The exit of a position as a function of all its ticks, and that the sawtooth and the
  close-trend bot first exit where it says.

  The bots keep the high water mark and the stop in the document, which each tick patches.
  Until the first exit they are those of the prices since the activation (`Trail`).
-/

import Mathlib.Data.List.TakeWhile
import Mathlib.Tactic.Linarith
import IbTrader.Lib.HighWater
import IbTrader.Bots.TrailingExit

namespace IbTrader.Bots.TrailingExit

open IbTrader.Lib

-- ============================================================================
-- Runs
-- ============================================================================

structure Tick where
  now : Datetime
  event : QuoteUpdate
  deriving DecidableEq, Repr

/-- `_on_quote` of one of the bots. -/
abbrev OnQuote := ExitConfig → BotState → Doc → Datetime → QuoteUpdate → Outcome

/-- The document before a tick; the patches of a tick are there at the next. -/
def docAt (onQuote : OnQuote) (config : ExitConfig) (start : Doc) (ticks : ℕ → Tick) : ℕ → Doc
  | 0 => start
  | k + 1 =>
    (onQuote config .awaitingExitTrigger (docAt onQuote config start ticks k) (ticks k).now (ticks k).event).doc

/-- Why the bot exits at a tick, if it does. -/
def exitAt (onQuote : OnQuote) (config : ExitConfig) (start : Doc) (ticks : ℕ → Tick) (k : ℕ) : Option ExitType :=
  (onQuote config .awaitingExitTrigger (docAt onQuote config start ticks k) (ticks k).now (ticks k).event).exit.map
    (·.exitType)

/-- The first exit of a run. -/
structure FirstExit (exits : ℕ → Option ExitType) (k : ℕ) (exitType : ExitType) : Prop where
  exit : exits k = some exitType
  first : ∀ i < k, exits i = none

/-- Runs that exit alike up to the first exit of the second have the same first exit. -/
theorem firstExit_iff_of_agree {exits exits' : ℕ → Option ExitType}
    (h : ∀ k, (∀ i < k, exits' i = none) → exits k = exits' k) (k : ℕ) (exitType : ExitType) :
    FirstExit exits k exitType ↔ FirstExit exits' k exitType := by
  constructor
  · intro hfirst
    have hnone : ∀ i < k, exits' i = none := by
      intro i hi
      induction i using Nat.strong_induction_on with
      | _ i ih => exact (h i fun j hj => ih j hj (by omega)) ▸ hfirst.first i hi
    exact ⟨h k hnone ▸ hfirst.exit, hnone⟩
  · intro hfirst
    exact ⟨(h k hfirst.first).trans hfirst.exit,
      fun i hi => (h i fun j hj => hfirst.first j (by omega)).trans (hfirst.first i hi)⟩

-- ============================================================================
-- The reference
-- ============================================================================

/-- The price of a tick. -/
def priceAt (config : ExitConfig) (ticks : ℕ → Tick) (k : ℕ) : ℚ := (ticks k).event.getattr config.exitPrice

/-- The prices of the ticks before one. -/
def pricesBefore (config : ExitConfig) (ticks : ℕ → Tick) (k : ℕ) : List ℚ :=
  (List.range k).map (priceAt config ticks)

/-- The price has the gain that activates the trail. -/
def activates (config : ExitConfig) (entryPrice price : ℚ) : Bool :=
  config.trailActivationPct ≤ pnlPct entryPrice price

/-- The greatest price since the activation, of the ticks before one. -/
def maxSince (config : ExitConfig) (entryPrice : ℚ) (ticks : ℕ → Tick) (k : ℕ) : Option ℚ :=
  highWater (activates config entryPrice) (pricesBefore config ticks k)

/-- The exit at a tick: the hard stop, then the time stop, then, if an earlier tick has
    activated it, the band behind the greatest price since. -/
def referenceExit (config : ExitConfig) (start : Doc) (ticks : ℕ → Tick) (k : ℕ) : Option ExitType :=
  let price := priceAt config ticks k
  if price ≤ hardSlPrice config start.entryPrice then some .hardStopLoss
  else if timeStopReached config start.entryTime (ticks k).now then some .timeStop
  else if (∃ j < k, activates config start.entryPrice (priceAt config ticks j)) ∧
      (maxSince config start.entryPrice ticks (k + 1)).any fun mark => price ≤ mark * (1 - config.trailWidthPct) then
    some .trailingStop
  else none

-- ============================================================================
-- One tick
-- ============================================================================

section OneTick

variable {config : ExitConfig} {doc : Doc}

/-- The trail has been activated, and its stop has been reached. -/
def trailReached (doc : Doc) (price : ℚ) : Prop :=
  doc.trailActivated ∧ ¬ doc.highWaterMark.getD price < price ∧
    0 < doc.currentStop.getD 0 ∧ price ≤ doc.currentStop.getD 0

instance trailReached.decidable (doc : Doc) (price : ℚ) : Decidable (trailReached doc price) :=
  inferInstanceAs (Decidable (_ ∧ _))

/-- The exit of a tick. -/
def exitOf (config : ExitConfig) (doc : Doc) (now : Datetime) (price : ℚ) : Option ExitType :=
  if price ≤ hardSlPrice config doc.entryPrice then some .hardStopLoss
  else if timeStopReached config doc.entryTime now then some .timeStop
  else if trailReached doc price then some .trailingStop
  else none

/-- The trail after a tick that does not exit. -/
def trailed (config : ExitConfig) (doc : Doc) (price : ℚ) : Doc :=
  if ¬ doc.trailActivated then
    if activates config doc.entryPrice price then { raised config doc price with trailActivated := true } else doc
  else if doc.highWaterMark.getD price < price then raised config doc price
  else doc

/-- The latest price is recorded. -/
def Doc.quoted (doc : Doc) (price : ℚ) : Doc := { doc with lastPrice := some price }

/-- A tick of a position exits as `exitOf` says; it leaves the trail if it exits, and moves
    it if it does not. -/
theorem onQuote_spec (now : Datetime) (hqty : 0 < doc.qty) (hentry : 0 < doc.entryPrice) {event : QuoteUpdate}
    (hprice : 0 < event.getattr config.exitPrice) :
    (SawtoothRsi.onQuote config .awaitingExitTrigger doc now event).exit.map (·.exitType) =
        exitOf config doc now (event.getattr config.exitPrice) ∧
      (SawtoothRsi.onQuote config .awaitingExitTrigger doc now event).doc =
        (if exitOf config doc now (event.getattr config.exitPrice) = none
          then trailed config doc (event.getattr config.exitPrice) else doc).quoted
          (event.getattr config.exitPrice) := by
  unfold SawtoothRsi.onQuote exitOf
  rw [if_neg (not_not.mpr rfl), if_neg (not_le.mpr hqty), if_neg (not_le.mpr hentry)]
  dsimp only
  rw [if_neg (not_le.mpr hprice)]
  generalize event.getattr config.exitPrice = price
  by_cases hhard : price ≤ hardSlPrice config doc.entryPrice
  · rw [if_pos hhard, if_pos hhard]
    exact ⟨rfl, rfl⟩
  rw [if_neg hhard, if_neg hhard]
  by_cases htime : timeStopReached config doc.entryTime now
  · rw [if_pos htime, if_pos htime]
    exact ⟨rfl, rfl⟩
  rw [if_neg htime, if_neg htime]
  by_cases hactive : doc.trailActivated
  · rw [if_neg (not_not.mpr hactive)]
    by_cases hraise : doc.highWaterMark.getD price < price
    · have hreached : ¬ trailReached doc price := fun h => h.2.1 hraise
      rw [if_pos hraise, if_neg hreached, if_pos rfl, trailed, if_neg (not_not.mpr hactive), if_pos hraise]
      exact ⟨rfl, rfl⟩
    · rw [if_neg hraise]
      by_cases hstop : 0 < doc.currentStop.getD 0 ∧ price ≤ doc.currentStop.getD 0
      · have hreached : trailReached doc price := ⟨hactive, hraise, hstop⟩
        rw [if_pos hstop, if_pos hreached]
        exact ⟨rfl, rfl⟩
      · have hreached : ¬ trailReached doc price := fun h => hstop h.2.2
        rw [if_neg hstop, if_neg hreached, if_pos rfl, trailed, if_neg (not_not.mpr hactive), if_neg hraise]
        exact ⟨rfl, rfl⟩
  · have hreached : ¬ trailReached doc price := fun h => hactive h.1
    rw [if_pos hactive, if_neg hreached, if_pos rfl, trailed, if_pos hactive]
    by_cases hgain : config.trailActivationPct ≤ pnlPct doc.entryPrice price
    · have hactivates : activates config doc.entryPrice price := decide_eq_true hgain
      rw [if_pos hgain, if_pos hactivates]
      exact ⟨rfl, rfl⟩
    · have hactivates : ¬ activates config doc.entryPrice price := fun h => hgain (of_decide_eq_true h)
      rw [if_neg hgain, if_neg hactivates]
      exact ⟨rfl, rfl⟩

/-- The two bots decide and patch alike. -/
theorem closeTrend_onQuote (config : ExitConfig) (pos : BotState) (doc : Doc) (now : Datetime) (event : QuoteUpdate) :
    (CloseTrendRsi.onQuote config pos doc now event).exit = (SawtoothRsi.onQuote config pos doc now event).exit ∧
      (CloseTrendRsi.onQuote config pos doc now event).doc = (SawtoothRsi.onQuote config pos doc now event).doc := by
  unfold CloseTrendRsi.onQuote SawtoothRsi.onQuote
  by_cases hentry : doc.entryPrice ≤ 0
  · -- the one branch in which they differ, by the trigger of the alert
    rw [if_pos hentry, if_pos hentry]
    split
    · exact ⟨rfl, rfl⟩
    · split
      · exact ⟨rfl, rfl⟩
      · exact ⟨rfl, rfl⟩
  · rw [if_neg hentry, if_neg hentry]
    exact ⟨rfl, rfl⟩

end OneTick

-- ============================================================================
-- The greatest price since the activation
-- ============================================================================

section Since

variable {config : ExitConfig} {entryPrice : ℚ} {ticks : ℕ → Tick} {k : ℕ}

theorem maxSince_succ (config : ExitConfig) (entryPrice : ℚ) (ticks : ℕ → Tick) (k : ℕ) :
    maxSince config entryPrice ticks (k + 1) =
      (maxSince config entryPrice ticks k).elim
        (if activates config entryPrice (priceAt config ticks k) then some (priceAt config ticks k) else none)
        fun mark => some (max mark (priceAt config ticks k)) := by
  rw [maxSince, pricesBefore, List.range_succ, List.map_append, List.map_singleton, highWater_concat]
  rfl

theorem maxSince_eq_none_iff :
    maxSince config entryPrice ticks k = none ↔ ¬ ∃ j < k, activates config entryPrice (priceAt config ticks j) := by
  rw [maxSince, highWater, List.max?_eq_none_iff, List.dropWhile_eq_nil_iff]
  simp [pricesBefore]

theorem maxSince_pos {mark : ℚ} (hpositive : ∀ j, 0 < priceAt config ticks j)
    (h : maxSince config entryPrice ticks k = some mark) : 0 < mark := by
  obtain ⟨j, -, rfl⟩ := List.mem_map.mp (mem_of_highWater_eq_some _ h)
  exact hpositive j

/-- The band behind a mark that counts the price is reached exactly if the one behind the
    mark before it is, and the price has not raised it. -/
theorem le_band_iff {width mark price : ℚ} (hwidth : 0 < width ∧ width < 1) (hmark : 0 < mark) (hprice : 0 < price) :
    price ≤ max mark price * (1 - width) ↔
      ¬ mark < price ∧ 0 < mark * (1 - width) ∧ price ≤ mark * (1 - width) := by
  by_cases hraise : mark < price
  · have hband : price * (1 - width) < price := mul_lt_of_lt_one_right hprice (by linarith [hwidth.1])
    rw [max_eq_right hraise.le]
    exact ⟨fun h => absurd h (not_le.mpr hband), fun h => absurd hraise h.1⟩
  · have hpos : 0 < mark * (1 - width) := mul_pos hmark (by linarith [hwidth.2])
    rw [max_eq_left (not_lt.mp hraise)]
    exact ⟨fun h => ⟨hraise, hpos, h⟩, fun h => h.2.2⟩

end Since

-- ============================================================================
-- Up to the first exit
-- ============================================================================

section Run

variable {config : ExitConfig} {start doc : Doc} {ticks : ℕ → Tick} {k : ℕ}

/-- The document is that of the position, and its trail that of the prices before the
    tick. -/
structure Trail (config : ExitConfig) (start : Doc) (ticks : ℕ → Tick) (k : ℕ) (doc : Doc) : Prop where
  qty : doc.qty = start.qty
  entryPrice : doc.entryPrice = start.entryPrice
  entryTime : doc.entryTime = start.entryTime
  inactive : maxSince config start.entryPrice ticks k = none → ¬ doc.trailActivated
  active : ∀ mark, maxSince config start.entryPrice ticks k = some mark →
    doc.trailActivated ∧ doc.highWaterMark = some mark ∧ doc.currentStop = some (mark * (1 - config.trailWidthPct))

/-- The tick exits as the reference does. -/
theorem Trail.exitOf (h : Trail config start ticks k doc) (hwidth : 0 < config.trailWidthPct ∧ config.trailWidthPct < 1)
    (hpositive : ∀ j, 0 < priceAt config ticks j) :
    exitOf config doc (ticks k).now (priceAt config ticks k) = referenceExit config start ticks k := by
  have htrail : trailReached doc (priceAt config ticks k) ↔
      (∃ j < k, activates config start.entryPrice (priceAt config ticks j)) ∧
        (maxSince config start.entryPrice ticks (k + 1)).any
          fun mark => priceAt config ticks k ≤ mark * (1 - config.trailWidthPct) := by
    cases hmax : maxSince config start.entryPrice ticks k with
    | none =>
      exact iff_of_false (fun hreached => h.inactive hmax hreached.1) (fun hexists => maxSince_eq_none_iff.mp hmax hexists.1)
    | some mark =>
      have hexists : ∃ j < k, activates config start.entryPrice (priceAt config ticks j) := by
        by_contra hnone
        rw [maxSince_eq_none_iff.mpr hnone] at hmax
        exact absurd hmax.symm (Option.some_ne_none mark)
      obtain ⟨hactive, hmark, hstop⟩ := h.active mark hmax
      rw [maxSince_succ, hmax, Option.elim_some, Option.any_some, decide_eq_true_iff,
        le_band_iff hwidth (maxSince_pos hpositive hmax) (hpositive k), trailReached, hmark, hstop, Option.getD_some,
        Option.getD_some, and_iff_right hactive, and_iff_right hexists]
  rw [TrailingExit.exitOf, referenceExit, h.entryPrice, h.entryTime]
  rw [if_congr htrail rfl rfl]

/-- A tick that does not exit moves the trail with the price. -/
theorem Trail.trailed (h : Trail config start ticks k doc) :
    Trail config start ticks (k + 1) (trailed config doc (priceAt config ticks k)) := by
  unfold TrailingExit.trailed
  rw [h.entryPrice]
  cases hmax : maxSince config start.entryPrice ticks k with
  | none =>
    rw [if_pos (h.inactive hmax)]
    split
    · rename_i hactivates
      have hsucc : maxSince config start.entryPrice ticks (k + 1) = some (priceAt config ticks k) := by
        rw [maxSince_succ, hmax]
        exact if_pos hactivates
      refine ⟨h.qty, h.entryPrice, h.entryTime, fun hnone => ?_, fun mark hmark => ?_⟩
      · rw [hsucc] at hnone
        exact absurd hnone (Option.some_ne_none _)
      · rw [hsucc, Option.some.injEq] at hmark
        subst hmark
        exact ⟨rfl, rfl, rfl⟩
    · rename_i hnot
      have hsucc : maxSince config start.entryPrice ticks (k + 1) = none := by
        rw [maxSince_succ, hmax]
        exact if_neg hnot
      refine ⟨h.qty, h.entryPrice, h.entryTime, fun _ => h.inactive hmax, fun mark hmark => ?_⟩
      rw [hsucc] at hmark
      exact absurd hmark.symm (Option.some_ne_none mark)
  | some before =>
    obtain ⟨hactive, hmark, hstop⟩ := h.active before hmax
    have hsucc : maxSince config start.entryPrice ticks (k + 1) = some (max before (priceAt config ticks k)) := by
      rw [maxSince_succ, hmax, Option.elim_some]
    rw [if_neg (not_not.mpr hactive), hmark, Option.getD_some]
    split
    · rename_i hraise
      refine ⟨h.qty, h.entryPrice, h.entryTime, fun hnone => ?_, fun mark hnext => ?_⟩
      · rw [hsucc] at hnone
        exact absurd hnone (Option.some_ne_none _)
      · rw [hsucc, max_eq_right (le_of_lt hraise), Option.some.injEq] at hnext
        subst hnext
        exact ⟨hactive, rfl, rfl⟩
    · rename_i hraise
      refine ⟨h.qty, h.entryPrice, h.entryTime, fun hnone => ?_, fun mark hnext => ?_⟩
      · rw [hsucc] at hnone
        exact absurd hnone (Option.some_ne_none _)
      · rw [hsucc, max_eq_left (not_lt.mp hraise), Option.some.injEq] at hnext
        subst hnext
        exact ⟨hactive, hmark, hstop⟩

/-- Until the first exit the trail is that of the prices so far. -/
theorem docAt_trail (hwidth : 0 < config.trailWidthPct ∧ config.trailWidthPct < 1)
    (hpositive : ∀ j, 0 < priceAt config ticks j) (hqty : 0 < start.qty) (hentry : 0 < start.entryPrice)
    (hinactive : ¬ start.trailActivated) (k : ℕ) (hnone : ∀ i < k, referenceExit config start ticks i = none) :
    Trail config start ticks k (docAt SawtoothRsi.onQuote config start ticks k) := by
  induction k with
  | zero =>
    refine ⟨rfl, rfl, rfl, fun _ => hinactive, fun mark hmark => ?_⟩
    exact absurd (hmark.symm.trans (highWater_nil _)) (Option.some_ne_none mark)
  | succ k ih =>
    have htrail := ih fun i hi => hnone i (by omega)
    have hexit : exitOf config (docAt SawtoothRsi.onQuote config start ticks k) (ticks k).now
        ((ticks k).event.getattr config.exitPrice) = none :=
      (htrail.exitOf hwidth hpositive).trans (hnone k (by omega))
    have hnext := htrail.trailed
    rw [docAt, (onQuote_spec (ticks k).now (htrail.qty ▸ hqty) (htrail.entryPrice ▸ hentry) (hpositive k)).2,
      if_pos hexit]
    exact ⟨hnext.qty, hnext.entryPrice, hnext.entryTime, hnext.inactive, hnext.active⟩

/-- Up to the first exit of the reference the bot exits as the reference does. -/
theorem exitAt_eq_referenceExit (hwidth : 0 < config.trailWidthPct ∧ config.trailWidthPct < 1)
    (hpositive : ∀ j, 0 < priceAt config ticks j) (hqty : 0 < start.qty) (hentry : 0 < start.entryPrice)
    (hinactive : ¬ start.trailActivated) (k : ℕ) (hnone : ∀ i < k, referenceExit config start ticks i = none) :
    exitAt SawtoothRsi.onQuote config start ticks k = referenceExit config start ticks k := by
  have htrail := docAt_trail hwidth hpositive hqty hentry hinactive k hnone
  have hspec := onQuote_spec (ticks k).now (htrail.qty ▸ hqty) (htrail.entryPrice ▸ hentry) (hpositive k)
  exact hspec.1.trans (htrail.exitOf hwidth hpositive)

theorem closeTrend_docAt (config : ExitConfig) (start : Doc) (ticks : ℕ → Tick) (k : ℕ) :
    docAt CloseTrendRsi.onQuote config start ticks k = docAt SawtoothRsi.onQuote config start ticks k := by
  induction k with
  | zero => rfl
  | succ k ih => rw [docAt, docAt, ih, (closeTrend_onQuote _ _ _ _ _).2]

/-- The close-trend bot exits at the same ticks, for the same reasons. -/
theorem closeTrend_exitAt (config : ExitConfig) (start : Doc) (ticks : ℕ → Tick) (k : ℕ) :
    exitAt CloseTrendRsi.onQuote config start ticks k = exitAt SawtoothRsi.onQuote config start ticks k := by
  rw [exitAt, exitAt, closeTrend_docAt, (closeTrend_onQuote _ _ _ _ _).1]

end Run

-- ============================================================================
-- The stop
-- ============================================================================

section Stop

variable {config : ExitConfig} {doc : Doc} {price : ℚ}

/-- A trail that has been activated has a mark, and the stop of its band. -/
def Banded (config : ExitConfig) (doc : Doc) : Prop :=
  doc.trailActivated → ∃ mark, doc.highWaterMark = some mark ∧ doc.currentStop = some (mark * (1 - config.trailWidthPct))

/-- The trail stays activated, and its stop gets no looser. -/
def Tightens (doc next : Doc) : Prop :=
  doc.trailActivated → next.trailActivated ∧
    ∃ stop stop', doc.currentStop = some stop ∧ next.currentStop = some stop' ∧ stop ≤ stop'

theorem Banded.tightens_refl (h : Banded config doc) : Tightens doc doc := by
  intro hactive
  obtain ⟨mark, -, hstop⟩ := h hactive
  exact ⟨hactive, _, _, hstop, hstop, le_refl _⟩

theorem Banded.trailed (h : Banded config doc) (price : ℚ) : Banded config (trailed config doc price) := by
  unfold TrailingExit.trailed
  split
  · split
    · exact fun _ => ⟨price, rfl, rfl⟩
    · exact h
  · split
    · exact fun _ => ⟨price, rfl, rfl⟩
    · exact h

theorem Banded.tightens_trailed (h : Banded config doc) (hwidth : config.trailWidthPct < 1) (price : ℚ) :
    Tightens doc (TrailingExit.trailed config doc price) := by
  intro hactive
  obtain ⟨mark, hmark, hstop⟩ := h hactive
  unfold TrailingExit.trailed
  rw [if_neg (not_not.mpr hactive), hmark, Option.getD_some]
  split
  · rename_i hraise
    have hband : mark * (1 - config.trailWidthPct) ≤ price * (1 - config.trailWidthPct) :=
      mul_le_mul_of_nonneg_right (le_of_lt hraise) (by linarith)
    exact ⟨hactive, _, _, hstop, rfl, hband⟩
  · exact ⟨hactive, _, _, hstop, hstop, le_refl _⟩

theorem trailed_position (config : ExitConfig) (doc : Doc) (price : ℚ) :
    (trailed config doc price).qty = doc.qty ∧ (trailed config doc price).entryPrice = doc.entryPrice := by
  unfold trailed
  split
  · split
    · exact ⟨rfl, rfl⟩
    · exact ⟨rfl, rfl⟩
  · split
    · exact ⟨rfl, rfl⟩
    · exact ⟨rfl, rfl⟩

/-- The document is of the position, and its stop that of its mark. -/
structure Guarded (config : ExitConfig) (start doc : Doc) : Prop where
  qty : doc.qty = start.qty
  entryPrice : doc.entryPrice = start.entryPrice
  banded : Banded config doc

/-- A tick leaves the trail, or moves it with the price. -/
theorem docAt_succ_cases {start : Doc} {ticks : ℕ → Tick} {k : ℕ}
    (h : Guarded config start (docAt SawtoothRsi.onQuote config start ticks k)) (hqty : 0 < start.qty)
    (hentry : 0 < start.entryPrice) (hpositive : ∀ j, 0 < priceAt config ticks j) :
    docAt SawtoothRsi.onQuote config start ticks (k + 1) =
        (docAt SawtoothRsi.onQuote config start ticks k).quoted (priceAt config ticks k) ∨
      docAt SawtoothRsi.onQuote config start ticks (k + 1) =
        (trailed config (docAt SawtoothRsi.onQuote config start ticks k) (priceAt config ticks k)).quoted
          (priceAt config ticks k) := by
  rw [docAt, (onQuote_spec (ticks k).now (h.qty ▸ hqty) (h.entryPrice ▸ hentry) (hpositive k)).2]
  split
  · exact .inr rfl
  · exact .inl rfl

theorem docAt_guarded {start : Doc} {ticks : ℕ → Tick} (hqty : 0 < start.qty) (hentry : 0 < start.entryPrice)
    (hpositive : ∀ j, 0 < priceAt config ticks j) (hinactive : ¬ start.trailActivated) (k : ℕ) :
    Guarded config start (docAt SawtoothRsi.onQuote config start ticks k) := by
  induction k with
  | zero => exact ⟨rfl, rfl, fun hactive => absurd hactive hinactive⟩
  | succ k ih =>
    rcases docAt_succ_cases ih hqty hentry hpositive with hdoc | hdoc
    · rw [hdoc]
      exact ⟨ih.qty, ih.entryPrice, ih.banded⟩
    · have hposition := trailed_position config (docAt SawtoothRsi.onQuote config start ticks k) (priceAt config ticks k)
      rw [hdoc]
      exact ⟨hposition.1.trans ih.qty, hposition.2.trans ih.entryPrice, ih.banded.trailed _⟩

/-- An activated trail stays so, and its stop never loosens. -/
theorem docAt_tightens {start : Doc} {ticks : ℕ → Tick} (hwidth : config.trailWidthPct < 1) (hqty : 0 < start.qty)
    (hentry : 0 < start.entryPrice) (hpositive : ∀ j, 0 < priceAt config ticks j) (hinactive : ¬ start.trailActivated)
    (k : ℕ) :
    Tightens (docAt SawtoothRsi.onQuote config start ticks k) (docAt SawtoothRsi.onQuote config start ticks (k + 1)) := by
  have hguarded := docAt_guarded hqty hentry hpositive hinactive k
  rcases docAt_succ_cases hguarded hqty hentry hpositive with hdoc | hdoc
  · rw [hdoc]
    exact hguarded.banded.tightens_refl
  · rw [hdoc]
    exact hguarded.banded.tightens_trailed hwidth _

end Stop

-- ============================================================================
-- The bots and the reference
-- ============================================================================

/-- The sawtooth bot first exits when the reference does and for the same reason, its
    trailing stop never loosens, and the close-trend bot decides like it at every tick. -/
theorem firstExit_iff_reference (config : ExitConfig) (start : Doc) (ticks : ℕ → Tick)
    (hwidth : 0 < config.trailWidthPct ∧ config.trailWidthPct < 1) (hqty : 0 < start.qty) (hentry : 0 < start.entryPrice)
    (hinactive : start.trailActivated = false) (hpositive : ∀ k, 0 < priceAt config ticks k) :
    (∀ k exitType, FirstExit (exitAt SawtoothRsi.onQuote config start ticks) k exitType ↔
      FirstExit (referenceExit config start ticks) k exitType) ∧
    (∀ k, Tightens (docAt SawtoothRsi.onQuote config start ticks k)
      (docAt SawtoothRsi.onQuote config start ticks (k + 1))) ∧
    (∀ k, exitAt CloseTrendRsi.onQuote config start ticks k = exitAt SawtoothRsi.onQuote config start ticks k) := by
  have hinactive : ¬ start.trailActivated := by rw [hinactive]; exact Bool.false_ne_true
  exact ⟨firstExit_iff_of_agree (exitAt_eq_referenceExit hwidth hpositive hqty hentry hinactive),
    docAt_tightens hwidth.2 hqty hentry hpositive hinactive, closeTrend_exitAt config start ticks⟩

/-- A position entered at 100 whose price is 101, then 102, then 101. -/
def threeTicks (k : ℕ) : Tick :=
  { now := 0, event := { bid := if k = 1 then 102 else 101, ask := if k = 1 then 102 else 101, last := 101 } }

theorem firstExit_iff_reference_threeTicks :
    FirstExit (exitAt SawtoothRsi.onQuote {} { qty := 1, entryPrice := 100 } threeTicks) 2 .trailingStop ↔
      FirstExit (referenceExit {} { qty := 1, entryPrice := 100 } threeTicks) 2 .trailingStop :=
  (firstExit_iff_reference {} { qty := 1, entryPrice := 100 } threeTicks
    ⟨show (0 : ℚ) < 15 / 10000 by norm_num, show (15 / 10000 : ℚ) < 1 by norm_num⟩ (show (0 : ℚ) < 1 by norm_num)
    (show (0 : ℚ) < 100 by norm_num) rfl (fun k => by
      by_cases h : k = 1
      · subst h
        decide +kernel
      · simp [priceAt, threeTicks, QuoteUpdate.getattr, QuoteUpdate.mid, h])).1 2 .trailingStop

/-- It exits at the third tick. -/
example : (List.range 3).map (exitAt SawtoothRsi.onQuote {} { qty := 1, entryPrice := 100 } threeTicks) =
    [none, none, some .trailingStop] := by
  decide +kernel

end IbTrader.Bots.TrailingExit
