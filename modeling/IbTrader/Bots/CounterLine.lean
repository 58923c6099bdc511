/-
  IbTrader.Bots.CounterLine

  The exit of the chart-signal bot on a line against its position
  (`_refresh_counter_lines_cache` and `_check_counter_line_exit` of
  `ib_trader/bots/strategies/chart_signal.py`), over exact arithmetic.

  The close of a bar collects the lines ahead of the price.  A tick that touches one starts
  a timer, and the first tick after the hold decides: the price has broken out, or the line
  of the entry backs the trade, or the position is closed.  So of every exit it is known
  which line it names, when that was touched, and that it was detected since the entry
  (`counter_exit_backed`).

  The texts and figures of the rows are left out, and bars without a high or a low.
-/

import IbTrader.Bots.ChartEntryRules
import IbTrader.Bots.ChartFiring
import IbTrader.Engine.Pricing

namespace IbTrader.Bots.ChartSignal

open Signals.SrFan

-- ============================================================================
-- Lines ahead of a position
-- ============================================================================

structure CounterConfig extends EntryRules where
  counterExitHoldSeconds : ℚ := 10
  counterExitMinTouches : ℤ := 2
  counterExitTriggerNearbyAtrMult : ℚ := 1
  deriving DecidableEq, Repr

/-- A line of `counter_lines_cache`, at the close that it was collected at. -/
structure CounterLine where
  value : ℚ
  touches : ℕ
  deriving DecidableEq, Repr

/-- `counter_touch`; the time is missing where it does not parse. -/
structure CounterTouch where
  startedAt : Option Datetime
  lineValue : ℚ
  deriving DecidableEq, Repr

/-- The document, with what the exit keeps in it. -/
structure CounterDoc extends Doc where
  counterLinesCache : List CounterLine := []
  counterLinesTol : ℚ := 0
  counterTouch : Option CounterTouch := none
  tradeAtr : Option ℚ := none
  deriving DecidableEq, Repr

/-- `round(x, 6)`. -/
def round6 (x : ℚ) : ℚ := Engine.Pricing.roundHalfEven (x * 1000000) / 1000000

/-- The line is still ahead of the last close. -/
def Ahead (config : CounterConfig) (closes : List ℚ) (d : Direction) (l : TrendLine) : Prop :=
  l.breakIdx = none ∧ config.counterExitMinTouches ≤ l.touches ∧
    beyond d (close closes (lastBar closes)) (l.valueAt (lastBar closes))

instance (config : CounterConfig) (closes : List ℚ) (d : Direction) (l : TrendLine) :
    Decidable (Ahead config closes d l) := by
  unfold Ahead
  infer_instance

/-- What the cache has of a line. -/
def cached (closes : List ℚ) (l : TrendLine) : CounterLine := ⟨round6 (l.valueAt (lastBar closes)), l.touches⟩

/-- `cache`, the lines with the most touches first. -/
def counterLines (config : CounterConfig) (closes : List ℚ) (d : Direction) : List CounterLine :=
  (((sideLines config.toEntryRules closes (opposite d)).filter (Ahead config closes d)).map (cached closes)).insertionSort
    fun a b => b.touches < a.touches ∨ a.touches = b.touches ∧ |a.value| ≤ |b.value|

/-- The mean of the last ranges. -/
def averageRange (bars : List ChartBar) : ℚ :=
  let ranges := (bars.drop (bars.length - 14)).map fun bar => bar.high - bar.low
  ranges.sum / ranges.length

/-- `_refresh_counter_lines_cache`. -/
def refreshCounterLinesCache (config : CounterConfig) (doc : CounterDoc) (fetched : List ChartBar) : CounterDoc :=
  let closes := fetched.map ChartBar.close
  if closes.length < 4 then { doc with counterLinesCache := [], counterLinesTol := 0 }
  else
    { doc with
      counterLinesCache := counterLines config closes doc.direction
      counterLinesTol := round6 (touchTol config.toEntryRules closes)
      tradeAtr := some (round6 (averageRange fetched)) }

-- ============================================================================
-- The check of a tick
-- ============================================================================

/-- `_line_valid_for_direction`. -/
def lineValidForDirection (doc : CounterDoc) (lineValue : ℚ) : Bool :=
  doc.entryPrice ≤ 0 ∨ beyond doc.direction doc.entryPrice lineValue

/-- The price has come up to the line. -/
def touched (doc : CounterDoc) (mid lineValue : ℚ) : Bool :=
  reached (opposite doc.direction) mid (slack doc.direction lineValue doc.counterLinesTol)

/-- It has gone past it. -/
def brokenOut (doc : CounterDoc) (mid lineValue : ℚ) : Bool :=
  beyond (opposite doc.direction) mid (slack (opposite doc.direction) lineValue doc.counterLinesTol)

/-- `trigger_value`, the line of the entry at the time of the tick. -/
def triggerValue (doc : CounterDoc) (now : Datetime) : Option ℚ :=
  doc.entryLine.bind fun line =>
    match line.anchorTime with
    | some anchorTime => some (line.anchorPrice + line.slopePerSec * secondsSince anchorTime now)
    | none => line.lineValueAtEntry

def triggerNearby (config : CounterConfig) (doc : CounterDoc) (now : Datetime) (mid : ℚ) : Bool :=
  doc.tradeAtr.any fun atr => (triggerValue doc now).any fun value =>
    |mid - value| ≤ config.counterExitTriggerNearbyAtrMult * atr

def triggerBreached (config : CounterConfig) (doc : CounterDoc) (now : Datetime) (mid : ℚ) : Bool :=
  (triggerValue doc now).any fun value =>
    beyond doc.direction mid (slack doc.direction value (|value| * config.touchToleranceFraction))

/-- The line of the entry is near, and holds. -/
def backed (config : CounterConfig) (doc : CounterDoc) (now : Datetime) (mid : ℚ) : Bool :=
  triggerNearby config doc now mid && !triggerBreached config doc now mid

/-- `EXIT_TIGHT_COUNTER_LINE` and `EXIT_COUNTER_LINE`. -/
def exitLabel (doc : CounterDoc) : String := if isMarginal doc.toDoc then "tight_counter_line" else "counter_line"

/-- `_check_counter_line_exit`, with the label of the exit that it asks for. -/
def checkCounterLineExit (config : CounterConfig) (doc : CounterDoc) (now : Datetime) (mid : ℚ) :
    CounterDoc × Option String :=
  if doc.counterLinesCache = [] ∨ doc.counterLinesTol ≤ 0 then (doc, none)
  else
    match doc.counterTouch with
    | none =>
      match doc.counterLinesCache.find? fun l =>
        lineValidForDirection doc l.value && touched doc mid l.value && !brokenOut doc mid l.value with
      | none => (doc, none)
      | some l => ({ doc with counterTouch := some ⟨some now, l.value⟩ }, none)
    | some touch =>
      let cleared := { doc with counterTouch := none }
      match touch.startedAt with
      | none => (cleared, none)
      | some startedAt =>
        if lineValidForDirection doc touch.lineValue = false then (cleared, none)
        else if secondsSince startedAt now < config.counterExitHoldSeconds then (doc, none)
        else if brokenOut doc mid touch.lineValue then (cleared, none)
        else if backed config doc now mid then (cleared, none)
        else (cleared, some (exitLabel doc))

-- ============================================================================
-- A position
-- ============================================================================

/-- What reaches the bot while it holds the position. -/
inductive CounterEvent
  /-- The close of a bar, with the history of that time. -/
  | bar (barTime : Datetime) (barClose : ℚ) (fetched : List ChartBar)
  | tick (now : Datetime) (mid : ℚ)
  deriving DecidableEq, Repr

namespace CounterDoc

/-- What the entry fill writes. -/
def entered (config : CounterConfig) (doc : Doc) (fill : Fill) : CounterDoc where
  toDoc := ChartSignal.entered config.toConfig doc fill
  counterLinesTol := fill.fillPrice * config.touchToleranceFraction

/-- The check is made at this price. -/
def Checks (config : CounterConfig) (doc : CounterDoc) (mid : ℚ) : Prop :=
  config.counterExitEnabled = true ∧ 0 < doc.entryPrice ∧ 0 < doc.qty ∧ 0 < mid

instance (config : CounterConfig) (doc : CounterDoc) (mid : ℚ) : Decidable (doc.Checks config mid) := by
  unfold Checks
  infer_instance

/-- The document and the label after the check, if it is made. -/
def checked (config : CounterConfig) (doc : CounterDoc) (now : Datetime) (mid : ℚ) : CounterDoc × Option String :=
  if doc.Checks config mid then checkCounterLineExit config doc now mid else (doc, none)

/-- `_on_quote`, with the check of the counter lines. -/
def onTick (config : CounterConfig) (doc : CounterDoc) (now : Datetime) (mid : ℚ) : CounterDoc × Option String :=
  let out := onQuote config.toConfig .awaitingExitTrigger doc.toDoc now mid (checked config doc now mid).2
  ({ (checked config doc now mid).1 with toDoc := out.doc }, out.exit)

/-- `_evaluate_exit`, and the refresh after it. -/
def onClose (config : CounterConfig) (doc : CounterDoc) (barTime : Datetime) (barClose : ℚ) (fetched : List ChartBar) :
    CounterDoc × Option String :=
  let out := evaluateExit config.toConfig doc.toDoc barTime barClose
  let next := { doc with toDoc := out.doc }
  if projectedLine config.toConfig doc.toDoc barTime ≠ none ∧ out.exit = none ∧ config.counterExitEnabled then
    (refreshCounterLinesCache config next fetched, none)
  else (next, out.exit)

def next (config : CounterConfig) (doc : CounterDoc) : CounterEvent → CounterDoc
  | .bar barTime barClose fetched => (doc.onClose config barTime barClose fetched).1
  | .tick now mid => (doc.onTick config now mid).1

/-- The document after the events of a position. -/
def after (config : CounterConfig) (start : CounterDoc) (events : List CounterEvent) : CounterDoc :=
  events.foldl (next config) start

end CounterDoc

-- ============================================================================
-- What an event leaves as it is
-- ============================================================================

section Entry

variable {config : CounterConfig} {doc : CounterDoc}

theorem evaluateExit_entry (config : Config) (doc : Doc) (barTime : Datetime) (barClose : ℚ) :
    (evaluateExit config doc barTime barClose).doc.entryLine = doc.entryLine ∧
      (evaluateExit config doc barTime barClose).doc.entryPrice = doc.entryPrice := by
  unfold evaluateExit
  split
  · exact ⟨rfl, rfl⟩
  · rename_i line _
    have hsame := samePosition_ratchet config doc barClose (some line)
    dsimp only
    split
    · exact ⟨hsame.entryLine, hsame.entryPrice⟩
    · exact ⟨hsame.entryLine, hsame.entryPrice⟩

theorem onQuote_entry (config : Config) (state : BotState) (doc : Doc) (now : Datetime) (mid : ℚ)
    (counterExit : Option String) :
    (onQuote config state doc now mid counterExit).doc.entryLine = doc.entryLine ∧
      (onQuote config state doc now mid counterExit).doc.entryPrice = doc.entryPrice := by
  have hticked := onStop_ticked config
    { doc with lastPrice := some mid, unrealizedPnl := some (unrealized config doc mid) } now mid
  unfold onQuote
  split
  · exact ⟨rfl, rfl⟩
  split
  · exact ⟨rfl, rfl⟩
  split
  · exact ⟨rfl, rfl⟩
  dsimp only
  split
  · exact ⟨rfl, rfl⟩
  · exact ⟨hticked.entryLine, hticked.entryPrice⟩

theorem CounterDoc.next_entry (config : CounterConfig) (doc : CounterDoc) (e : CounterEvent) :
    (doc.next config e).entryLine = doc.entryLine ∧ (doc.next config e).entryPrice = doc.entryPrice := by
  cases e with
  | bar barTime barClose fetched =>
    have hentry := evaluateExit_entry config.toConfig doc.toDoc barTime barClose
    unfold next onClose
    dsimp only
    split
    · unfold refreshCounterLinesCache
      dsimp only
      split
      · exact hentry
      · exact hentry
    · exact hentry
  | tick now mid => exact onQuote_entry config.toConfig .awaitingExitTrigger doc.toDoc now mid _

/-- The position is the one that was entered. -/
theorem CounterDoc.after_entry (config : CounterConfig) (start : CounterDoc) (events : List CounterEvent) :
    (after config start events).entryLine = start.entryLine ∧ (after config start events).entryPrice = start.entryPrice := by
  induction events generalizing start with
  | nil => exact ⟨rfl, rfl⟩
  | cons e events ih =>
    obtain ⟨hline, hprice⟩ := ih (start.next config e)
    obtain ⟨hline', hprice'⟩ := next_entry config start e
    exact ⟨hline.trans hline', hprice.trans hprice'⟩

theorem CounterDoc.after_concat (config : CounterConfig) (start : CounterDoc) (events : List CounterEvent)
    (e : CounterEvent) : after config start (events ++ [e]) = (after config start events).next config e :=
  List.foldl_concat ..

end Entry

-- ============================================================================
-- The check
-- ============================================================================

section Check

variable {config : CounterConfig} {doc : CounterDoc} {now : Datetime} {mid : ℚ} {touch : CounterTouch}

/-- The price is at a line of the cache, which is one on the far side of the entry. -/
structure Arms (doc : CounterDoc) (mid : ℚ) (lineValue : ℚ) : Prop where
  cached : ∃ l ∈ doc.counterLinesCache, l.value = lineValue
  side : lineValidForDirection doc lineValue = true
  near : |mid - lineValue| ≤ doc.counterLinesTol

/-- Touched and not broken out: within the tolerance. -/
theorem near_of_touched {lineValue : ℚ} (htouched : touched doc mid lineValue = true)
    (hbroken : brokenOut doc mid lineValue = false) : |mid - lineValue| ≤ doc.counterLinesTol := by
  unfold touched at htouched
  unfold brokenOut at hbroken
  cases hd : doc.direction with
  | long =>
    rw [hd] at htouched hbroken
    have hlow : lineValue - doc.counterLinesTol ≤ mid := of_decide_eq_true htouched
    have hhigh : ¬ lineValue + doc.counterLinesTol < mid := of_decide_eq_false hbroken
    rw [abs_le]
    constructor <;> linarith
  | short =>
    rw [hd] at htouched hbroken
    have hhigh : mid ≤ lineValue + doc.counterLinesTol := of_decide_eq_true htouched
    have hlow : ¬ mid < lineValue - doc.counterLinesTol := of_decide_eq_false hbroken
    rw [abs_le]
    constructor <;> linarith

/-- The check looks at its lines. -/
def CounterDoc.Decides (config : CounterConfig) (doc : CounterDoc) (mid : ℚ) : Prop :=
  doc.Checks config mid ∧ doc.counterLinesCache ≠ [] ∧ 0 < doc.counterLinesTol

/-- A touch that there is after a check was there, and its hold is not over, or starts now. -/
theorem checkCounterLineExit_touch (h : touch ∈ (checkCounterLineExit config doc now mid).1.counterTouch) :
    (doc.counterTouch = some touch ∧ (doc.counterLinesCache ≠ [] → 0 < doc.counterLinesTol →
        ∀ startedAt ∈ touch.startedAt, secondsSince startedAt now < config.counterExitHoldSeconds)) ∨
      touch.startedAt = some now ∧ Arms doc mid touch.lineValue := by
  unfold checkCounterLineExit at h
  split at h
  · rename_i hidle
    exact .inl ⟨h, fun hlines htol => absurd hidle (not_or.mpr ⟨hlines, not_le.mpr htol⟩)⟩
  split at h
  · rename_i hnone
    split at h
    · exact absurd (hnone.symm.trans h) (Option.some_ne_none touch).symm
    · rename_i l hfound
      obtain rfl := Option.some.inj h
      have hmatch := @List.find?_some _ (fun l : CounterLine =>
        lineValidForDirection doc l.value && touched doc mid l.value && !brokenOut doc mid l.value) _ _ hfound
      obtain ⟨hkept, hbroken⟩ := Bool.and_eq_true_iff.mp hmatch
      obtain ⟨hside, htouched⟩ := Bool.and_eq_true_iff.mp hkept
      exact .inr ⟨rfl, ⟨l, List.mem_of_find?_eq_some hfound, rfl⟩, hside,
        near_of_touched htouched (Bool.not_eq_true' _ ▸ hbroken)⟩
  · rename_i earlier hearlier
    dsimp only at h
    split at h
    · cases h
    rename_i startedAt hstarted
    split at h
    · cases h
    split at h
    · rename_i hhold
      obtain rfl := Option.some.inj (hearlier.symm.trans h)
      exact .inl ⟨h, fun _ _ s hs => (Option.some.inj (hstarted.symm.trans hs)) ▸ hhold⟩
    split at h
    · cases h
    split at h
    · cases h
    · cases h

/-- Why a check asks for an exit. -/
structure AsksExit (config : CounterConfig) (doc : CounterDoc) (now : Datetime) (mid : ℚ) (touch : CounterTouch)
    (startedAt : Datetime) : Prop where
  current : doc.counterTouch = some touch
  started : touch.startedAt = some startedAt
  held : config.counterExitHoldSeconds ≤ secondsSince startedAt now
  inside : brokenOut doc mid touch.lineValue = false
  unbacked : backed config doc now mid = false

theorem checkCounterLineExit_exit {label : String} (h : (checkCounterLineExit config doc now mid).2 = some label) :
    label = exitLabel doc ∧ ∃ touch startedAt, AsksExit config doc now mid touch startedAt := by
  unfold checkCounterLineExit at h
  split at h
  · cases h
  split at h
  · split at h
    · cases h
    · cases h
  · rename_i touch htouch
    dsimp only at h
    split at h
    · cases h
    rename_i startedAt hstarted
    split at h
    · cases h
    split at h
    · cases h
    rename_i hhold
    split at h
    · cases h
    rename_i hbroken
    split at h
    · cases h
    rename_i hbacked
    exact ⟨(Option.some.inj h).symm, touch, startedAt, htouch, hstarted, not_lt.mp hhold,
      Bool.eq_false_iff.mpr hbroken, Bool.eq_false_iff.mpr hbacked⟩

theorem checkCounterLineExit_cache :
    (checkCounterLineExit config doc now mid).1.counterLinesCache = doc.counterLinesCache := by
  unfold checkCounterLineExit
  split
  · rfl
  split
  · split <;> rfl
  · dsimp only
    split
    · rfl
    · split
      · rfl
      · split
        · rfl
        · split
          · rfl
          · split <;> rfl

theorem onStop_exit {config : Config} {doc : Doc} {label : String} (h : (onStop config doc now mid).exit = some label) :
    label = "trail_stop" := by
  unfold onStop at h
  dsimp only at h
  split at h
  · exact (Option.some.inj h).symm
  · cases h

/-- The exit of a tick is that of the check, or the stop. -/
theorem CounterDoc.onTick_exit {label : String} (h : (onTick config doc now mid).2 = some label)
    (hlabel : label ≠ "trail_stop") : (checked config doc now mid).2 = some label := by
  unfold onTick onQuote at h
  dsimp only at h
  split at h
  · cases h
  split at h
  · cases h
  split at h
  · cases h
  split at h
  · rename_i asked hasked
    unfold counterAsked at hasked
    split at hasked
    · exact hasked.trans h
    · cases hasked
  · exact absurd (onStop_exit h) hlabel

end Check

-- ============================================================================
-- Runs
-- ============================================================================

section Runs

variable {config : CounterConfig} {start : CounterDoc} {events : List CounterEvent}

/-- The line was detected at the close of a bar of the position, ahead of it. -/
def Detected (config : CounterConfig) (d : Direction) (events : List CounterEvent) (l : CounterLine) : Prop :=
  ∃ barTime barClose fetched, CounterEvent.bar barTime barClose fetched ∈ events ∧
    ∃ line ∈ sideLines config.toEntryRules (fetched.map ChartBar.close) (opposite d),
      Ahead config (fetched.map ChartBar.close) d line ∧ l = cached (fetched.map ChartBar.close) line

/-- The touch began at a tick of the run, and no check since has come after its hold. -/
def Began (config : CounterConfig) (start : CounterDoc) (events : List CounterEvent) (startedAt : Datetime)
    (lineValue : ℚ) : Prop :=
  ∃ before mid later, events = before ++ .tick startedAt mid :: later ∧
    Arms (CounterDoc.after config start before) mid lineValue ∧
    ∀ pre now mid' post, later = pre ++ .tick now mid' :: post →
      CounterDoc.Decides config (CounterDoc.after config start (before ++ .tick startedAt mid :: pre)) mid' →
      secondsSince startedAt now < config.counterExitHoldSeconds

theorem Detected.append {d : Direction} {l : CounterLine} (h : Detected config d events l) (e : CounterEvent) :
    Detected config d (events ++ [e]) l := by
  obtain ⟨barTime, barClose, fetched, hbar, hline⟩ := h
  exact ⟨barTime, barClose, fetched, List.mem_append_left _ hbar, hline⟩

/-- One more event, which is not a check after the hold. -/
theorem Began.append {startedAt : Datetime} {lineValue : ℚ} (h : Began config start events startedAt lineValue)
    (e : CounterEvent) (hheld : ∀ now mid, e = .tick now mid →
      CounterDoc.Decides config (CounterDoc.after config start events) mid →
      secondsSince startedAt now < config.counterExitHoldSeconds) :
    Began config start (events ++ [e]) startedAt lineValue := by
  obtain ⟨before, mid, later, rfl, harms, hlater⟩ := h
  refine ⟨before, mid, later ++ [e], by rw [List.append_assoc, List.cons_append], harms,
    fun pre now mid' post hsplit hdecides => ?_⟩
  rcases List.eq_nil_or_concat post with rfl | ⟨post', last, rfl⟩
  · obtain ⟨rfl, hlast⟩ := List.append_inj' hsplit rfl
    exact hheld now mid' (List.singleton_inj.mp hlast) hdecides
  · rw [List.concat_eq_append, ← List.cons_append, ← List.append_assoc] at hsplit
    exact hlater pre now mid' post' (List.append_inj' hsplit rfl).1 hdecides

/-- What is known after the events of a position. -/
structure CounterSound (config : CounterConfig) (start : CounterDoc) (events : List CounterEvent) : Prop where
  cache : ∀ l ∈ (CounterDoc.after config start events).counterLinesCache, Detected config start.direction events l
  touch : ∀ touch ∈ (CounterDoc.after config start events).counterTouch,
    ∃ startedAt, touch.startedAt = some startedAt ∧ Began config start events startedAt touch.lineValue

theorem direction_after (config : CounterConfig) (start : CounterDoc) (events : List CounterEvent) :
    (CounterDoc.after config start events).direction = start.direction := by
  rw [Doc.direction, (CounterDoc.after_entry config start events).1]
  rfl

/-- The close of a bar. -/
theorem CounterSound.bar (h : CounterSound config start events) (barTime : Datetime) (barClose : ℚ)
    (fetched : List ChartBar) : CounterSound config start (events ++ [.bar barTime barClose fetched]) := by
  have hkeep : ∀ touch ∈ (CounterDoc.after config start events).counterTouch, ∃ startedAt,
      touch.startedAt = some startedAt ∧
        Began config start (events ++ [.bar barTime barClose fetched]) startedAt touch.lineValue := by
    intro touch htouch
    obtain ⟨startedAt, hstarted, hbegan⟩ := h.touch touch htouch
    exact ⟨startedAt, hstarted, hbegan.append _ fun _ _ he => nomatch he⟩
  have hdirection : (evaluateExit config.toConfig (CounterDoc.after config start events).toDoc barTime barClose).doc.direction =
      start.direction := by
    rw [Doc.direction, (evaluateExit_entry ..).1]
    exact direction_after config start events
  constructor
  · rw [CounterDoc.after_concat]
    unfold CounterDoc.next CounterDoc.onClose refreshCounterLinesCache
    dsimp only
    split
    · split
      · exact fun l hl => absurd hl List.not_mem_nil
      · intro l hl
        dsimp only at hl
        rw [hdirection] at hl
        unfold counterLines at hl
        rw [List.mem_insertionSort] at hl
        obtain ⟨line, hline, rfl⟩ := List.mem_map.mp hl
        obtain ⟨hline, hahead⟩ := List.mem_filter.mp hline
        exact ⟨barTime, barClose, fetched, List.mem_append_right _ List.mem_cons_self, line, hline,
          of_decide_eq_true hahead, rfl⟩
    · exact fun l hl => (h.cache l hl).append _
  · rw [CounterDoc.after_concat]
    unfold CounterDoc.next CounterDoc.onClose refreshCounterLinesCache
    dsimp only
    split
    · split
      · exact hkeep
      · exact hkeep
    · exact hkeep

/-- A tick. -/
theorem CounterSound.tick (h : CounterSound config start events) (now : Datetime) (mid : ℚ) :
    CounterSound config start (events ++ [.tick now mid]) := by
  constructor
  · intro l hl
    rw [CounterDoc.after_concat] at hl
    have hcache : (CounterDoc.checked config (CounterDoc.after config start events) now mid).1.counterLinesCache =
        (CounterDoc.after config start events).counterLinesCache := by
      unfold CounterDoc.checked
      split
      · exact checkCounterLineExit_cache
      · rfl
    exact (h.cache l (hcache ▸ hl)).append _
  · intro touch htouch
    rw [CounterDoc.after_concat] at htouch
    have hchecked : touch ∈ (CounterDoc.checked config (CounterDoc.after config start events) now mid).1.counterTouch := htouch
    unfold CounterDoc.checked at hchecked
    split at hchecked
    · rcases checkCounterLineExit_touch hchecked with ⟨hold, hheld⟩ | ⟨hstarted, harms⟩
      · obtain ⟨startedAt, hstarted, hbegan⟩ := h.touch touch hold
        refine ⟨startedAt, hstarted, hbegan.append _ fun now' mid' he hdecides => ?_⟩
        cases he
        exact hheld hdecides.2.1 hdecides.2.2 startedAt hstarted
      · refine ⟨now, hstarted, events, mid, [], rfl, harms, fun pre now' mid' post hsplit => ?_⟩
        exact absurd hsplit.symm (List.append_ne_nil_of_right_ne_nil pre (List.cons_ne_nil _ _))
    · rename_i hidle
      obtain ⟨startedAt, hstarted, hbegan⟩ := h.touch touch hchecked
      refine ⟨startedAt, hstarted, hbegan.append _ fun now' mid' he hdecides => ?_⟩
      cases he
      exact absurd hdecides.1 hidle

theorem counterSound_after (hcache : start.counterLinesCache = []) (htouch : start.counterTouch = none)
    (events : List CounterEvent) : CounterSound config start events := by
  induction events using List.reverseRecOn with
  | nil =>
    refine ⟨fun l hl => ?_, fun touch ht => absurd (htouch.symm.trans ht) (Option.some_ne_none touch).symm⟩
    have hmem : l ∈ start.counterLinesCache := hl
    rw [hcache] at hmem
    exact absurd hmem List.not_mem_nil
  | append_singleton events e ih =>
    cases e with
    | bar barTime barClose fetched => exact ih.bar barTime barClose fetched
    | tick now mid => exact ih.tick now mid

/-- Why a position is closed on a line against it. -/
structure CounterExit (config : CounterConfig) (start : CounterDoc) (events : List CounterEvent) (now : Datetime)
    (mid : ℚ) (label : String) (startedAt : Datetime) (l : CounterLine) : Prop where
  label : label = exitLabel start
  /-- The hold is over, and this is the first check since. -/
  held : config.counterExitHoldSeconds ≤ secondsSince startedAt now
  touch : ∃ before mid₀ later, events = before ++ .tick startedAt mid₀ :: later ∧
    Detected config start.direction before l ∧ lineValidForDirection start l.value = true ∧
    |mid₀ - l.value| ≤ (CounterDoc.after config start before).counterLinesTol ∧
    ∀ pre now mid' post, later = pre ++ .tick now mid' :: post →
      CounterDoc.Decides config (CounterDoc.after config start (before ++ .tick startedAt mid₀ :: pre)) mid' →
      secondsSince startedAt now < config.counterExitHoldSeconds
  inside : brokenOut (CounterDoc.after config start events) mid l.value = false
  unbacked : backed config (CounterDoc.after config start events) now mid = false

/-- Whatever bars and ticks follow an entry, when a tick closes the position on a line against
    it, an earlier tick has touched that line, which had been detected since the entry, the
    price has not gone past it, and the line of the entry is far away or broken. -/
theorem counter_exit_backed {doc : Doc} {fill : Fill} {now : Datetime} {mid : ℚ} {label : String}
    (h : (CounterDoc.onTick config (CounterDoc.after config (CounterDoc.entered config doc fill) events) now mid).2 =
      some label) (hlabel : label ≠ "trail_stop") :
    ∃ startedAt l, CounterExit config (CounterDoc.entered config doc fill) events now mid label startedAt l := by
  have hchecked := CounterDoc.onTick_exit h hlabel
  unfold CounterDoc.checked at hchecked
  split at hchecked
  case isFalse => cases hchecked
  obtain ⟨hlabel, touch, startedAt, hasks⟩ := checkCounterLineExit_exit hchecked
  have hsound := @counterSound_after config (CounterDoc.entered config doc fill) rfl rfl
  obtain ⟨startedAt', hstarted, before, mid₀, later, hsplit, harms, hlater⟩ := (hsound events).touch touch hasks.current
  obtain rfl : startedAt' = startedAt := Option.some.inj (hstarted.symm.trans hasks.started)
  obtain ⟨l, hl, hvalue⟩ := harms.cached
  have hentry := CounterDoc.after_entry config (CounterDoc.entered config doc fill)
  have hside := harms.side
  unfold lineValidForDirection at hside
  rw [(hentry before).2, direction_after] at hside
  refine ⟨startedAt', l, ⟨hlabel.trans ?_, hasks.held,
    ⟨before, mid₀, later, hsplit, (hsound before).cache l hl, ?_, ?_, hlater⟩, ?_, hasks.unbacked⟩⟩
  · unfold exitLabel isMarginal
    rw [(hentry events).1]
  · rw [hvalue]
    exact hside
  · rw [hvalue]
    exact harms.near
  · rw [hvalue]
    exact hasks.inside

/-- Highs that fall by the same: the line through them is ahead of a long position. -/
def fallingWindow : List ChartBar := windowAt [4999, 5000, 4996, 4997, 4993, 4994, 4991]

/-- A long position whose price comes up to it twice, ten seconds apart. -/
theorem counter_exit_backed_falling : ∃ startedAt l, CounterExit { symbol := "MES" }
    (CounterDoc.entered { symbol := "MES" } { entryLine := some { anchorTime := some 0, anchorPrice := 4980 } }
      ⟨"BUY", 1, 4990, none, 1080000000⟩)
    [.bar 1260000000 4991 fallingWindow, .tick 1270000000 4992] 1280000000 4992 "counter_line" startedAt l :=
  @counter_exit_backed { symbol := "MES" } [.bar 1260000000 4991 fallingWindow, .tick 1270000000 4992]
    { entryLine := some { anchorTime := some 0, anchorPrice := 4980 } } ⟨"BUY", 1, 4990, none, 1080000000⟩ 1280000000 4992
    "counter_line" (by decide +kernel) (by decide)

end Runs

end IbTrader.Bots.ChartSignal
