/-
  IbTrader.Bots.DailyStats

  The daily trade statistics of a bot (`BotStateStore` in `ib_trader/bots/state.py`)
  and what the risk middleware reads of them.

  A recording reads the statistics, begins a new day where the date has changed, and
  stores them again; a read takes them as they are.  So they agree with what was
  recorded on the date they carry (`Agrees`), which need not be the one they are read
  on (`accounted_iff`).
-/

import IbTrader.Lib.KeyedSum
import IbTrader.Bots.RiskGate

namespace IbTrader.Bots.Risk

open Lib

-- ============================================================================
-- The statistics
-- ============================================================================

/-- The document of `bot_stats`; a date is the number of its day. -/
structure StatsDoc where
  tradesToday : ℕ := 0
  tradesTotal : ℕ := 0
  pnlToday : ℚ := 0
  date : ℕ
  deriving DecidableEq, Repr

/-- `get_stats`. -/
def getStats (today : ℕ) (doc : Option StatsDoc) : StatsDoc := doc.getD { date := today }

/-- `_maybe_reset_daily`: the statistics, and whether they have to be stored. -/
def maybeResetDaily (today : ℕ) (doc : Option StatsDoc) : StatsDoc × Bool :=
  let stats := getStats today doc
  if stats.date = today then (stats, false) else ({ tradesTotal := stats.tradesTotal, date := today }, true)

/-- What is recorded: a trade by `record_trade`, a profit by `record_pnl`. -/
inductive Entry where
  | trade
  | pnl (amount : ℚ)
  deriving DecidableEq, Repr

def Entry.trades : Entry → ℕ
  | .trade => 1
  | .pnl _ => 0

def Entry.amount : Entry → ℚ
  | .trade => 0
  | .pnl amount => amount

/-- The statistics with one more entry. -/
def Entry.add : Entry → StatsDoc → StatsDoc
  | .trade, stats => { stats with tradesToday := stats.tradesToday + 1, tradesTotal := stats.tradesTotal + 1 }
  | .pnl amount, stats => { stats with pnlToday := stats.pnlToday + amount }

-- ============================================================================
-- Recording, reading and midnight
-- ============================================================================

/-- Where a recording is suspended. -/
inductive Recording where
  /-- Before the statistics of the new day are stored. -/
  | rotating (entry : Entry) (stats : StatsDoc)
  /-- Before the entry is stored with them. -/
  | adding (entry : Entry) (stats : StatsDoc)
  deriving DecidableEq, Repr

/-- A bot's statistics in Redis; the recordings of a bot follow each other. -/
structure DailyStats where
  /-- `date.today()`. -/
  today : ℕ := 0
  doc : Option StatsDoc := none
  recording : Option Recording := none
  /-- What was recorded, with the dates. -/
  recorded : List (ℕ × Entry) := []
  deriving DecidableEq, Repr

inductive StatsInput where
  | midnight
  | record (entry : Entry)
  /-- The await of the recording is answered. -/
  | stored
  /-- The recording is broken off: a write fails, or the runner is restarted. -/
  | broken
  deriving DecidableEq, Repr

/-- A recording begins: the statistics are read and the date with them. -/
def DailyStats.record (s : DailyStats) (entry : Entry) : DailyStats :=
  let (stats, rotated) := maybeResetDaily s.today s.doc
  { s with recording := if rotated then some (.rotating entry stats) else some (.adding entry stats) }

def DailyStats.next (s : DailyStats) : StatsInput → DailyStats
  | .midnight => { s with today := s.today + 1 }
  | .record entry => if s.recording.isSome then s else s.record entry
  | .stored =>
    match s.recording with
    | none => s
    | some (.rotating entry stats) => { s with doc := some stats, recording := some (.adding entry stats) }
    | some (.adding entry stats) =>
      { s with
        doc := some (entry.add stats)
        recording := none
        recorded := s.recorded ++ [(stats.date, entry)] }
  | .broken => { s with recording := none }

/-- What `_can_trade` reads. -/
def DailyStats.riskReads (s : DailyStats) (killSwitch : KillSwitchRead) (openSources : List String) : RiskReads where
  killSwitch := killSwitch
  pnlToday := some (getStats s.today s.doc).pnlToday
  openSources := openSources

-- ============================================================================
-- What was recorded on a date
-- ============================================================================

/-- The profit recorded on a date. -/
def pnlOn (date : ℕ) (recorded : List (ℕ × Entry)) : ℚ := keyedSum Prod.fst (·.2.amount) date recorded

/-- How many trades were recorded on a date. -/
def tradesOn (date : ℕ) (recorded : List (ℕ × Entry)) : ℕ := recorded.countP fun r => r.1 = date ∧ r.2.trades = 1

/-- What the middleware reads is what was recorded today. -/
def DailyStats.Accounted (s : DailyStats) : Prop :=
  (∀ killSwitch openSources, (s.riskReads killSwitch openSources).pnlToday = some (pnlOn s.today s.recorded)) ∧
    (getStats s.today s.doc).tradesToday = tradesOn s.today s.recorded

/-- The statistics are of today, or there is nothing in them. -/
def DailyStats.Rotated (s : DailyStats) : Prop :=
  ∀ doc ∈ s.doc, doc.date = s.today ∨ (doc.pnlToday = 0 ∧ doc.tradesToday = 0)

/-- The statistics are those of their date, the last on which anything was recorded. -/
structure Agrees (recorded : List (ℕ × Entry)) (today : ℕ) (stats : StatsDoc) : Prop where
  pnl : stats.pnlToday = pnlOn stats.date recorded
  trades : stats.tradesToday = tradesOn stats.date recorded
  last : ∀ r ∈ recorded, r.1 ≤ stats.date
  past : stats.date ≤ today

/-- The statistics in Redis agree with what was recorded, and so do those of the recording
    that is under way. -/
structure DailyStats.Kept (s : DailyStats) : Prop where
  empty : s.doc = none → s.recorded = []
  doc : ∀ stats ∈ s.doc, Agrees s.recorded s.today stats
  rotating : ∀ entry stats, s.recording = some (.rotating entry stats) → Agrees s.recorded s.today stats
  adding : ∀ entry stats, s.recording = some (.adding entry stats) → Agrees s.recorded s.today stats

section Kept

variable {s : DailyStats} {recorded : List (ℕ × Entry)} {today date : ℕ} {stats : StatsDoc} {entry : Entry}

theorem pnlOn_append (date : ℕ) (recorded : List (ℕ × Entry)) (r : ℕ × Entry) :
    pnlOn date (recorded ++ [r]) = pnlOn date recorded + if r.1 = date then r.2.amount else 0 := by
  simp [pnlOn]

theorem tradesOn_append (date : ℕ) (recorded : List (ℕ × Entry)) (r : ℕ × Entry) :
    tradesOn date (recorded ++ [r]) = tradesOn date recorded + if r.1 = date then r.2.trades else 0 := by
  unfold tradesOn
  rw [List.countP_append, List.countP_cons, List.countP_nil, Nat.zero_add]
  obtain ⟨day, entry⟩ := r
  cases entry <;> simp [Entry.trades]

/-- After the last date nothing is recorded. -/
theorem nothing_on (hlast : ∀ r ∈ recorded, r.1 < date) : pnlOn date recorded = 0 ∧ tradesOn date recorded = 0 := by
  refine ⟨keyedSum_eq_zero fun r hr => (hlast r hr).ne, List.countP_eq_zero.mpr fun r hr => ?_⟩
  simp [(hlast r hr).ne]

theorem Agrees.later (h : Agrees recorded today stats) : Agrees recorded (today + 1) stats :=
  ⟨h.pnl, h.trades, h.last, h.past.trans (Nat.le_succ today)⟩

/-- A new day begins with nothing. -/
theorem Agrees.rotate (h : Agrees recorded today stats) (hold : stats.date ≠ today) (total : ℕ) :
    Agrees recorded today { tradesTotal := total, date := today } := by
  have hearlier : ∀ r ∈ recorded, r.1 < today := fun r hr => (h.last r hr).trans_lt (lt_of_le_of_ne h.past hold)
  obtain ⟨hpnl, htrades⟩ := nothing_on hearlier
  exact ⟨hpnl.symm, htrades.symm, fun r hr => (hearlier r hr).le, le_rfl⟩

theorem Agrees.fresh (today : ℕ) : Agrees [] today { date := today } := ⟨rfl, rfl, nofun, le_rfl⟩

/-- An entry is added to the statistics of its date. -/
theorem Agrees.add (h : Agrees recorded today stats) (entry : Entry) :
    Agrees (recorded ++ [(stats.date, entry)]) today (entry.add stats) := by
  have hdate : (entry.add stats).date = stats.date := by cases entry <;> rfl
  have hpnl : (entry.add stats).pnlToday = stats.pnlToday + entry.amount := by
    cases entry with
    | trade => exact (add_zero _).symm
    | pnl amount => rfl
  have htrades : (entry.add stats).tradesToday = stats.tradesToday + entry.trades := by cases entry <;> rfl
  refine ⟨?_, ?_, ?_, ?_⟩
  · rw [hpnl, hdate, pnlOn_append, if_pos rfl, h.pnl]
  · rw [htrades, hdate, tradesOn_append, if_pos rfl, h.trades]
  · rw [hdate]
    intro r hr
    rcases List.mem_append.mp hr with hin | hlast
    · exact h.last r hin
    · rw [List.mem_singleton.mp hlast]
  · rw [hdate]
    exact h.past

/-- What a recording starts from agrees. -/
theorem DailyStats.Kept.maybeResetDaily (h : s.Kept) : Agrees s.recorded s.today (maybeResetDaily s.today s.doc).1 := by
  have hread : Agrees s.recorded s.today (getStats s.today s.doc) := by
    cases hdoc : s.doc with
    | none =>
      rw [h.empty hdoc]
      exact .fresh s.today
    | some stats => exact h.doc stats hdoc
  unfold Risk.maybeResetDaily
  dsimp only
  split
  case isTrue => exact hread
  case isFalse hold => exact hread.rotate hold _

theorem DailyStats.Kept.next (h : s.Kept) (input : StatsInput) : (s.next input).Kept := by
  cases input with
  | midnight =>
    exact ⟨h.empty, fun stats hs => (h.doc stats hs).later, fun entry stats hr => (h.rotating entry stats hr).later,
      fun entry stats hr => (h.adding entry stats hr).later⟩
  | record entry =>
    unfold DailyStats.next
    dsimp only
    split
    case isTrue => exact h
    case isFalse =>
      have hstart := h.maybeResetDaily
      unfold DailyStats.record
      dsimp only
      split
      case isTrue =>
        refine ⟨h.empty, h.doc, fun e stats hr => ?_, nofun⟩
        obtain ⟨-, rfl⟩ := Recording.rotating.inj (Option.some.inj hr)
        exact hstart
      case isFalse =>
        refine ⟨h.empty, h.doc, nofun, fun e stats hr => ?_⟩
        obtain ⟨-, rfl⟩ := Recording.adding.inj (Option.some.inj hr)
        exact hstart
  | stored =>
    unfold DailyStats.next
    dsimp only
    split
    case h_1 => exact h
    case h_2 entry stats hrecording =>
      have hstats := h.rotating entry stats hrecording
      refine ⟨nofun, fun st hs => ?_, nofun, fun e st hr => ?_⟩
      · rw [← Option.some.inj hs]
        exact hstats
      · obtain ⟨-, rfl⟩ := Recording.adding.inj (Option.some.inj hr)
        exact hstats
    case h_3 entry stats hrecording =>
      refine ⟨nofun, fun st hs => ?_, nofun, nofun⟩
      rw [← Option.some.inj hs]
      exact (h.adding entry stats hrecording).add entry
  | broken => exact ⟨h.empty, h.doc, nofun, nofun⟩

theorem riskReads_pnl_iff {pnl : ℚ} :
    (∀ killSwitch openSources, (s.riskReads killSwitch openSources).pnlToday = some pnl) ↔
      (getStats s.today s.doc).pnlToday = pnl :=
  ⟨fun h => Option.some.inj (h .missing []), fun h _ _ => congrArg some h⟩

/-- What is read is accounted for exactly where the statistics are of the day. -/
theorem DailyStats.Kept.accounted (h : s.Kept) : s.Accounted ↔ s.Rotated := by
  unfold DailyStats.Accounted DailyStats.Rotated
  rw [riskReads_pnl_iff]
  unfold getStats
  cases hdoc : s.doc with
  | none =>
    rw [h.empty hdoc]
    exact iff_of_true ⟨rfl, rfl⟩ nofun
  | some doc =>
    have hagrees := h.doc doc hdoc
    simp only [Option.getD_some, Option.mem_def, Option.some.injEq, forall_eq']
    by_cases hdate : doc.date = s.today
    · rw [← hdate]
      exact iff_of_true ⟨hagrees.pnl, hagrees.trades⟩ (.inl rfl)
    · obtain ⟨hpnl, htrades⟩ := nothing_on fun r hr =>
        (hagrees.last r hr).trans_lt (lt_of_le_of_ne hagrees.past hdate)
      rw [hpnl, htrades, or_iff_right hdate]

end Kept

/-- Whenever trades and profits are recorded: what the middleware reads is what was recorded
    on the date of the read exactly where the stored statistics carry that date, or are
    empty. -/
theorem accounted_iff (today : ℕ) (inputs : List StatsInput) :
    (inputs.foldl DailyStats.next { today }).Accounted ↔ (inputs.foldl DailyStats.next { today }).Rotated := by
  have hkept : (inputs.foldl DailyStats.next { today }).Kept := by
    induction inputs using List.reverseRecOn with
    | nil => exact ⟨fun _ => rfl, nofun, nofun, nofun⟩
    | append_singleton inputs input ih =>
      rw [List.foldl_append]
      exact ih.next input
  exact hkept.accounted

/-- A loss of three hundred is recorded, and read after midnight. -/
theorem accounted_fails :
    ¬ ∀ (today : ℕ) (inputs : List StatsInput), (inputs.foldl DailyStats.next { today }).Accounted := by
  intro h
  have hread := (h 0 [.record (.pnl (-300)), .stored, .record .trade, .stored, .midnight]).2
  exact absurd hread (by decide +kernel)

end IbTrader.Bots.Risk
