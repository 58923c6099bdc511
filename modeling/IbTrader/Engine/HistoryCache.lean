/-
  IbTrader.Engine.HistoryCache

  The chart's history endpoint (`get_history`, `_spawn_history_refresh` and
  `_fetch_history_bars` in `ib_trader/engine/internal_api.py`).

  An entry is served while it is fresh, served and fetched again while it is stale, and
  fetched again before anything is served beyond that.  Whatever requests, answers and
  failures come together, a key is fetched by one task at a time, and after an answer not
  again for five minutes (`fetches_paced`); what a request gets are the bars that IB answered
  for its key, less than half an hour before, all of them but one that had not been over
  (`history_served`).

  How a symbol is qualified, a request that goes away while it waits, and what is logged
  are left out.
-/

import IbTrader.Lib.KeyedList
import IbTrader.Lib.Run
import Mathlib.Algebra.Order.Field.Rat
import Mathlib.Data.List.Chain
import Mathlib.Logic.Function.Basic
import Mathlib.Tactic.Linarith

namespace IbTrader.Engine

open Lib

-- ============================================================================
-- The bars
-- ============================================================================

/-- `cache_key`. -/
structure HistoryKey where
  conId : ℤ
  hours : ℤ
  barSize : String
  includePartial : Bool
  deriving DecidableEq, Repr

/-- A bar as IB answers it; a daily one has a date and no time. -/
structure HistoryBar where
  date : String
  timestamp : Option ℚ
  openPrice : ℚ
  high : ℚ
  low : ℚ
  close : ℚ
  volume : ℤ
  deriving DecidableEq, Repr

/-- `bar_seconds_map`. -/
def barSecondsMap : String → ℚ
  | "1 min" => 60
  | "3 mins" => 180
  | "5 mins" => 300
  | "15 mins" => 900
  | "30 mins" => 1800
  | "1 hour" => 3600
  | _ => 0

/-- A bar whose slot ends in the future is still being formed. -/
def HistoryBar.forming (barSize : String) (nowUtc : ℚ) (bar : HistoryBar) : Bool :=
  decide (0 < barSecondsMap barSize) && bar.timestamp.any fun ts => decide (nowUtc + 1 / 2 < ts + barSecondsMap barSize)

/-- The bars that `_fetch_history_bars` puts into the cache. -/
def closedBars (key : HistoryKey) (nowUtc : ℚ) (bars : List HistoryBar) : List HistoryBar :=
  bars.filter fun bar => !(!key.includePartial && bar.forming key.barSize nowUtc)

-- ============================================================================
-- The cache
-- ============================================================================

/-- `_HISTORY_TTL_SECONDS`. -/
def historyTtlSeconds : ℚ := 300

/-- `_HISTORY_STALE_FALLBACK_SECONDS`. -/
def historyStaleFallbackSeconds : ℚ := 1800

/-- What becomes of the fetches of one key. -/
inductive Fetch
  | asks (now : ℚ)
  | answered (fetchedAt nowUtc : ℚ) (bars : List HistoryBar)
  | failed
  deriving DecidableEq, Repr

/-- What a request has got. -/
structure Served where
  key : HistoryKey
  now : ℚ
  bars : List HistoryBar
  deriving DecidableEq, Repr

structure History where
  /-- `_HISTORY_CACHE`. -/
  cache : Dict HistoryKey (ℚ × List HistoryBar) := ∅
  /-- `_HISTORY_INFLIGHT`. -/
  inflight : HistoryKey → Option ℕ := fun _ => none
  /-- The tasks that are not done. -/
  task : ℕ → Option HistoryKey := fun _ => none
  spawned : ℕ := 0
  /-- The requests that wait for a task, and when they came. -/
  waiting : List (HistoryKey × ℚ) := []
  log : HistoryKey → List Fetch := fun _ => []
  served : List Served := []
  /-- The latest reading of `time.monotonic`. -/
  clock : ℚ := 0

namespace History

def note (s : History) (key : HistoryKey) (f : Fetch) : HistoryKey → List Fetch :=
  Function.update s.log key (s.log key ++ [f])

/-- `_spawn_history_refresh`. -/
def spawnHistoryRefresh (s : History) (key : HistoryKey) (now : ℚ) : History :=
  match (s.inflight key).bind s.task with
  | some _ => s
  | none =>
    { s with inflight := Function.update s.inflight key (some s.spawned),
             task := Function.update s.task s.spawned (some key), spawned := s.spawned + 1,
             log := s.note key (.asks now) }

def serve (s : History) (r : Served) : History := { s with served := s.served ++ [r] }

/-- The request waits for the task. -/
def wait (s : History) (key : HistoryKey) (now : ℚ) : History := { s with waiting := s.waiting ++ [(key, now)] }

/-- `get_history`, for a contract that is in the cache of contracts or is not. -/
def getHistory (s : History) (key : HistoryKey) (contract : Bool) (now : ℚ) : History :=
  match s.cache.value key with
  | some (fetchedAt, bars) =>
    if now - fetchedAt < historyTtlSeconds then s.serve ⟨key, now, bars⟩
    else if !contract then s
    else if now - fetchedAt < historyStaleFallbackSeconds then
      (s.spawnHistoryRefresh key now).serve ⟨key, now, bars⟩
    else (s.spawnHistoryRefresh key now).wait key now
  | none => if !contract then s else (s.spawnHistoryRefresh key now).wait key now

/-- Past the horizon an entry is dropped, where there are many. -/
def evict (cache : Dict HistoryKey (ℚ × List HistoryBar)) (fetchedAt : ℚ) : Dict HistoryKey (ℚ × List HistoryBar) :=
  if 512 < cache.items.length then cache.filter fun entry => !decide (historyStaleFallbackSeconds < fetchedAt - entry.2.1)
  else cache

/-- The task is done: `_HISTORY_INFLIGHT` forgets its key. -/
def finish (s : History) (t : ℕ) (key : HistoryKey) : History :=
  { s with inflight := Function.update s.inflight key none, task := Function.update s.task t none,
           waiting := s.waiting.filter fun w => w.1 ≠ key }

/-- IB answers a task (`_fetch_history_bars`), and those that wait get the bars. -/
def fetched (s : History) (t : ℕ) (bars : List HistoryBar) (nowUtc fetchedAt : ℚ) : History :=
  match s.task t with
  | none => s
  | some key =>
    let out := closedBars key nowUtc bars
    { s.finish t key with
      cache := evict (s.cache.put key (fetchedAt, out)) fetchedAt
      log := s.note key (.answered fetchedAt nowUtc bars)
      served := s.served ++ (s.waiting.filter fun w => w.1 = key).map fun w => ⟨key, w.2, out⟩ }

/-- IB fails it, and those that wait. -/
def fails (s : History) (t : ℕ) : History :=
  match s.task t with
  | none => s
  | some key => { s.finish t key with log := s.note key .failed }

end History

inductive HistoryEvent
  | request (key : HistoryKey) (contract : Bool) (now : ℚ)
  | fetched (t : ℕ) (bars : List HistoryBar) (nowUtc fetchedAt : ℚ)
  | fails (t : ℕ)
  deriving DecidableEq, Repr

def History.next (s : History) : HistoryEvent → History
  | .request key contract now => { s with clock := now }.getHistory key contract now
  | .fetched t bars nowUtc fetchedAt => { s with clock := fetchedAt }.fetched t bars nowUtc fetchedAt
  | .fails t => s.fails t

def History.after (events : List HistoryEvent) : History := events.foldl History.next {}

/-- `time.monotonic` does not run backwards. -/
def Monotonic (s : History) : HistoryEvent → Prop
  | .request _ _ now => s.clock ≤ now
  | .fetched _ _ _ fetchedAt => s.clock ≤ fetchedAt
  | .fails _ => True

instance decidableMonotonic (s : History) : ∀ e, Decidable (Monotonic s e)
  | .request _ _ now => inferInstanceAs (Decidable (s.clock ≤ now))
  | .fetched _ _ _ fetchedAt => inferInstanceAs (Decidable (s.clock ≤ fetchedAt))
  | .fails _ => isTrue trivial

-- ============================================================================
-- What holds throughout
-- ============================================================================

/-- What may follow in the log of a key: one fetch at a time, and after an answer none for
    as long as the entry is fresh. -/
def Follows : Fetch → Fetch → Prop
  | .asks _, .answered _ _ _ => True
  | .asks _, .failed => True
  | .answered fetchedAt _ _, .asks now => fetchedAt + historyTtlSeconds ≤ now
  | .failed, .asks _ => True
  | _, _ => False

/-- How long a bar of a size lasts, in seconds. -/
inductive Lasts : String → ℚ → Prop
  | oneMin : Lasts "1 min" 60
  | threeMins : Lasts "3 mins" (3 * 60)
  | fiveMins : Lasts "5 mins" (5 * 60)
  | fifteenMins : Lasts "15 mins" (15 * 60)
  | thirtyMins : Lasts "30 mins" (30 * 60)
  | oneHour : Lasts "1 hour" (60 * 60)

/-- What may be kept from a request: a bar that was not over (but for half a second) when
    IB answered, where the key does not ask for it. -/
def Unfinished (key : HistoryKey) (nowUtc : ℚ) (bar : HistoryBar) : Prop :=
  key.includePartial = false ∧ ∃ seconds start,
    Lasts key.barSize seconds ∧ bar.timestamp = some start ∧ nowUtc + 1 / 2 < start + seconds

/-- The bars of an answer, in order, without those that were not over. -/
structure Finished (key : HistoryKey) (nowUtc : ℚ) (answer bars : List HistoryBar) : Prop where
  sublist : bars.Sublist answer
  kept : ∀ bar, ¬ Unfinished key nowUtc bar → bars.count bar = answer.count bar
  ended : ∀ bar ∈ bars, ¬ Unfinished key nowUtc bar

/-- What a request is served: what IB answered for its key, not too long before. -/
def Honest (s : History) (r : Served) : Prop :=
  ∃ fetchedAt nowUtc answer, .answered fetchedAt nowUtc answer ∈ s.log r.key ∧
    r.now - fetchedAt < historyStaleFallbackSeconds ∧ Finished r.key nowUtc answer r.bars

namespace History

structure Sound (s : History) : Prop where
  fresh : ∀ t, s.spawned ≤ t → s.task t = none
  registered : ∀ t key, s.task t = some key ↔ s.inflight key = some t
  chain : ∀ key, (s.log key).IsChain Follows
  asking : ∀ key, s.inflight key ≠ none ↔ ∃ now, (s.log key).getLast? = some (.asks now)
  /-- The latest answer is in the cache, or too old for it. -/
  latest : ∀ key fetchedAt nowUtc bars, (s.log key).getLast? = some (.answered fetchedAt nowUtc bars) →
    (∃ out, s.cache.value key = some (fetchedAt, out)) ∨ fetchedAt + historyStaleFallbackSeconds < s.clock
  cached : ∀ key fetchedAt bars, s.cache.value key = some (fetchedAt, bars) →
    ∃ nowUtc answer, .answered fetchedAt nowUtc answer ∈ s.log key ∧ bars = closedBars key nowUtc answer
  waits : ∀ w ∈ s.waiting, w.2 ≤ s.clock
  served : ∀ r ∈ s.served, Honest s r

variable {s : History} {key : HistoryKey} {now : ℚ} {t : ℕ}

theorem Sound.tick (h : s.Sound) (hnow : s.clock ≤ now) : Sound { s with clock := now } where
  fresh := h.fresh
  registered := h.registered
  chain := h.chain
  asking := h.asking
  latest := fun k f u b hlast => (h.latest k f u b hlast).imp_right fun hold => hold.trans_le hnow
  cached := h.cached
  waits := fun w hw => (h.waits w hw).trans hnow
  served := h.served

theorem Sound.serve (h : s.Sound) {r : Served} (hr : Honest s r) : (s.serve r).Sound where
  fresh := h.fresh
  registered := h.registered
  chain := h.chain
  asking := h.asking
  latest := h.latest
  cached := h.cached
  waits := h.waits
  served := fun r' hr' => (List.mem_append.mp hr').elim (h.served r') fun hnew => List.mem_singleton.mp hnew ▸ hr

theorem Sound.wait (h : s.Sound) (hclock : s.clock = now) (key : HistoryKey) : (s.wait key now).Sound where
  fresh := h.fresh
  registered := h.registered
  chain := h.chain
  asking := h.asking
  latest := h.latest
  cached := h.cached
  waits := fun w hw => (List.mem_append.mp hw).elim (h.waits w) fun hnew =>
    (congrArg Prod.snd (List.mem_singleton.mp hnew)).le.trans hclock.ge
  served := h.served

/-- A longer log honours what was served. -/
theorem honest_note {s' : History} {r : Served} (h : Honest s r) {f : Fetch} (hlog : s'.log = s.note key f) :
    Honest s' r := by
  obtain ⟨fetchedAt, nowUtc, answer, hmem, hrest⟩ := h
  refine ⟨fetchedAt, nowUtc, answer, ?_, hrest⟩
  rw [hlog, History.note]
  by_cases hkey : r.key = key
  · rw [hkey, Function.update_self]
    exact List.mem_append_left _ (hkey ▸ hmem)
  · rwa [Function.update_of_ne hkey]

theorem mem_note {f g : Fetch} {key' : HistoryKey} :
    g ∈ s.note key f key' ↔ g ∈ s.log key' ∨ key' = key ∧ g = f := by
  unfold History.note
  by_cases hkey : key' = key
  · subst hkey
    simp
  · simp [hkey]

theorem note_self (s : History) (key : HistoryKey) (f : Fetch) : s.note key f key = s.log key ++ [f] :=
  Function.update_self _ _ _

theorem note_ne {key' : HistoryKey} (hkey : key' ≠ key) (f : Fetch) : s.note key f key' = s.log key' :=
  Function.update_of_ne hkey _ _

theorem chain_note (h : s.Sound) {f : Fetch} (hf : ∀ g, (s.log key).getLast? = some g → Follows g f)
    (key' : HistoryKey) : (s.note key f key').IsChain Follows := by
  by_cases hkey : key' = key
  · subst hkey
    rw [note_self, List.isChain_append]
    refine ⟨h.chain key', List.IsChain.singleton f, fun g hg f' hf' => ?_⟩
    obtain rfl : f = f' := by simpa using hf'
    exact hf g hg
  · rw [note_ne hkey]
    exact h.chain key'

/-- A live task is the one that is registered. -/
theorem inflight_none (h : s.Sound) (hnone : (s.inflight key).bind s.task = none) : s.inflight key = none := by
  cases hkey : s.inflight key with
  | none => rfl
  | some t =>
    rw [hkey, Option.bind_some, (h.registered t key).mpr hkey] at hnone
    cases hnone

theorem sound_spawn (h : s.Sound) (hdue : ∀ fetchedAt nowUtc bars,
    (s.log key).getLast? = some (.answered fetchedAt nowUtc bars) → fetchedAt + historyTtlSeconds ≤ now) :
    (s.spawnHistoryRefresh key now).Sound := by
  unfold spawnHistoryRefresh
  split
  case h_1 => exact h
  case h_2 hnone =>
    have hidle := inflight_none h hnone
    have hasks : ∀ g, (s.log key).getLast? = some g → Follows g (.asks now) := by
      intro g hg
      cases g with
      | asks asked => exact absurd hidle ((h.asking key).mpr ⟨asked, hg⟩)
      | answered fetchedAt nowUtc bars => exact hdue fetchedAt nowUtc bars hg
      | failed => exact trivial
    have hunregistered : ∀ key', s.inflight key' ≠ some s.spawned := fun key' hreg =>
      nomatch (h.fresh s.spawned le_rfl).symm.trans ((h.registered s.spawned key').mpr hreg)
    refine
      { fresh := fun t ht => ?_, registered := fun t key' => ?_, chain := chain_note h hasks, asking := fun key' => ?_,
        latest := fun key' f u b hlast => ?_, cached := fun key' f b hc => ?_,
        waits := h.waits, served := fun r hr => honest_note (h.served r hr) rfl }
    · exact (Function.update_of_ne (Nat.succ_le_iff.mp ht).ne' _ _).trans (h.fresh t (Nat.le_of_succ_le ht))
    · show Function.update s.task s.spawned (some key) t = some key' ↔
        Function.update s.inflight key (some s.spawned) key' = some t
      by_cases ht : t = s.spawned
      · subst ht
        rw [Function.update_self]
        by_cases hkey : key' = key
        · subst hkey
          simp
        · rw [Function.update_of_ne hkey]
          exact iff_of_false (fun heq => hkey (Option.some.inj heq).symm) (hunregistered key')
      · rw [Function.update_of_ne ht, h.registered]
        by_cases hkey : key' = key
        · subst hkey
          rw [Function.update_self, hidle]
          exact iff_of_false nofun fun heq => ht (Option.some.inj heq).symm
        · rw [Function.update_of_ne hkey]
    · show Function.update s.inflight key (some s.spawned) key' ≠ none ↔
        ∃ asked, (s.note key (.asks now) key').getLast? = some (.asks asked)
      by_cases hkey : key' = key
      · subst hkey
        rw [Function.update_self, note_self, List.getLast?_concat]
        exact iff_of_true nofun ⟨now, rfl⟩
      · rw [Function.update_of_ne hkey, note_ne hkey]
        exact h.asking key'
    · change (s.note key _ key').getLast? = _ at hlast
      by_cases hkey : key' = key
      · subst hkey
        rw [note_self, List.getLast?_concat] at hlast
        cases hlast
      · rw [note_ne hkey] at hlast
        exact h.latest key' f u b hlast
    · obtain ⟨u, answer, hu, hb⟩ := h.cached key' f b hc
      exact ⟨u, answer, mem_note.mpr (.inl hu), hb⟩

theorem clock_spawn (s : History) (key : HistoryKey) (now : ℚ) : (s.spawnHistoryRefresh key now).clock = s.clock := by
  unfold spawnHistoryRefresh
  split <;> rfl

theorem cache_spawn (s : History) (key : HistoryKey) (now : ℚ) : (s.spawnHistoryRefresh key now).cache = s.cache := by
  unfold spawnHistoryRefresh
  split <;> rfl

theorem barSecondsMap_of_lasts {barSize : String} {seconds : ℚ} (h : Lasts barSize seconds) :
    barSecondsMap barSize = seconds ∧ 0 < seconds := by
  cases h <;> exact ⟨by norm_num [barSecondsMap], by norm_num⟩

/-- The table has no other sizes. -/
theorem lasts_barSecondsMap {barSize : String} (h : 0 < barSecondsMap barSize) :
    Lasts barSize (barSecondsMap barSize) := by
  unfold barSecondsMap at h ⊢
  split at h
  · exact .oneMin
  · exact (by norm_num : (3 * 60 : ℚ) = 180) ▸ .threeMins
  · exact (by norm_num : (5 * 60 : ℚ) = 300) ▸ .fiveMins
  · exact (by norm_num : (15 * 60 : ℚ) = 900) ▸ .fifteenMins
  · exact (by norm_num : (30 * 60 : ℚ) = 1800) ▸ .thirtyMins
  · exact (by norm_num : (60 * 60 : ℚ) = 3600) ▸ .oneHour
  · exact absurd h (lt_irrefl 0)

/-- What the code drops is what was not over. -/
theorem unfinished_iff {nowUtc : ℚ} {bar : HistoryBar} :
    Unfinished key nowUtc bar ↔ (!key.includePartial && bar.forming key.barSize nowUtc) = true := by
  rw [Bool.and_eq_true, Bool.not_eq_true', HistoryBar.forming, Bool.and_eq_true, decide_eq_true_iff,
    Option.any_eq_true]
  refine and_congr_right fun _ => ⟨?_, ?_⟩
  · rintro ⟨seconds, start, hlasts, hstart, hlate⟩
    obtain ⟨hmap, hpos⟩ := barSecondsMap_of_lasts hlasts
    rw [hmap]
    exact ⟨hpos, start, hstart, decide_eq_true hlate⟩
  · rintro ⟨hpos, start, hstart, hlate⟩
    exact ⟨_, start, lasts_barSecondsMap hpos, hstart, of_decide_eq_true hlate⟩

theorem finished_closedBars (key : HistoryKey) (nowUtc : ℚ) (bars : List HistoryBar) :
    Finished key nowUtc bars (closedBars key nowUtc bars) where
  sublist := List.filter_sublist
  kept := fun bar hbar => by
    rw [unfinished_iff, Bool.not_eq_true] at hbar
    exact List.count_filter (by rw [hbar, Bool.not_false])
  ended := fun bar hbar => by
    have hkept := (List.mem_filter.mp hbar).2
    rw [Bool.not_eq_true'] at hkept
    rw [unfinished_iff, hkept]
    exact Bool.false_ne_true

/-- What is in the cache may be served while it is not too old. -/
theorem honest_cached (h : s.Sound) {fetchedAt : ℚ} {bars : List HistoryBar}
    (hcached : s.cache.value key = some (fetchedAt, bars)) (hage : now - fetchedAt < historyStaleFallbackSeconds) :
    Honest s ⟨key, now, bars⟩ := by
  obtain ⟨nowUtc, answer, hmem, rfl⟩ := h.cached key fetchedAt bars hcached
  exact ⟨fetchedAt, nowUtc, answer, hmem, hage, finished_closedBars key nowUtc answer⟩

theorem sound_getHistory (h : s.Sound) (hclock : s.clock = now) (contract : Bool) :
    (s.getHistory key contract now).Sound := by
  have httl : historyTtlSeconds = 300 := rfl
  have hhorizon : historyStaleFallbackSeconds = 1800 := rfl
  unfold getHistory
  split
  case h_1 fetchedAt bars hcached =>
    split
    case isTrue hfresh =>
      exact h.serve (honest_cached h hcached (hfresh.trans (by rw [httl, hhorizon]; norm_num)))
    case isFalse hstale =>
      have hdue : ∀ f u b, (s.log key).getLast? = some (.answered f u b) → f + historyTtlSeconds ≤ now := by
        intro f u b hlast
        rcases h.latest key f u b hlast with ⟨out, hout⟩ | hold
        · obtain ⟨rfl, -⟩ := Prod.mk.inj (Option.some.inj (hcached.symm.trans hout))
          linarith
        · rw [hclock] at hold
          linarith
      have hspawn := sound_spawn h hdue
      split
      case isTrue => exact h
      case isFalse =>
        split
        case isTrue hage => exact hspawn.serve (honest_cached hspawn (cache_spawn s key now ▸ hcached) hage)
        case isFalse => exact hspawn.wait ((clock_spawn s key now).trans hclock) key
  case h_2 hnone =>
    have hdue : ∀ f u b, (s.log key).getLast? = some (.answered f u b) → f + historyTtlSeconds ≤ now := by
      intro f u b hlast
      rcases h.latest key f u b hlast with ⟨out, hout⟩ | hold
      · exact nomatch hnone.symm.trans hout
      · rw [hclock] at hold
        linarith
    have hspawn := sound_spawn h hdue
    split
    case isTrue => exact h
    case isFalse => exact hspawn.wait ((clock_spawn s key now).trans hclock) key

theorem value_evict {cache : Dict HistoryKey (ℚ × List HistoryBar)} {fetchedAt : ℚ} {v : ℚ × List HistoryBar} :
    (evict cache fetchedAt).value key = some v → cache.value key = some v := by
  unfold evict
  split
  case isFalse => exact id
  case isTrue =>
    rw [Dict.value_eq_some, Dict.value_eq_some]
    exact List.mem_of_mem_filter

/-- What is not past the horizon stays. -/
theorem value_evict_of_recent {cache : Dict HistoryKey (ℚ × List HistoryBar)} {fetchedAt : ℚ}
    {v : ℚ × List HistoryBar} (hv : cache.value key = some v) (hage : fetchedAt ≤ v.1 + historyStaleFallbackSeconds) :
    (evict cache fetchedAt).value key = some v := by
  unfold evict
  split
  case isFalse => exact hv
  case isTrue =>
    rw [Dict.value_eq_some] at hv ⊢
    refine List.mem_filter.mpr ⟨hv, ?_⟩
    rw [Bool.not_eq_true', decide_eq_false_iff_not]
    linarith

/-- The end of a task leaves the others alone. -/
theorem registered_finish (h : s.Sound) (htask : s.task t = some key) (t' : ℕ) (key' : HistoryKey) :
    Function.update s.task t none t' = some key' ↔ Function.update s.inflight key none key' = some t' := by
  have hreg := (h.registered t key).mp htask
  by_cases ht : t' = t
  · subst ht
    rw [Function.update_self]
    by_cases hkey : key' = key
    · subst hkey
      rw [Function.update_self]
      exact iff_of_false nofun nofun
    · rw [Function.update_of_ne hkey]
      refine iff_of_false nofun fun hother => hkey ?_
      exact Option.some.inj (((h.registered t' key').mpr hother).symm.trans htask)
  · rw [Function.update_of_ne ht, h.registered]
    by_cases hkey : key' = key
    · subst hkey
      rw [Function.update_self, hreg]
      exact iff_of_false (fun heq => ht (Option.some.inj heq).symm) nofun
    · rw [Function.update_of_ne hkey]

theorem fresh_finish (h : s.Sound) (htask : s.task t = some key) (t' : ℕ) (ht' : s.spawned ≤ t') :
    Function.update s.task t none t' = none := by
  refine (Function.update_of_ne ?_ _ _).trans (h.fresh t' ht')
  rintro rfl
  exact nomatch (h.fresh t' ht').symm.trans htask

/-- A task asks as long as it runs, and what ends it is no asking. -/
theorem asking_finish (h : s.Sound) {f : Fetch} (hf : ∀ now, f ≠ .asks now) (key' : HistoryKey) :
    Function.update s.inflight key none key' ≠ none ↔ ∃ now, (s.note key f key').getLast? = some (.asks now) := by
  by_cases hkey : key' = key
  · subst hkey
    rw [Function.update_self, note_self, List.getLast?_concat]
    exact iff_of_false (absurd rfl) fun ⟨now, hnow⟩ => hf now (Option.some.inj hnow)
  · rw [Function.update_of_ne hkey, note_ne hkey]
    exact h.asking key'

theorem follows_asks (h : s.Sound) (htask : s.task t = some key) {f : Fetch} (hf : ∀ now, Follows (.asks now) f)
    (g : Fetch) (hg : (s.log key).getLast? = some g) : Follows g f := by
  obtain ⟨now, hnow⟩ := (h.asking key).mp (by rw [(h.registered t key).mp htask]; nofun)
  obtain rfl := Option.some.inj (hnow.symm.trans hg)
  exact hf now

theorem sound_fails (h : s.Sound) (t : ℕ) : (s.fails t).Sound := by
  unfold fails
  split
  case h_1 => exact h
  case h_2 key htask =>
    refine
      { fresh := fresh_finish h htask, registered := registered_finish h htask,
        chain := chain_note h (follows_asks h htask fun _ => trivial), asking := asking_finish h nofun,
        latest := fun key' f u b hlast => ?_, cached := fun key' f b hc => ?_,
        waits := fun w hw => h.waits w (List.mem_of_mem_filter hw), served := fun r hr => honest_note (h.served r hr) rfl }
    · change (s.note key _ key').getLast? = _ at hlast
      by_cases hkey : key' = key
      · subst hkey
        rw [note_self, List.getLast?_concat] at hlast
        cases hlast
      · rw [note_ne hkey] at hlast
        exact h.latest key' f u b hlast
    · obtain ⟨u, answer, hu, hb⟩ := h.cached key' f b hc
      exact ⟨u, answer, mem_note.mpr (.inl hu), hb⟩

theorem sound_fetched (h : s.Sound) {fetchedAt : ℚ} (hclock : s.clock = fetchedAt) (t : ℕ) (bars : List HistoryBar)
    (nowUtc : ℚ) : (s.fetched t bars nowUtc fetchedAt).Sound := by
  have hhorizon : (0 : ℚ) < historyStaleFallbackSeconds := by norm_num [historyStaleFallbackSeconds]
  unfold fetched
  split
  case h_1 => exact h
  case h_2 key htask =>
    have hanswer : Fetch.answered fetchedAt nowUtc bars ∈ s.note key (.answered fetchedAt nowUtc bars) key :=
      mem_note.mpr (.inr ⟨rfl, rfl⟩)
    refine
      { fresh := fresh_finish h htask, registered := registered_finish h htask,
        chain := chain_note h (follows_asks h htask fun _ => trivial), asking := asking_finish h nofun,
        latest := fun key' f u b hlast => ?_, cached := fun key' f b hc => ?_,
        waits := fun w hw => h.waits w (List.mem_of_mem_filter hw), served := fun r hr => ?_ }
    · change (s.note key _ key').getLast? = _ at hlast
      show (∃ out, (evict _ _).value key' = some (f, out)) ∨ f + _ < s.clock
      by_cases hkey : key' = key
      · subst hkey
        rw [note_self, List.getLast?_concat] at hlast
        cases hlast
        refine .inl ⟨_, value_evict_of_recent (Dict.value_put_self _ _ _) ?_⟩
        exact le_add_of_nonneg_right hhorizon.le
      · rw [note_ne hkey] at hlast
        rcases h.latest key' f u b hlast with ⟨out, hout⟩ | hold
        · rcases le_or_gt fetchedAt (f + historyStaleFallbackSeconds) with hrecent | hgone
          · exact .inl ⟨out, value_evict_of_recent ((Dict.value_put_ne hkey).trans hout) hrecent⟩
          · exact .inr (hclock ▸ hgone)
        · exact .inr hold
    · have hput := value_evict hc
      by_cases hkey : key' = key
      · subst hkey
        rw [Dict.value_put_self] at hput
        cases hput
        exact ⟨nowUtc, bars, hanswer, rfl⟩
      · rw [Dict.value_put_ne hkey] at hput
        obtain ⟨u, answer, hu, hb⟩ := h.cached key' f b hput
        exact ⟨u, answer, mem_note.mpr (.inl hu), hb⟩
    · rcases List.mem_append.mp hr with hold | hnew
      · exact honest_note (h.served r hold) rfl
      · obtain ⟨w, hw, rfl⟩ := List.mem_map.mp hnew
        obtain ⟨hw, hwkey⟩ := List.mem_filter.mp hw
        refine ⟨fetchedAt, nowUtc, bars, hanswer, ?_, finished_closedBars key nowUtc bars⟩
        have hcame := h.waits w hw
        show w.2 - fetchedAt < _
        linarith

theorem sound_next (h : s.Sound) (e : HistoryEvent) (he : Monotonic s e) : (s.next e).Sound := by
  cases e with
  | request key contract now => exact sound_getHistory (h.tick he) rfl contract
  | fetched t bars nowUtc fetchedAt => exact sound_fetched (h.tick he) rfl t bars nowUtc
  | fails t => exact sound_fails h t

theorem sound_start : Sound {} where
  fresh := fun _ _ => rfl
  registered := fun _ _ => iff_of_false nofun nofun
  chain := fun _ => .nil
  asking := fun _ => iff_of_false (absurd rfl) fun ⟨_, h⟩ => nomatch h
  latest := fun _ _ _ _ h => nomatch h
  cached := fun _ _ _ h => nomatch h
  waits := fun _ h => absurd h List.not_mem_nil
  served := fun _ h => absurd h List.not_mem_nil

theorem sound_after (events : List HistoryEvent) (hclock : Along next Monotonic {} events) : (after events).Sound :=
  Along.invariant (I := Sound) (fun _ e h he => sound_next h e he) events sound_start hclock

end History

-- ============================================================================
-- What IB is asked, and what a chart gets
-- ============================================================================

section History

/-- No two tasks fetch a key at a time, and once IB has answered it is not asked for that
    key again for five minutes. -/
theorem fetches_paced (events : List HistoryEvent) (hclock : Along History.next Monotonic {} events)
    (key : HistoryKey) :
    (∀ t t', (History.after events).task t = some key → (History.after events).task t' = some key → t = t') ∧
      ((History.after events).log key).IsChain Follows := by
  have hsound := History.sound_after events hclock
  refine ⟨fun t t' ht ht' => ?_, hsound.chain key⟩
  exact Option.some.inj (((hsound.registered t key).mp ht).symm.trans ((hsound.registered t' key).mp ht'))

/-- What a request is served, at once or when its task is done, are the bars that IB
    answered for its very key, less than half an hour before it came: all of them, but for
    those that were still being formed, and none of these unless the key asks for them. -/
theorem history_served (events : List HistoryEvent) (hclock : Along History.next Monotonic {} events) :
    ∀ r ∈ (History.after events).served, Honest (History.after events) r :=
  (History.sound_after events hclock).served

def closedMinutes : HistoryKey := ⟨1, 24, "1 min", false⟩

/-- Two panes wait for one fetch, which ends with a bar that is being formed; later one
    is served what is stale while it is fetched again, and that fails. -/
def twoPanes : List HistoryEvent :=
  [.request closedMinutes true 10, .request closedMinutes true 11,
    .fetched 0 [⟨"09:30", some 600, 1, 2, 1, 2, 5⟩, ⟨"09:31", some 660, 2, 2, 2, 2, 1⟩] 690 12,
    .request closedMinutes true 400, .fails 1, .request closedMinutes true 401]

theorem fetches_paced_panes : (∀ t t', (History.after twoPanes).task t = some closedMinutes →
      (History.after twoPanes).task t' = some closedMinutes → t = t') ∧
    ((History.after twoPanes).log closedMinutes).IsChain Follows :=
  fetches_paced twoPanes (by decide +kernel) closedMinutes

theorem history_served_panes : (History.after twoPanes).served.length = 4 ∧
    ∀ r ∈ (History.after twoPanes).served, Honest (History.after twoPanes) r :=
  ⟨by decide +kernel, history_served twoPanes (by decide +kernel)⟩

example : (History.after twoPanes).served.map (fun r => (r.now, r.bars.map HistoryBar.date)) =
    [(10, ["09:30"]), (11, ["09:30"]), (400, ["09:30"]), (401, ["09:30"])] := by decide +kernel

end History

end IbTrader.Engine
