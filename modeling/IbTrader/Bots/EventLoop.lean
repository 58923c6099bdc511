/-
  IbTrader.Bots.EventLoop

  The streams of a bot: what its warm-up and its event loop read of them
  (`_warmup_from_history`, `_read_new_bars` and `run_event_loop` in
  `ib_trader/bots/runtime.py`).

  The loop pins the cursors of the order and position streams before it reads, and goes on
  with the bars where the warm-up left off.  Nothing that is published after that is
  dispatched twice or out of order, and nothing is lost as long as no stream has more
  unread than its writer keeps.  What a dispatch does, and that an exception in it is
  caught, is left out: the cursor has moved by then.  A bar that does not parse is left
  out as well; the publishers write numbers.
-/

import IbTrader.Lib.EventLog

namespace IbTrader.Bots

open Lib Lib.Consumer

-- ============================================================================
-- The streams of a bot
-- ============================================================================

/-- `quote:{symbol}`, `bar:{symbol}:5s`, `order:updates` and `position:changes`. -/
inductive BotStream
  | quote
  | bar
  | order
  | position
  deriving DecidableEq, Repr

/-- The `maxlen` of their writers. -/
def maxlen : BotStream → ℕ
  | .quote => 50000
  | .bar => 5000
  | .order => 5000
  | .position => 1000

variable {α : Type}

abbrev BotStreams (α : Type) := ∀ s, EventLog α (maxlen s)

structure Published (α : Type) where
  stream : BotStream
  data : α
  /-- How many of the oldest entries go, as far as the newest `maxlen` are kept. -/
  trimmed : ℕ

def publishOne (redis : BotStreams α) (e : Published α) : BotStreams α :=
  Function.update redis e.stream ((redis e.stream).append e.data e.trimmed)

def publish (redis : BotStreams α) (entries : List (Published α)) : BotStreams α := entries.foldl publishOne redis

-- ============================================================================
-- The warm-up
-- ============================================================================

/-- The bar cursor of `_warmup_from_history`: the latest entry, or `"0"`. -/
def warmupCursor (redis : BotStreams α) (answered : Bool) : ℕ := if answered then (redis .bar).tail else 0

/-- `_read_new_bars`: the bars, and `_last_bar_stream_id`. -/
def readNewBars (redis : BotStreams α) (lastId count : ℕ) (answered : Bool) : List (α × ℕ) × ℕ :=
  let entries := if answered then (redis .bar).afterUpTo lastId (some count) else []
  (entries, (entries.getLast?.map Prod.snd).getD lastId)

structure Warmup (α : Type) where
  redis : BotStreams α
  snapshotAnswered : Bool
  /-- What is published while the engine is asked for the bars. -/
  during : List (Published α)
  count : ℕ
  readAnswered : Bool

def Warmup.cursor (warmup : Warmup α) : ℕ := warmupCursor warmup.redis warmup.snapshotAnswered

def Warmup.redisThen (warmup : Warmup α) : BotStreams α := publish warmup.redis warmup.during

/-- `_warmup_from_history`: the bars for the aggregator, and `_last_bar_stream_id`. -/
def warmupFromHistory (warmup : Warmup α) : List (α × ℕ) × ℕ :=
  readNewBars warmup.redisThen warmup.cursor warmup.count warmup.readAnswered

-- ============================================================================
-- The loop
-- ============================================================================

/-- `_snapshot_tail`: the latest entry, `"0-0"` of an empty stream, and `"$"` where Redis
    does not answer. -/
def snapshotTail {keep : ℕ} (stream : EventLog α keep) (answered : Bool) : Cursor :=
  if answered then .entry stream.tail else .end_

/-- What `run_event_loop` starts with. -/
structure LoopStart (α : Type) where
  redis : BotStreams α
  /-- `_last_bar_stream_id`. -/
  lastBarStreamId : Option ℕ
  orderAnswered : Bool
  /-- What is published between the two snapshots. -/
  between : List (Published α)
  positionAnswered : Bool

def LoopStart.redisThen (start : LoopStart α) : BotStreams α := publish start.redis start.between

def LoopStart.cursor (start : LoopStart α) : BotStream → Cursor
  | .quote => .end_
  | .bar => start.lastBarStreamId.elim .end_ .entry
  | .order => snapshotTail (start.redis .order) start.orderAnswered
  | .position => snapshotTail (start.redisThen .position) start.positionAnswered

def LoopStart.world (start : LoopStart α) : World BotStream α maxlen where
  logs := start.redisThen
  cursor := start.cursor
  phase := .idle
  handed := []

inductive LoopEvent (α : Type)
  | publish (e : Published α)
  | xread
  /-- `XREAD` returns with entries of these streams. -/
  | results (streams : List BotStream)
  | timeout
  /-- It raises: the loop sleeps and reads again. -/
  | error
  /-- The connection is gone, or the loop has been told to stop. -/
  | stop
  /-- The next entry is dispatched. -/
  | dispatch

def LoopEvent.effect : LoopEvent α → Event BotStream α
  | .publish e => .add e.stream e.data e.trimmed
  | .xread => .read
  | .results streams => .answer streams none
  | .timeout | .error => .lapse
  | .stop => .close
  | .dispatch => .next

/-- `run_event_loop`. -/
def runEventLoop (start : LoopStart α) (events : List (LoopEvent α)) : World BotStream α maxlen :=
  start.world.after (events.map LoopEvent.effect)

/-- What was dispatched, in the order in which it was. -/
def dispatched (w : World BotStream α maxlen) (s : BotStream) : List (α × ℕ) := ofLog s w.handed

/-- No more than the writer keeps is ever unread. -/
def KeepsUp (start : LoopStart α) (s : BotStream) (events : List (LoopEvent α)) : Prop :=
  Along World.next (Backlog s) start.world (events.map LoopEvent.effect)

instance (start : LoopStart α) (s : BotStream) (events : List (LoopEvent α)) : Decidable (KeepsUp start s events) :=
  inferInstanceAs (Decidable (Along _ _ _ _))

section Streams

variable {redis : BotStreams α} {s : BotStream}

theorem maxlen_pos (s : BotStream) : 0 < maxlen s := by cases s <;> decide

/-- A stream keeps its entries and their numbers. -/
theorem numbered_publish (redis : BotStreams α) (entries : List (Published α)) (s : BotStream) :
    (redis s).numbered <+: (publish redis entries s).numbered := by
  induction entries generalizing redis with
  | nil => exact List.prefix_refl _
  | cons e entries ih =>
    refine List.IsPrefix.trans ?_ (ih _)
    unfold publishOne
    by_cases hs : s = e.stream
    · subst hs
      rw [Function.update_self, EventLog.numbered_append]
      exact List.prefix_append _ _
    · rw [Function.update_of_ne hs]

theorem length_publish (redis : BotStreams α) (entries : List (Published α)) (s : BotStream) :
    (redis s).length ≤ (publish redis entries s).length := by
  have hle := (numbered_publish redis entries s).length_le
  rwa [EventLog.length_numbered, EventLog.length_numbered] at hle

end Streams

section Loop

variable {start : LoopStart α} {s : BotStream} {id : ℕ}

theorem fresh_loop (hcursor : start.cursor s = .entry id) (hid : id ≤ (start.redisThen s).length) :
    Fresh s start.world :=
  ⟨rfl, rfl, show (start.cursor s).resolve _ ≤ _ by rw [hcursor]; exact hid⟩

/-- From an entry on, everything is dispatched, in hand or unread. -/
theorem conserved_loop (hcursor : start.cursor s = .entry id) (hid : id ≤ (start.redisThen s).length)
    {events : List (LoopEvent α)} (hkeeps : KeepsUp start s events) :
    Conserved s id (runEventLoop start events) := by
  have hfresh := fresh_loop hcursor hid
  have hposition : start.world.position s = id := by
    rw [hfresh.position, show start.world.cursor s = .entry id from hcursor]
    rfl
  have hentry : start.world.cursor s ≠ .end_ := by
    rw [show start.world.cursor s = .entry id from hcursor]
    nofun
  exact hposition ▸ conserved_of_backlog hfresh hentry _ hkeeps

/-- How many entries the stream had when the loop pinned its cursor. -/
def LoopStart.pinned (start : LoopStart α) : BotStream → Option ℕ
  | .order => if start.orderAnswered then some (start.redis .order).length else none
  | .position => if start.positionAnswered then some (start.redisThen .position).length else none
  | .quote | .bar => none

theorem LoopStart.cursor_pinned (hpinned : start.pinned s = some id) :
    start.cursor s = .entry id ∧ id ≤ (start.redisThen s).length := by
  cases s with
  | quote => cases hpinned
  | bar => cases hpinned
  | order =>
    obtain ⟨hanswered, hid⟩ := Option.ite_none_right_eq_some.mp hpinned
    cases hid
    refine ⟨?_, length_publish _ _ _⟩
    show snapshotTail _ _ = _
    rw [snapshotTail, if_pos hanswered, EventLog.tail_eq_length _ (maxlen_pos _)]
  | position =>
    obtain ⟨hanswered, hid⟩ := Option.ite_none_right_eq_some.mp hpinned
    cases hid
    refine ⟨?_, le_rfl⟩
    show snapshotTail _ _ = _
    rw [snapshotTail, if_pos hanswered, EventLog.tail_eq_length _ (maxlen_pos _)]

/-- The order and position events published after the snapshot are dispatched in order,
    each once: what is dispatched, in hand and unread is all of them. -/
theorem events_dispatched_once (start : LoopStart α) (s : BotStream) (id : ℕ) (hpinned : start.pinned s = some id)
    (events : List (LoopEvent α)) (hkeeps : KeepsUp start s events) :
    dispatched (runEventLoop start events) s ++ (runEventLoop start events).phase.held s ++
      (runEventLoop start events).unread s = ((runEventLoop start events).logs s).numbered.drop id :=
  conserved_loop (LoopStart.cursor_pinned hpinned).1 (LoopStart.cursor_pinned hpinned).2 hkeeps

/-- A fill that is published while a quote is dispatched. -/
def fillMeanwhile : List (LoopEvent String) :=
  [.xread, .publish ⟨.quote, "quote", 0⟩, .results [.quote], .publish ⟨.order, "fill", 0⟩, .dispatch, .dispatch,
    .xread, .results [.order], .dispatch, .dispatch]

def emptyLoop : LoopStart String := ⟨fun _ => .empty, none, true, [], true⟩

theorem events_dispatched_once_meanwhile : dispatched (runEventLoop emptyLoop fillMeanwhile) .order ++
      (runEventLoop emptyLoop fillMeanwhile).phase.held .order ++ (runEventLoop emptyLoop fillMeanwhile).unread .order =
    ((runEventLoop emptyLoop fillMeanwhile).logs .order).numbered.drop 0 :=
  events_dispatched_once emptyLoop .order 0 rfl fillMeanwhile (by decide)

example : dispatched (runEventLoop emptyLoop fillMeanwhile) .order = [("fill", 1)] := by decide

end Loop

-- ============================================================================
-- From the warm-up to the loop
-- ============================================================================

section Warmup

/-- The warm-up reads bars, and the loop starts where it ended, some time later. -/
structure WarmStart (α : Type) where
  warmup : Warmup α
  before : List (Published α)
  orderAnswered : Bool
  between : List (Published α)
  positionAnswered : Bool

def WarmStart.loop (start : WarmStart α) : LoopStart α where
  redis := publish start.warmup.redisThen start.before
  lastBarStreamId := some (warmupFromHistory start.warmup).2
  orderAnswered := start.orderAnswered
  between := start.between
  positionAnswered := start.positionAnswered

theorem Warmup.cursor_le (warmup : Warmup α) : warmup.cursor ≤ (warmup.redisThen .bar).length := by
  refine le_trans ?_ (length_publish warmup.redis warmup.during .bar)
  unfold Warmup.cursor warmupCursor
  split
  · exact (EventLog.tail_eq_length _ (maxlen_pos _)).le
  · exact Nat.zero_le _

/-- What the warm-up reads, and what comes after it. -/
theorem Warmup.append (warmup : Warmup α)
    (hkeeps : (warmup.redisThen .bar).length ≤ warmup.cursor + maxlen .bar) :
    (warmupFromHistory warmup).1 ++ (warmup.redisThen .bar).numbered.drop (warmupFromHistory warmup).2 =
        (warmup.redisThen .bar).numbered.drop warmup.cursor ∧
      (warmupFromHistory warmup).2 ≤ (warmup.redisThen .bar).length := by
  unfold warmupFromHistory readNewBars
  cases warmup.readAnswered with
  | false => exact ⟨rfl, warmup.cursor_le⟩
  | true =>
    have hkept := (warmup.redisThen .bar).kept
    refine EventLog.afterUpTo_append _ warmup.cursor_le ?_ _
    unfold EventLog.length at hkeeps
    omega

/-- Every bar published after the warm-up's snapshot is read by the warm-up or dispatched by
    the loop, once and in order: with what is in hand and unread they are all of them. -/
theorem bars_consumed_once (start : WarmStart α)
    (hwarmup : (start.warmup.redisThen .bar).length ≤ start.warmup.cursor + maxlen .bar)
    (events : List (LoopEvent α)) (hkeeps : KeepsUp start.loop .bar events) :
    (warmupFromHistory start.warmup).1 ++ (dispatched (runEventLoop start.loop events) .bar ++
        (runEventLoop start.loop events).phase.held .bar ++ (runEventLoop start.loop events).unread .bar) =
      ((runEventLoop start.loop events).logs .bar).numbered.drop start.warmup.cursor := by
  obtain ⟨hread, hcursor⟩ := start.warmup.append hwarmup
  have hmore : (start.warmup.redisThen .bar).numbered <+: (start.loop.redisThen .bar).numbered :=
    (numbered_publish _ start.before _).trans (numbered_publish _ start.between _)
  have hbar : start.loop.cursor .bar = .entry (warmupFromHistory start.warmup).2 := rfl
  have hconserved := conserved_loop hbar
    (hcursor.trans ((length_publish _ start.before _).trans (length_publish _ start.between _))) hkeeps
  -- the bars of the warm-up are still the first ones after its cursor
  obtain ⟨more, hmore⟩ := hmore.trans (numbered_after (events.map LoopEvent.effect) start.loop.world .bar)
  change _ = ((runEventLoop start.loop events).logs .bar).numbered at hmore
  change dispatched _ _ ++ _ ++ _ = _ at hconserved
  rw [hconserved, ← hmore, List.drop_append_of_le_length (by rwa [EventLog.length_numbered]),
    List.drop_append_of_le_length (by rw [EventLog.length_numbered]; exact start.warmup.cursor_le), ← List.append_assoc,
    hread]

/-- One bar is there before, one comes while the engine is asked, and one in the loop. -/
def threeBars : WarmStart String where
  warmup := ⟨publish (fun _ => .empty) [⟨.bar, "old", 0⟩], true, [⟨.bar, "first", 0⟩], 2000, true⟩
  before := []
  orderAnswered := true
  between := []
  positionAnswered := true

def liveBar : List (LoopEvent String) := [.xread, .publish ⟨.bar, "second", 0⟩, .results [.bar], .dispatch]

theorem bars_consumed_once_live : (warmupFromHistory threeBars.warmup).1 ++
      (dispatched (runEventLoop threeBars.loop liveBar) .bar ++ (runEventLoop threeBars.loop liveBar).phase.held .bar ++
        (runEventLoop threeBars.loop liveBar).unread .bar) =
    ((runEventLoop threeBars.loop liveBar).logs .bar).numbered.drop threeBars.warmup.cursor :=
  bars_consumed_once threeBars (by decide) liveBar (by decide)

example : ((runEventLoop threeBars.loop liveBar).logs .bar).numbered.drop threeBars.warmup.cursor =
    [("first", 2), ("second", 3)] := by decide

end Warmup

end IbTrader.Bots
