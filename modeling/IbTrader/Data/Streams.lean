/-
  IbTrader.Data.Streams

  The Redis streams and the reader of several of them (`ib_trader/redis/streams.py`).

  An entry is known by its number; of the ids that Redis gives out only the order is
  used.  `XADD` with an approximate `MAXLEN` keeps at least so many of the newest entries
  and drops what it likes of the others.  `XREAD BLOCK` takes `$` for the end of the
  stream at the time it is called.  How the values of an entry are written as JSON is left
  out.
-/

import IbTrader.Lib.EventLog
import IbTrader.Lib.KeyedList

namespace IbTrader.Data

open Lib Lib.Consumer

variable {α : Type} {maxlen : String → ℕ}

-- ============================================================================
-- Streams
-- ============================================================================

/-- All streams, each with the `maxlen` of its writers. -/
abbrev RedisStreams (α : Type) (maxlen : String → ℕ) := ∀ stream, EventLog α (maxlen stream)

-- ============================================================================
-- The reader
-- ============================================================================

/-- `StreamReader`: the last seen id of each stream. -/
structure StreamReader where
  streams : Dict String Cursor

/-- What happens to a reader, and to the streams meanwhile. -/
inductive ListenEvent (α : Type)
  | add (stream : String) (data : α) (trimmed : ℕ)
  | xread
  /-- `XREAD` returns with entries of these streams. -/
  | results (streams : List String)
  | timeout
  | error
  /-- The generator is asked for the next entry. -/
  | next

/-- `listen`: it reads again after a timeout, and ends with an error. -/
def StreamReader.effect (reader : StreamReader) : ListenEvent α → Event String α
  | .add stream data trimmed => .add stream data trimmed
  | .xread => .read
  | .results streams => .answer (streams.filter fun stream => (reader.streams.value stream).isSome) none
  | .timeout => .lapse
  | .error => .close
  | .next => .next

/-- The generator before it runs. -/
def StreamReader.start (reader : StreamReader) (redis : RedisStreams α maxlen) : World String α maxlen where
  logs := redis
  cursor := fun stream => (reader.streams.value stream).getD .end_
  phase := .idle
  handed := []

def StreamReader.listen (reader : StreamReader) (redis : RedisStreams α maxlen) (events : List (ListenEvent α)) :
    World String α maxlen := (reader.start redis).after (events.map reader.effect)

section Listen

variable (reader : StreamReader) (redis : RedisStreams α maxlen) {stream : String}

/-- The id after which the reader starts. -/
def StreamReader.startId (stream : String) : ℕ :=
  ((reader.streams.value stream).getD .end_).resolve (redis stream).length

theorem fresh_start (hstart : reader.startId redis stream ≤ (redis stream).length) :
    Fresh stream (reader.start redis) := ⟨rfl, rfl, hstart⟩

/-- What is yielded of a stream was added after the start, in this order and each entry
    once; with what the generator still has in hand and what it has not read it is all
    that was added exactly while the reader is not moved past an entry. -/
theorem listen_delivers (hstart : reader.startId redis stream ≤ (redis stream).length) (events : List (ListenEvent α)) :
    ((reader.listen redis events).taken stream).Sublist
        (((reader.listen redis events).logs stream).numbered.drop (reader.startId redis stream)) ∧
      ((∀ es, es <+: events.map reader.effect →
          Conserved stream (reader.startId redis stream) ((reader.start redis).after es)) ↔
        Along World.next (Unskipped stream) (reader.start redis) (events.map reader.effect)) := by
  have hfresh := fresh_start reader redis hstart
  have hposition : (reader.start redis).position stream = reader.startId redis stream := hfresh.position
  exact ⟨hposition ▸ taken_sublist hfresh _, hposition ▸ conserved_iff hfresh _⟩

/-- A reader of what is new. -/
def newOnly : StreamReader := ⟨(∅ : Dict String Cursor).put "quote:QQQ" .end_⟩

def noStreams : RedisStreams ℕ fun _ => 5000 := fun _ => .empty

/-- The first quote comes before the reader asks. -/
def twoQuotes : List (ListenEvent ℕ) :=
  [.add "quote:QQQ" 1 0, .xread, .add "quote:QQQ" 2 0, .results ["quote:QQQ"], .next]

theorem listen_delivers_two : ((newOnly.listen noStreams twoQuotes).taken "quote:QQQ").Sublist
        (((newOnly.listen noStreams twoQuotes).logs "quote:QQQ").numbered.drop (newOnly.startId noStreams "quote:QQQ")) ∧
      ((∀ es, es <+: twoQuotes.map newOnly.effect →
          Conserved "quote:QQQ" (newOnly.startId noStreams "quote:QQQ") ((newOnly.start noStreams).after es)) ↔
        Along World.next (Unskipped "quote:QQQ") (newOnly.start noStreams) (twoQuotes.map newOnly.effect)) :=
  listen_delivers newOnly noStreams (by decide) twoQuotes

example : (newOnly.listen noStreams twoQuotes).taken "quote:QQQ" = [(2, 2)] := by decide

end Listen

end IbTrader.Data
