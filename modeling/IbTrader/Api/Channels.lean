/-
  IbTrader.Api.Channels

  The state of a WebSocket channel and the differences it sends
  (`ib_trader/api/ws.py`).

  A row is a JSON object under the key of its channel, which every row is taken to
  have; its other fields are listed by name.  What `md5` makes of a list of rows is a
  parameter.  The channel `bot_events`, which the frontend does not subscribe to, is
  left out.
-/

import Mathlib.Algebra.Order.Ring.Rat
import IbTrader.Lib.KeyedDiff

namespace IbTrader.Api

open Lib

/-- A value of a row; an array or an object is its text. -/
inductive Json
  | null
  | bool (b : Bool)
  | num (q : ℚ)
  | str (s : String)
  | nested (text : String)
  deriving DecidableEq, Repr

/-- A row of a channel: the value of its key and the other fields. -/
structure Row where
  id : String
  fields : List (String × Json) := []
  deriving DecidableEq, Repr

/-- The value of a field; none where the row does not have it. -/
def Row.get (row : Row) (name : String) : Option Json :=
  (row.fields.find? (·.1 = name)).map Prod.snd

inductive Channel
  | trades
  | orders
  | alerts
  | commands
  | heartbeats
  | bots
  | status
  deriving DecidableEq, Repr

/-- `_compute_diff`. -/
def computeDiff (old new : List Row) : Diff Row :=
  (KeyedList.ofList Row.id old).diff (KeyedList.ofList Row.id new)

section Digest

variable {Digest : Type} [DecidableEq Digest]

/-- `_ChannelState`; before the first update there is no hash. -/
structure ChannelState (Digest : Type) where
  data : List Row := []
  hash : Option Digest := none

/-- `_ChannelState.update`. -/
def ChannelState.update (hashSnapshot : List Row → Digest) (c : ChannelState Digest)
    (newData : List Row) : ChannelState Digest × Option (Diff Row) :=
  let newHash := hashSnapshot newData
  if c.hash = some newHash then (c, none)
  else
    let diff := computeDiff c.data newData
    ({ data := newData, hash := some newHash },
      if diff.added = [] ∧ diff.updated = [] ∧ diff.removed = [] then none else some diff)

end Digest

end IbTrader.Api
