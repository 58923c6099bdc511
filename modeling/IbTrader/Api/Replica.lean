/-
  IbTrader.Api.Replica

  A client of the WebSocket against one that is handed a fresh snapshot.

  The store handles the differences of the bots, of the status, and of the commands
  that change; those of the other channels, and of commands that come and go, it lets
  pass.  So a run of updates keeps a replica only where what the store lets pass shows
  nothing (`Carried`), and then it shows what a fresh snapshot would
  (`replica_converges`): each channel by itself (`Shows`), through what one difference
  makes of it (`shows_handleDiff`).
-/

import Mathlib.Logic.Function.Basic
import IbTrader.Frontend.Store
import IbTrader.Lib.IsoTime
import IbTrader.Lib.Run

namespace IbTrader.Api

open Lib Frontend

-- ============================================================================
-- The server and a client
-- ============================================================================

/-- The data of a channel is fetched at a time. -/
structure Update where
  channel : Channel
  rows : List Row
  now : ℚ
  deriving Repr

section World

variable {Digest : Type} [DecidableEq Digest]

/-- The state of the server for a client, what it has fetched last, and the client. -/
structure World (Digest : Type) where
  server : Channel → ChannelState Digest
  latest : Channel → List Row
  client : Store

variable (hashSnapshot : List Row → Digest) (js : Js)

/-- `subscribe`: the channels take their data, and the client a snapshot. -/
def subscribe (initial : Store) (data : Channel → List Row) (now : ℚ) : World Digest where
  server ch := (({} : ChannelState Digest).update hashSnapshot (data ch)).1
  latest := data
  client := handleSnapshot js now initial fun ch => some (data ch)

/-- `_emit_diffs`, for one channel: a difference is sent where there is one. -/
def emitDiff (w : World Digest) (u : Update) : World Digest :=
  let (state, diff) := (w.server u.channel).update hashSnapshot u.rows
  { server := Function.update w.server u.channel state
    latest := Function.update w.latest u.channel u.rows
    client := match diff with
      | none => w.client
      | some diff => handleDiff js u.now w.client u.channel diff }

/-- A run of updates. -/
def emitAll (w : World Digest) (updates : List Update) : World Digest :=
  updates.foldl (emitDiff hashSnapshot js) w

end World

-- ============================================================================
-- What the client shows
-- ============================================================================

/-- Two stores show the same rows. -/
structure SameRows (s fresh : Store) : Prop where
  tradeGroups : s.tradeGroups.Perm fresh.tradeGroups
  orders : s.orders.Perm fresh.orders
  alerts : s.alerts.Perm fresh.alerts
  commands : s.commands.Perm fresh.commands
  bots : s.bots.Perm fresh.bots
  global : s.global = fresh.global

/-- The times that the client would read from its clock are there, and so is the
    status. -/
def Dated : Channel → List Row → Prop
  | .orders, rows => ∀ r ∈ rows, truthy (r.get "placed_at")
  | .alerts, rows => ∀ r ∈ rows, truthy (r.get "created_at")
  | .commands, rows => ∀ r ∈ rows, truthy (r.get "submitted_at")
  | .bots, rows => ∀ r ∈ rows, truthy (r.get "last_heartbeat")
  | .status, rows => ∃ r, rows = [r]
  | .trades, _ => True
  | .heartbeats, _ => True

instance decidableDated : ∀ (ch : Channel) (rows : List Row), Decidable (Dated ch rows)
  | .orders, _ | .alerts, _ | .commands, _ | .bots, _ =>
    inferInstanceAs (Decidable (∀ r : Row, r ∈ _ → truthy (r.get _)))
  | .status, _ => decidable_of_iff _ List.length_eq_one_iff
  | .trades, _ | .heartbeats, _ => isTrue trivial

section Shows

variable (js : Js) (initial : Store)

/-- What is shown of a channel is what a snapshot at any time would show. -/
def Shows (s : Store) : Channel → List Row → Prop
  | .trades, rows => s.tradeGroups.Perm (rows.map mapTrade)
  | .orders, rows => ∀ now, s.orders.Perm (rows.map (mapOrder js now))
  | .alerts, rows => ∀ now, s.alerts.Perm
      (initial.alerts.filter (·.source = "engine") ++
        rows.map (mapAlert js now initial.dismissedAlertIds))
  | .commands, rows => ∀ now, s.commands.Perm (rows.map (mapCommand js now initial.commands))
  | .bots, rows => ∀ now, s.bots.Perm (rows.map (mapApiBotData js now))
  | .status, rows => s.global = applyStatusPayload initial.global rows
  | .heartbeats, _ => True

/-- The key of a row and some of its fields. -/
def Row.columns (row : Row) (names : List String) : String × List (Option Json) :=
  (row.id, names.map row.get)

/-- The fields that are shown of a trade. -/
def tradeColumns : List String :=
  ["serial_number", "symbol", "direction", "status", "realized_pnl", "total_commission", "opened_at",
    "closed_at", "entry_qty", "entry_price", "exit_qty", "exit_price", "order_type"]

/-- The fields that are shown of an order. -/
def orderColumns : List String :=
  ["symbol", "side", "qty_requested", "qty_filled", "order_type", "status", "placed_at",
    "price_placed", "avg_fill_price"]

/-- The fields that are shown of an alert. -/
def alertColumns : List String := ["severity", "trigger", "message", "created_at", "resolved_at"]

/-- What the store lets pass of a change shows nothing: of trades, orders and alerts
    everything, of commands the ones that come or go and all but their status, their
    output and a completion time that reads the same with and without its zone. -/
def Carried (now : ℚ) (old new : List Row) : Channel → Prop
  | .trades => (new.map (·.columns tradeColumns)).Perm (old.map (·.columns tradeColumns))
  | .orders => (new.map (·.columns orderColumns)).Perm (old.map (·.columns orderColumns))
  | .alerts => (new.map (·.columns alertColumns)).Perm (old.map (·.columns alertColumns))
  | .commands => (new.map (·.id)).Perm (old.map (·.id)) ∧
      ∀ r ∈ old, ∀ r' ∈ new, r'.id = r.id → r' ≠ r →
        r'.get "command_text" = r.get "command_text" ∧
        r'.get "submitted_at" = r.get "submitted_at" ∧
        (truthy (r'.get "completed_at") →
          newDate js (r'.get "completed_at") = parseUTC js now (r'.get "completed_at"))
  | .bots => True
  | .heartbeats => True
  | .status => True

end Shows

-- ============================================================================
-- The clock
-- ============================================================================

section Clock

variable {js : Js} {initial : Store} {row : Row}

theorem parseUTC_now {ts : Option Json} (h : truthy ts) (now now' : ℚ) :
    parseUTC js now ts = parseUTC js now' ts := by
  unfold parseUTC
  rw [h]
  rfl

theorem mapOrder_now (h : truthy (row.get "placed_at")) (now now' : ℚ) :
    mapOrder js now row = mapOrder js now' row := by
  unfold mapOrder
  rw [parseUTC_now h now now']

theorem mapAlert_now (h : truthy (row.get "created_at")) (ids : List String) (now now' : ℚ) :
    mapAlert js now ids row = mapAlert js now' ids row := by
  unfold mapAlert
  rw [parseUTC_now h now now']

theorem completedAt_now (js : Js) (ts : Option Json) (now now' : ℚ) :
    (if truthy ts then some (parseUTC js now ts) else none) =
      if truthy ts then some (parseUTC js now' ts) else none := by
  split
  case isTrue h => rw [parseUTC_now h now now']
  case isFalse => rfl

theorem mapCommand_now (h : truthy (row.get "submitted_at")) (commands : List CommandEntry)
    (now now' : ℚ) : mapCommand js now commands row = mapCommand js now' commands row := by
  unfold mapCommand
  rw [parseUTC_now h now now', completedAt_now js _ now now']

theorem mapApiBotData_now (h : truthy (row.get "last_heartbeat")) (now now' : ℚ) :
    mapApiBotData js now row = mapApiBotData js now' row := by
  unfold mapApiBotData
  simp only [h, if_true]

end Clock

-- ============================================================================
-- Columns
-- ============================================================================

section Columns

variable {js : Js} {now : ℚ} {row row' : Row} {names : List String}

theorem get_of_columns (h : row.columns names = row'.columns names) :
    ∀ name ∈ names, row.get name = row'.get name :=
  List.map_inj_left.mp (congrArg Prod.snd h)

theorem mapTrade_of_columns (h : row.columns tradeColumns = row'.columns tradeColumns) :
    mapTrade row = mapTrade row' := by
  have hid : row.id = row'.id := congrArg Prod.fst h
  have hget := get_of_columns h
  simp only [tradeColumns, List.forall_mem_cons] at hget
  simp only [mapTrade, hid, hget]

theorem mapOrder_of_columns (h : row.columns orderColumns = row'.columns orderColumns) :
    mapOrder js now row = mapOrder js now row' := by
  have hid : row.id = row'.id := congrArg Prod.fst h
  have hget := get_of_columns h
  simp only [orderColumns, List.forall_mem_cons] at hget
  simp only [mapOrder, hid, hget]

theorem mapAlert_of_columns (ids : List String) (h : row.columns alertColumns = row'.columns alertColumns) :
    mapAlert js now ids row = mapAlert js now ids row' := by
  have hid : row.id = row'.id := congrArg Prod.fst h
  have hget := get_of_columns h
  simp only [alertColumns, List.forall_mem_cons] at hget
  simp only [mapAlert, hid, hget]

/-- What some columns determine is the same where the columns are. -/
theorem perm_map_of_columns {β : Type} {f : Row → β} {old new : List Row}
    (hf : ∀ {r r' : Row}, r.columns names = r'.columns names → f r = f r')
    (h : (new.map (·.columns names)).Perm (old.map (·.columns names))) :
    (new.map f).Perm (old.map f) := by
  cases old with
  | nil =>
    have hnew : new = [] := List.map_eq_nil_iff.mp h.eq_nil
    rw [hnew]
  | cons r _ =>
    have hfactor : f.FactorsThrough (·.columns names) := fun _ _ => hf
    have hmap := h.map (Function.extend (·.columns names) f fun _ => f r)
    simpa only [List.map_map, hfactor.extend_comp] using hmap

end Columns

-- ============================================================================
-- One difference
-- ============================================================================

section Step

variable {js : Js} {initial s : Store} {old new : List Row} {now : ℚ} {ch : Channel}

/-- The same rows in another order. -/
theorem shows_of_perm (hperm : new.Perm old) (hdated : Dated ch old) (h : Shows js initial s ch old) :
    Shows js initial s ch new := by
  cases ch with
  | trades => exact h.trans (hperm.symm.map _)
  | orders => exact fun now => (h now).trans (hperm.symm.map _)
  | alerts => exact fun now => (h now).trans ((hperm.symm.map _).append_left _)
  | commands => exact fun now => (h now).trans (hperm.symm.map _)
  | bots => exact fun now => (h now).trans (hperm.symm.map _)
  | heartbeats => trivial
  | status =>
    obtain ⟨r, rfl⟩ := hdated
    rw [List.perm_singleton.mp hperm]
    exact h

/-- A difference touches its own channel. -/
theorem shows_handleDiff_ne {ch' : Channel} (hne : ch ≠ ch') (diff : Diff Row) {rows : List Row}
    (h : Shows js initial s ch rows) : Shows js initial (handleDiff js now s ch' diff) ch rows := by
  cases ch' with
  | commands => cases ch <;> first | exact h | exact absurd rfl hne
  | bots => cases ch <;> first | exact h | exact absurd rfl hne
  | status =>
    unfold handleDiff
    dsimp only
    split
    · cases ch <;> first | exact h | exact absurd rfl hne
    · exact h
  | trades => exact h
  | orders => exact h
  | alerts => exact h
  | heartbeats => exact h

/-- Bots: the difference is applied row by row. -/
theorem perm_patchBots (hold : (old.map (·.id)).Nodup) (hnew : (new.map (·.id)).Nodup)
    {bots : List Bot} (h : bots.Perm (old.map (mapApiBotData js now))) :
    (patchBots js now bots (computeDiff old new)).Perm (new.map (mapApiBotData js now)) := by
  have hid : ∀ r : Row, (mapApiBotData js now r).id = r.id := fun _ => rfl
  have hkeys : ∀ {rows : List Row}, (rows.map (·.id)).Nodup →
      ((rows.map (mapApiBotData js now)).map Bot.id).Nodup := by
    intro rows hrows
    rw [List.map_map]
    exact hrows
  let d : KeyedList Bot.id := ⟨bots, (h.map Bot.id).nodup_iff.mpr (hkeys hold)⟩
  have hpatch : patchBots js now bots (computeDiff old new) =
      (d.patch ((computeDiff old new).removed.map (·.id))
        (((computeDiff old new).added ++ (computeDiff old new).updated).map (mapApiBotData js now))).items := by
    have hnext := KeyedList.ofList_items (d.filter fun b => b.id ∉ (computeDiff old new).removed.map (·.id))
    unfold patchBots KeyedList.patch
    rw [← hnext]
    rfl
  have hcopy : ∀ k, d.get k = ((KeyedList.ofList Row.id old).get k).map (mapApiBotData js now) :=
    KeyedList.get_of_perm_map hid (by rw [KeyedList.items_ofList hold]; exact h)
  have hget : ∀ k, _ = ((KeyedList.ofList Row.id new).get k).map (mapApiBotData js now) :=
    KeyedList.get_patch_diff hid hcopy
  have htarget : ∀ k, (⟨_, hkeys hnew⟩ : KeyedList Bot.id).get k =
      ((KeyedList.ofList Row.id new).get k).map (mapApiBotData js now) :=
    KeyedList.get_of_perm_map hid (by rw [KeyedList.items_ofList hnew])
  rw [hpatch]
  exact KeyedList.perm_of_get_eq fun k => (hget k).trans (htarget k).symm

/-- The commands that change are found by their ids. -/
theorem foldl_updateCommand (rows : List Row) (hrows : (rows.map (·.id)).Nodup)
    (commands : List CommandEntry) :
    rows.foldl (updateCommand js) commands = commands.map fun c =>
      match rows.find? (·.id = c.id) with
      | some r => c.updatedWith js r
      | none => c := by
  induction rows generalizing commands with
  | nil => exact (List.map_id commands).symm
  | cons r rows ih =>
    rw [List.map_cons, List.nodup_cons] at hrows
    rw [List.foldl_cons, ih hrows.2, updateCommand, List.map_map]
    refine List.map_congr_left fun c _ => ?_
    rw [Function.comp_apply]
    by_cases hid : c.id = r.id
    · have hlater : rows.find? (·.id = r.id) = none := by
        refine List.find?_eq_none.mpr fun x hx => ?_
        have hne : x.id ≠ r.id := fun heq => hrows.1 (heq ▸ List.mem_map_of_mem hx)
        simpa using hne
      have hsame : (c.updatedWith js r).id = r.id := hid
      rw [if_pos hid, hsame, hlater, List.find?_cons_of_pos (by simp [hid])]
    · rw [if_neg hid, List.find?_cons_of_neg (by simpa using Ne.symm hid)]

/-- The row that replaces one of the same id. -/
def replacement (new : List Row) (r : Row) : Row := (new.find? (·.id = r.id)).getD r

theorem replacement_of_mem (hnew : (new.map (·.id)).Nodup) {r r' : Row} (hr' : r' ∈ new)
    (hid : r'.id = r.id) : replacement new r = r' := by
  have hfind : new.find? (·.id = r.id) = some r' := by
    have hget : (⟨new, hnew⟩ : KeyedList Row.id).get r.id = some r' :=
      KeyedList.get_eq_some.mpr ⟨hr', hid⟩
    exact hget
  rw [replacement, hfind, Option.getD_some]

/-- Rows with the same ids, each replaced. -/
theorem perm_map_replacement (hold : (old.map (·.id)).Nodup) (hnew : (new.map (·.id)).Nodup)
    (hids : (new.map (·.id)).Perm (old.map (·.id))) : (old.map (replacement new)).Perm new := by
  have hin : ∀ r ∈ old, ∃ r' ∈ new, r'.id = r.id := fun r hr =>
    List.mem_map.mp (hids.mem_iff.mpr (List.mem_map_of_mem hr))
  have hreplaced : (old.map (replacement new)).map (·.id) = old.map (·.id) := by
    rw [List.map_map]
    refine List.map_congr_left fun r hr => ?_
    obtain ⟨r', hr', hid⟩ := hin r hr
    rw [Function.comp_apply, replacement_of_mem hnew hr' hid, hid]
  have hnodup : (old.map (replacement new)).Nodup := List.Nodup.of_map (·.id) (by rw [hreplaced]; exact hold)
  refine (List.perm_ext_iff_of_nodup hnodup hnew.of_map).mpr fun r => ?_
  rw [List.mem_map]
  constructor
  · rintro ⟨r₀, hr₀, rfl⟩
    obtain ⟨r', hr', hid⟩ := hin r₀ hr₀
    rw [replacement_of_mem hnew hr' hid]
    exact hr'
  · intro hr
    obtain ⟨r₀, hr₀, hid⟩ := List.mem_map.mp (hids.mem_iff.mp (List.mem_map_of_mem hr))
    exact ⟨r₀, hr₀, replacement_of_mem hnew hr hid.symm⟩

/-- The rows that a difference updates. -/
theorem find?_updated (hold : (old.map (·.id)).Nodup) (hnew : (new.map (·.id)).Nodup) {r r' : Row}
    (hr : r ∈ old) (hr' : r' ∈ new) (hid : r'.id = r.id) :
    (computeDiff old new).updated.find? (·.id = r.id) = if r' = r then none else some r' := by
  have hgetNew : (KeyedList.ofList Row.id new).get r.id = some r' :=
    KeyedList.get_eq_some.mpr ⟨by rw [KeyedList.items_ofList hnew]; exact hr', hid⟩
  have hgetOld : (KeyedList.ofList Row.id old).get r.id = some r :=
    KeyedList.get_eq_some.mpr ⟨by rw [KeyedList.items_ofList hold]; exact hr, rfl⟩
  have hfilter := KeyedList.get_filter (KeyedList.ofList Row.id new) (fun x =>
    (KeyedList.ofList Row.id old).get x.id ≠ none ∧ (KeyedList.ofList Row.id old).get x.id ≠ some x) r.id
  refine hfilter.trans ?_
  rw [hgetNew, Option.filter_some, hid, hgetOld]
  by_cases hsame : r' = r
  · simp [hsame]
  · simp [hsame, Ne.symm hsame]

/-- Commands: those that change take their status, output and completion time. -/
theorem perm_foldl_updateCommand (hold : (old.map (·.id)).Nodup) (hnew : (new.map (·.id)).Nodup)
    (hcarried : Carried js now old new .commands) {commands : List CommandEntry}
    (h : commands.Perm (old.map (mapCommand js now initial.commands))) :
    ((computeDiff old new).updated.foldl (updateCommand js) commands).Perm
      (new.map (mapCommand js now initial.commands)) := by
  obtain ⟨hids, hfields⟩ := hcarried
  have hupdates : ((computeDiff old new).updated.map (·.id)).Nodup := (KeyedList.filter _ _).unique
  rw [foldl_updateCommand _ hupdates]
  refine (h.map _).trans ?_
  refine .trans ?_ ((perm_map_replacement hold hnew hids).map (mapCommand js now initial.commands))
  rw [List.map_map, List.map_map]
  refine .of_eq (List.map_congr_left fun r hr => ?_)
  rw [Function.comp_apply, Function.comp_apply]
  obtain ⟨r', hr', hid⟩ := List.mem_map.mp (hids.mem_iff.mpr (List.mem_map_of_mem hr))
  have hfind : (computeDiff old new).updated.find? (·.id = (mapCommand js now initial.commands r).id) =
      if r' = r then none else some r' := find?_updated hold hnew hr hr' hid
  rw [hfind, replacement_of_mem hnew hr' hid]
  by_cases hsame : r' = r
  · rw [if_pos hsame, hsame]
  · obtain ⟨htext, hstarted, hcompleted⟩ := hfields r hr r' hr' hid hsame
    rw [if_neg hsame]
    unfold CommandEntry.updatedWith mapCommand
    dsimp only
    rw [htext, hstarted, hid]
    congr 1
    split
    case isTrue hthere => rw [hcompleted hthere]
    case isFalse => rfl

/-- The status is one row: a difference has it where it changes. -/
theorem head?_diff_singleton (r r' : Row) :
    ((computeDiff [r] [r']).updated.head?).or (computeDiff [r] [r']).added.head? =
      if r = r' then none else some r' := by
  have hget : ∀ k, (KeyedList.ofList Row.id [r]).get k = if r.id = k then some r else none := by
    intro k
    by_cases hk : r.id = k <;> simp [KeyedList.get, KeyedList.items_ofList, hk]
  have hitems : (KeyedList.ofList Row.id [r']).items = [r'] := KeyedList.items_ofList (by simp)
  unfold computeDiff KeyedList.diff KeyedList.filter
  simp only [hitems, hget]
  by_cases hid : r.id = r'.id
  · by_cases hsame : r = r' <;> simp [hsame, hid]
  · have hne : r ≠ r' := fun heq => hid (congrArg Row.id heq)
    simp [hid, hne]

theorem applyStatusPayload_singleton (g g' : GlobalState) (r : Row) :
    applyStatusPayload g [r] = applyStatusPayload g' [r] := rfl

/-- One difference. -/
theorem shows_handleDiff (hold : (old.map (·.id)).Nodup) (hnew : (new.map (·.id)).Nodup)
    (hdatedOld : Dated ch old) (hdatedNew : Dated ch new)
    (hcarried : Carried js now old new ch) (h : Shows js initial s ch old) :
    Shows js initial (handleDiff js now s ch (computeDiff old new)) ch new := by
  cases ch with
  | trades => exact h.trans (perm_map_of_columns mapTrade_of_columns hcarried).symm
  | orders =>
    intro now'
    have hsame : ∀ rows : List Row, Dated .orders rows →
        rows.map (mapOrder js now') = rows.map (mapOrder js now) := fun rows hdated =>
      List.map_congr_left fun r hr => mapOrder_now (hdated r hr) now' now
    rw [hsame new hdatedNew]
    exact (h now).trans (perm_map_of_columns mapOrder_of_columns hcarried).symm
  | alerts =>
    intro now'
    have hsame : ∀ rows : List Row, Dated .alerts rows →
        rows.map (mapAlert js now' initial.dismissedAlertIds) =
          rows.map (mapAlert js now initial.dismissedAlertIds) := fun rows hdated =>
      List.map_congr_left fun r hr => mapAlert_now (hdated r hr) _ now' now
    rw [hsame new hdatedNew]
    have hshown : (new.map (mapAlert js now initial.dismissedAlertIds)).Perm
        (old.map (mapAlert js now initial.dismissedAlertIds)) :=
      perm_map_of_columns (mapAlert_of_columns initial.dismissedAlertIds) hcarried
    exact (h now).trans (hshown.symm.append_left _)
  | commands =>
    intro now'
    have hsame : new.map (mapCommand js now' initial.commands) =
        new.map (mapCommand js now initial.commands) :=
      List.map_congr_left fun r hr => mapCommand_now (hdatedNew r hr) _ now' now
    rw [hsame]
    exact perm_foldl_updateCommand hold hnew hcarried (h now)
  | bots =>
    intro now'
    have hsame : new.map (mapApiBotData js now') = new.map (mapApiBotData js now) :=
      List.map_congr_left fun r hr => mapApiBotData_now (hdatedNew r hr) now' now
    rw [hsame]
    exact perm_patchBots hold hnew (h now)
  | heartbeats => trivial
  | status =>
    obtain ⟨r, rfl⟩ := hdatedOld
    obtain ⟨r', rfl⟩ := hdatedNew
    have hrow := head?_diff_singleton r r'
    unfold handleDiff
    dsimp only
    rw [hrow]
    by_cases hsame : r = r'
    · rw [if_pos hsame, ← hsame]
      exact h
    · rw [if_neg hsame]
      exact applyStatusPayload_singleton s.global initial.global r'

/-- A snapshot. -/
theorem shows_handleSnapshot {data : Channel → List Row} (hdated : Dated ch (data ch)) :
    Shows js initial (handleSnapshot js now initial fun ch => some (data ch)) ch (data ch) := by
  cases ch with
  | trades => exact .refl _
  | orders => exact fun now' => .of_eq (List.map_congr_left fun r hr => mapOrder_now (hdated r hr) now now')
  | alerts =>
    intro now'
    have hsame : (data .alerts).map (mapAlert js now initial.dismissedAlertIds) =
        (data .alerts).map (mapAlert js now' initial.dismissedAlertIds) :=
      List.map_congr_left fun r hr => mapAlert_now (hdated r hr) _ now now'
    exact .of_eq (congrArg _ hsame)
  | commands =>
    intro now'
    have hsame : (data .commands).map (mapCommand js now initial.commands) =
        (data .commands).map (mapCommand js now' initial.commands) :=
      List.map_congr_left fun r hr => mapCommand_now (hdated r hr) _ now now'
    rw [← hsame]
    exact List.reverse_perm _
  | bots => exact fun now' => .of_eq (List.map_congr_left fun r hr => mapApiBotData_now (hdated r hr) now now')
  | heartbeats => trivial
  | status =>
    obtain ⟨r, hr⟩ := hdated
    have hstatus : (handleSnapshot js now initial fun ch => some (data ch)).global =
        applyStatusPayload (applyHeartbeats js now initial.global (data .heartbeats)) (data .status) := rfl
    rw [Shows, hstatus, hr]
    exact applyStatusPayload_singleton _ _ r

/-- Where each channel is shown, a fresh snapshot shows the same. -/
theorem sameRows_of_shows {data : Channel → List Row} (hdated : ∀ ch, Dated ch (data ch))
    (h : ∀ ch, Shows js initial s ch (data ch)) :
    SameRows s (handleSnapshot js now initial fun ch => some (data ch)) where
  tradeGroups := h .trades
  orders := h .orders now
  alerts := h .alerts now
  commands := (h .commands now).trans (List.reverse_perm _).symm
  bots := h .bots now
  global := by
    have hfresh : Shows js initial (handleSnapshot js now initial fun ch => some (data ch)) .status _ :=
      shows_handleSnapshot (hdated .status)
    exact (h .status).trans hfresh.symm

end Step

-- ============================================================================
-- Runs
-- ============================================================================

section Runs

variable {Digest : Type} [DecidableEq Digest] (hashSnapshot : List Row → Digest) (js : Js)

/-- An update has its keys and its times, its digest tells it from what it replaces,
    and what the store lets pass of it shows nothing. -/
structure Carries (w : World Digest) (u : Update) : Prop where
  keyed : (u.rows.map (·.id)).Nodup
  dated : Dated u.channel u.rows
  told : hashSnapshot u.rows = hashSnapshot (w.latest u.channel) → u.rows = w.latest u.channel
  carried : Carried js u.now (w.latest u.channel) u.rows u.channel

/-- The server holds what it has fetched last and the client shows it. -/
structure Synced (initial : Store) (w : World Digest) : Prop where
  server : ∀ ch, w.server ch = ⟨w.latest ch, some (hashSnapshot (w.latest ch))⟩
  keyed : ∀ ch, ((w.latest ch).map (·.id)).Nodup
  dated : ∀ ch, Dated ch (w.latest ch)
  shows : ∀ ch, Shows js initial w.client ch (w.latest ch)

variable {hashSnapshot js} {initial : Store} {w : World Digest}

theorem synced_subscribe {data : Channel → List Row} (hkeyed : ∀ ch, ((data ch).map (·.id)).Nodup)
    (hdated : ∀ ch, Dated ch (data ch)) (now : ℚ) :
    Synced hashSnapshot js initial (subscribe hashSnapshot js initial data now) where
  server ch := by
    unfold subscribe ChannelState.update
    simp
  keyed := hkeyed
  dated := hdated
  shows ch := shows_handleSnapshot (hdated ch)

/-- What an update of a channel sends. -/
theorem update_eq (rows data : List Row) :
    (⟨data, some (hashSnapshot data)⟩ : ChannelState Digest).update hashSnapshot rows =
      if hashSnapshot data = hashSnapshot rows then (⟨data, some (hashSnapshot data)⟩, none)
      else (⟨rows, some (hashSnapshot rows)⟩,
        if (computeDiff data rows).added = [] ∧ (computeDiff data rows).updated = [] ∧
          (computeDiff data rows).removed = [] then none else some (computeDiff data rows)) := by
  simp [ChannelState.update]

/-- Rows without a difference are the same in some order. -/
theorem perm_of_computeDiff_nil {old new : List Row} (hold : (old.map (·.id)).Nodup)
    (hnew : (new.map (·.id)).Nodup) (hadded : (computeDiff old new).added = [])
    (hupdated : (computeDiff old new).updated = []) (hremoved : (computeDiff old new).removed = []) :
    new.Perm old := by
  have hperm := KeyedList.perm_of_diff_nil hadded hupdated hremoved
  rwa [KeyedList.items_ofList hold, KeyedList.items_ofList hnew] at hperm

/-- One update. -/
theorem Synced.emitDiff (h : Synced hashSnapshot js initial w) {u : Update}
    (hu : Carries hashSnapshot js w u) :
    Synced hashSnapshot js initial (emitDiff hashSnapshot js w u) := by
  have hother : ∀ {ch}, ch ≠ u.channel → (Api.emitDiff hashSnapshot js w u).latest ch = w.latest ch :=
    fun hne => Function.update_of_ne hne _ _
  have hown : (Api.emitDiff hashSnapshot js w u).latest u.channel = u.rows := Function.update_self _ _ _
  constructor
  case server =>
    intro ch
    by_cases hch : ch = u.channel
    · subst hch
      have hstate : (Api.emitDiff hashSnapshot js w u).server u.channel =
          ((w.server u.channel).update hashSnapshot u.rows).1 := Function.update_self _ _ _
      rw [hown, hstate, h.server, update_eq]
      split
      case isTrue heq => rw [hu.told heq.symm]
      case isFalse => rfl
    · have hstate : (Api.emitDiff hashSnapshot js w u).server ch = w.server ch :=
        Function.update_of_ne hch _ _
      rw [hother hch, hstate, h.server]
  case keyed =>
    intro ch
    by_cases hch : ch = u.channel
    · rw [hch, hown]
      exact hu.keyed
    · rw [hother hch]
      exact h.keyed ch
  case dated =>
    intro ch
    by_cases hch : ch = u.channel
    · rw [hch, hown]
      exact hu.dated
    · rw [hother hch]
      exact h.dated ch
  case shows =>
    intro ch
    have hclient : (Api.emitDiff hashSnapshot js w u).client =
        match ((w.server u.channel).update hashSnapshot u.rows).2 with
        | none => w.client
        | some diff => handleDiff js u.now w.client u.channel diff := rfl
    rw [hclient, h.server, update_eq]
    by_cases hch : ch = u.channel
    · subst hch
      have hold := h.keyed u.channel
      have hshows := h.shows u.channel
      rw [hown]
      by_cases heq : hashSnapshot (w.latest u.channel) = hashSnapshot u.rows
      · rw [if_pos heq, hu.told heq.symm]
        exact hshows
      · rw [if_neg heq]
        dsimp only
        split_ifs with hnil
        · exact shows_of_perm (perm_of_computeDiff_nil hold hu.keyed hnil.1 hnil.2.1 hnil.2.2)
            (h.dated _) hshows
        · exact shows_handleDiff hold hu.keyed (h.dated _) hu.dated hu.carried hshows
    · rw [hother hch]
      split
      · exact h.shows ch
      · exact shows_handleDiff_ne hch _ (h.shows ch)

/-- A client that takes a snapshot and then every difference shows, after each of them,
    what a client shows that is handed a snapshot of the latest rows at that time. -/
theorem replica_converges (hashSnapshot : List Row → Digest) (js : Js) (initial : Store)
    (data : Channel → List Row) (now : ℚ) (updates : List Update)
    (hkeyed : ∀ ch, ((data ch).map (·.id)).Nodup) (hdated : ∀ ch, Dated ch (data ch))
    (hupdates : Along (Api.emitDiff hashSnapshot js) (Carries hashSnapshot js)
      (subscribe hashSnapshot js initial data now) updates) :
    ∀ sent, sent <+: updates → ∀ now',
      SameRows (emitAll hashSnapshot js (subscribe hashSnapshot js initial data now) sent).client
        (handleSnapshot js now' initial fun ch =>
          some ((emitAll hashSnapshot js (subscribe hashSnapshot js initial data now) sent).latest ch)) := by
  rintro sent ⟨later, rfl⟩ now'
  have hsent := ((Along.append sent later).mp hupdates).1
  have hsynced : Synced hashSnapshot js initial
      (emitAll hashSnapshot js (subscribe hashSnapshot js initial data now) sent) :=
    Along.invariant (fun _ _ h => h.emitDiff) sent (synced_subscribe hkeyed hdated now) hsent
  exact sameRows_of_shows hsynced.dated hsynced.shows

end Runs

-- ============================================================================
-- A run that converges and one that does not
-- ============================================================================

open Lib.IsoTime (daysInYears monthLengths isLeap)

/-- The number that digits write. -/
def ofDigits (cs : List Char) : Option ℕ :=
  cs.foldlM (fun n c => if c.isDigit then some (10 * n + (c.toNat - '0'.toNat)) else none) 0

/-- The milliseconds since 1970 of a time in UTC, to the second. -/
def utcMillis (s : String) : Option ℚ := do
  let field (at_ len : ℕ) := ofDigits ((s.toList.drop at_).take len)
  let year ← field 0 4
  let month ← field 5 2
  let day ← field 8 2
  let hour ← field 11 2
  let minute ← field 14 2
  let second ← field 17 2
  guard (s.toList.drop 19 = ['Z'])
  let months : ℕ := ((monthLengths (isLeap year)).take (month - 1)).foldl (· + ·) 0
  let days : ℤ := daysInYears (year - 1) + months + (day - 1) - daysInYears 1969
  return (days * 86400 + hour * 3600 + minute * 60 + second : ℤ) * 1000

/-- What JavaScript reads in values such as those below: whole numbers, and times in UTC. -/
def webJs : Js where
  number
    | some .null => some 0
    | some (.bool b) => some (if b then 1 else 0)
    | some (.num q) => some q
    | some (.str s) => (ofDigits s.toList).map (↑)
    | some (.nested _) | none => none
  parseFloat
    | some (.num q) => some q
    | some (.str s) => if s = "" then none else (ofDigits s.toList).map (↑)
    | some .null | some (.bool _) | some (.nested _) | none => none
  date := utcMillis
  parseTexts _ := []

example : utcMillis "2025-01-02T15:00:01Z" = some 1735830001000 := by decide +kernel

def statusRow (connection : String) : Row := ⟨"__status__", [("connection_status", .str connection)]⟩

def botRow (id status : String) : Row :=
  ⟨id, [("status", .str status), ("last_heartbeat", .str "2025-01-02T15:00:00Z")]⟩

def commandRow (status : String) (completedAt : Json) : Row :=
  ⟨"c1", [("command_text", .str "status"), ("status", .str status),
    ("submitted_at", .str "2025-01-02T15:00:00Z"), ("completed_at", completedAt)]⟩

/-- What the server has when the client subscribes. -/
def firstRows : Channel → List Row
  | .bots => [botRow "b1" "STOPPED", botRow "b2" "STOPPED"]
  | .commands => [commandRow "PENDING" .null]
  | .status => [statusRow "disconnected"]
  | _ => []

/-- A bot starts as another goes and a third comes, a command is done, and the
    connection is there. -/
theorem replica_converges_bots :
    SameRows (emitAll id webJs (subscribe id webJs {} firstRows 0)
        [⟨.bots, [botRow "b3" "STOPPED", botRow "b1" "RUNNING"], 1⟩,
          ⟨.commands, [commandRow "SUCCESS" (.str "2025-01-02T15:00:01Z")], 2⟩,
          ⟨.status, [statusRow "connected"], 3⟩]).client
      (handleSnapshot webJs 4 {} fun ch => some
        ((emitAll id webJs (subscribe id webJs {} firstRows 0)
          [⟨.bots, [botRow "b3" "STOPPED", botRow "b1" "RUNNING"], 1⟩,
            ⟨.commands, [commandRow "SUCCESS" (.str "2025-01-02T15:00:01Z")], 2⟩,
            ⟨.status, [statusRow "connected"], 3⟩]).latest ch)) := by
  refine replica_converges id webJs {} firstRows 0 _ ?_ ?_ ?_ _ (List.prefix_refl _) 4
  · intro ch
    cases ch <;> decide
  · intro ch
    cases ch <;> decide
  · refine ⟨⟨by decide, by decide, id, trivial⟩, ⟨by decide, by decide, id, ?_⟩,
      ⟨by decide, by decide, id, trivial⟩, trivial⟩
    exact ⟨by decide, by decide +kernel⟩

/-- A trade that comes after the snapshot is not shown. -/
theorem replica_converges_fails :
    ¬ ∀ (js : Js) (initial : Store) (data : Channel → List Row) (now : ℚ) (updates : List Update),
      (∀ ch, ((data ch).map (·.id)).Nodup) → (∀ u ∈ updates, (u.rows.map (·.id)).Nodup) →
      SameRows (emitAll id js (subscribe id js initial data now) updates).client
        (handleSnapshot js now initial fun ch =>
          some ((emitAll id js (subscribe id js initial data now) updates).latest ch)) := by
  intro h
  have hkeyed : ∀ ch, ((firstRows ch).map (·.id)).Nodup := by
    intro ch
    cases ch <;> decide
  have hsame := h webJs {} firstRows 0 [⟨.trades, [⟨"t1", [("symbol", .str "MGCQ6")]⟩], 1⟩]
    hkeyed (by decide)
  exact absurd hsame.tradeGroups.length_eq (by decide)

end IbTrader.Api
