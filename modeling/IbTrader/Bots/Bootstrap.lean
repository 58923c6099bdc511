/-
  IbTrader.Bots.Bootstrap

  The bots table is made to follow the definitions on disk (`ib_trader/bots/bootstrap.py`).

  A bootstrap reads the rows, deletes those without a definition if it is forced to, and
  then inserts or updates one row a definition, each in a transaction of its own.  The
  engine, the API and the runner may bootstrap at once: an insert that loses is taken for
  done, and after a commit of its own a process reads the rows anew.  However their
  transactions come, a process that is done has left every definition its row
  (`bootstraps_agree`).  A reload leaves the strategy, the broker, the reference and the
  symbol of a running bot alone, whatever the files say and also where it raises midway
  (`reloads_keep_running`).

  The texts of refusals, the counts of the report, timestamps, and a database that stays
  locked are left out.
-/

import IbTrader.Api.Channels
import Mathlib.Data.List.Nodup
import Mathlib.Logic.Function.Basic

namespace IbTrader.Bots.Bootstrap

open Api (Json)
open Lib

-- ============================================================================
-- Definitions and rows
-- ============================================================================

/-- A definition on disk, as far as its row shows it. -/
structure BotDefinition where
  id : String
  name : String
  strategy : String
  broker : String
  tickIntervalSeconds : ℤ
  config : Dict String Json

/-- A row of the table `bots`. -/
structure BotRow where
  id : String
  name : String
  strategy : String
  broker : String
  configJson : String
  tickIntervalSeconds : ℤ
  status : String
  deriving DecidableEq, Repr

/-- The module `json`. -/
structure Codec where
  /-- `json.dumps(config, sort_keys=True, default=str)`. -/
  dumps : Dict String Json → String
  /-- `json.loads`, none where it raises. -/
  loads : String → Option (Dict String Json)

/-- `config.get(key)`. -/
def configGet (config : Dict String Json) (key : String) : Json := (config.value key).getD .null

/-- A configuration is written as a text that reads as it was. -/
structure Codec.Reads (codec : Codec) (config : Dict String Json) : Prop where
  dumps_ne : codec.dumps config ≠ ""
  get_loads_dumps : ∀ key, (codec.loads (codec.dumps config)).map (configGet · key) = some (configGet config key)

/-- The rows, whose ids and names are unique. -/
structure BotTable where
  rows : KeyedList BotRow.id
  names : (rows.items.map BotRow.name).Nodup

namespace BotTable

def get (t : BotTable) (id : String) : Option BotRow := t.rows.get id

/-- A row in the place of the one with its id, or at the end; none where a name comes twice. -/
def put (t : BotTable) (row : BotRow) : Option BotTable :=
  if h : ((t.rows.set row).items.map BotRow.name).Nodup then some ⟨t.rows.set row, h⟩ else none

/-- An INSERT. -/
def insert (t : BotTable) (row : BotRow) : Option BotTable := if (t.get row.id).isSome then none else t.put row

/-- `BotRepository.delete`. -/
def delete (t : BotTable) (id : String) : BotTable where
  rows := t.rows.filter (·.id ≠ id)
  names := t.names.sublist (List.filter_sublist.map _)

end BotTable

section Fields

variable (codec : Codec)

/-- `row.config_json or "{}"`. -/
def configText (row : BotRow) : String := if row.configJson = "" then "\x7b\x7d" else row.configJson

/-- `_row_matches`. -/
def rowMatches (row : BotRow) (d : BotDefinition) : Bool :=
  row.name = d.name ∧ row.strategy = d.strategy ∧ row.broker = d.broker ∧
    row.tickIntervalSeconds = d.tickIntervalSeconds ∧ configText row = codec.dumps d.config

/-- `_immutable_fields_changed`. -/
def immutableFieldsChanged (row : BotRow) (d : BotDefinition) : List String :=
  let oldCfg := (codec.loads (configText row)).getD ∅
  (if row.strategy ≠ d.strategy then ["strategy"] else []) ++ (if row.broker ≠ d.broker then ["broker"] else []) ++
    ["ref_id", "symbol"].filter fun key => configGet oldCfg key ≠ configGet d.config key

/-- The row that `_insert_row` makes. -/
def newRow (d : BotDefinition) : BotRow where
  id := d.id
  name := d.name
  strategy := d.strategy
  broker := d.broker
  configJson := codec.dumps d.config
  tickIntervalSeconds := d.tickIntervalSeconds
  status := "STOPPED"

/-- What `_update_row` makes of a row: of its columns the UPDATE names those that differ
    from what the session holds. -/
def updatedRow (held row : BotRow) (d : BotDefinition) : BotRow :=
  { row with
    name := if held.name = d.name then row.name else d.name
    strategy := if held.strategy = d.strategy then row.strategy else d.strategy
    broker := if held.broker = d.broker then row.broker else d.broker
    configJson := if held.configJson = codec.dumps d.config then row.configJson else codec.dumps d.config
    tickIntervalSeconds :=
      if held.tickIntervalSeconds = d.tickIntervalSeconds then row.tickIntervalSeconds else d.tickIntervalSeconds }

end Fields

-- ============================================================================
-- A bootstrap
-- ============================================================================

/-- How a bootstrap is called. -/
structure Job where
  force : Bool := false
  /-- `running_bot_ids`. -/
  running : List String := []
  deriving DecidableEq, Repr

/-- What is done in one transaction. -/
inductive Work
  | remove (id : String)
  | reconcile (d : BotDefinition)

/-- The rows that were read, whether the session has expired them since, and what is to do. -/
structure Session where
  snapshot : List BotRow
  expired : Bool := false
  todo : List Work

/-- A row of the snapshot as the session sees it: after a commit it is read again. -/
def Session.view (s : Session) (t : BotTable) (row : BotRow) : Option BotRow :=
  if s.expired then t.get row.id else some row

section Bootstrap

variable (codec : Codec) (defs : List BotDefinition)

/-- The rows without a definition. -/
def foreign (rows : List BotRow) : List BotRow := rows.filter fun row => row.id ∉ defs.map BotDefinition.id

/-- What a bootstrap reads and sets out to do; none where it refuses. -/
def begin (job : Job) (t : BotTable) : Option Session :=
  if foreign defs t.rows.items ≠ [] ∧ job.force = false then none
  else some { snapshot := t.rows.items,
              todo := (foreign defs t.rows.items).map (fun row => .remove row.id) ++ defs.map .reconcile }

/-- One definition: the table, and whether there was a commit; none where it raises. -/
def reconcile (job : Job) (t : BotTable) (s : Session) (d : BotDefinition) : Option (BotTable × Bool) :=
  match s.snapshot.find? fun row => row.id = d.id with
  | none => some ((t.insert (newRow codec d)).getD t, true)
  | some row =>
    match s.view t row with
    | none => none
    | some existing =>
      if rowMatches codec existing d then some (t, false)
      else if d.id ∈ job.running ∧ immutableFieldsChanged codec existing d ≠ [] then none
      else ((t.get d.id).bind fun stored => t.put (updatedRow codec existing stored d)).map (·, true)

/-- One transaction. -/
def work (job : Job) (t : BotTable) (s : Session) : Work → Option (BotTable × Bool)
  | .remove id => some (t.delete id, (t.get id).isSome)
  | .reconcile d => reconcile codec job t s d

/-- What is to do, to its end or to what raises: the table, and whether it came to its end. -/
def workAll (job : Job) (snapshot : List BotRow) : BotTable → Bool → List Work → BotTable × Bool
  | t, _, [] => (t, true)
  | t, expired, w :: todo =>
    match work codec job t { snapshot, expired, todo } w with
    | none => (t, false)
    | some (t', committed) => workAll job snapshot t' (expired || committed) todo

/-- `bootstrap_bots_from_yaml`, undisturbed. -/
def bootstrapBotsFromYaml (job : Job) (t : BotTable) : BotTable × Bool :=
  match begin defs job t with
  | none => (t, false)
  | some s => workAll codec job s.snapshot t s.expired s.todo

-- ============================================================================
-- Several at once
-- ============================================================================

inductive Proc
  | starting
  | working (s : Session)
  | finished
  | raised

structure World where
  table : BotTable
  procs : ℕ → Proc

/-- A process goes on to its next transaction. -/
def World.step (jobs : ℕ → Job) (w : World) (p : ℕ) : World :=
  match w.procs p with
  | .starting =>
    match begin defs (jobs p) w.table with
    | none => { w with procs := Function.update w.procs p .raised }
    | some s => { w with procs := Function.update w.procs p (.working s) }
  | .working s =>
    match s.todo with
    | [] => { w with procs := Function.update w.procs p .finished }
    | item :: todo =>
      match work codec (jobs p) w.table s item with
      | none => { w with procs := Function.update w.procs p .raised }
      | some (table, committed) =>
        { table, procs := Function.update w.procs p (.working { s with expired := s.expired || committed, todo }) }
  | .finished | .raised => w

/-- The processes start, and go on in some order. -/
def bootstraps (jobs : ℕ → Job) (t : BotTable) (schedule : List ℕ) : World :=
  schedule.foldl (World.step codec defs jobs) { table := t, procs := fun _ => .starting }

end Bootstrap

-- ============================================================================
-- The table
-- ============================================================================

/-- No row is without a definition, and none has the name of a definition that is not its own. -/
def Compatible (defs : List BotDefinition) (t : BotTable) : Prop :=
  ∀ row ∈ t.rows.items, row.id ∈ defs.map BotDefinition.id ∧ ∀ d ∈ defs, d.name = row.name → d.id = row.id

section Table

variable {codec : Codec} {defs : List BotDefinition} {t t' : BotTable} {row : BotRow} {d : BotDefinition}

theorem get_put (h : t.put row = some t') (id : String) : t'.get id = if id = row.id then some row else t.get id := by
  unfold BotTable.put at h
  split at h
  case isFalse => cases h
  case isTrue =>
    cases h
    unfold BotTable.get
    split
    case isTrue hid => rw [hid, KeyedList.get_set_self]
    case isFalse hid => rw [KeyedList.get_set_ne hid]

theorem mem_put (h : t.put row = some t') {other : BotRow} :
    other ∈ t'.rows.items ↔ other = row ∨ other ∈ t.rows.items ∧ other.id ≠ row.id := by
  unfold BotTable.put at h
  split at h
  case isFalse => cases h
  case isTrue =>
    cases h
    exact KeyedList.mem_items_set

/-- A row whose name no other row has can be put. -/
theorem exists_put (h : ∀ other ∈ t.rows.items, other.name = row.name → other.id = row.id) : ∃ t', t.put row = some t' := by
  have hnodup : (t.rows.set row).items.Nodup := List.Nodup.of_map _ (t.rows.set row).unique
  have hnames : ((t.rows.set row).items.map BotRow.name).Nodup := by
    refine List.Nodup.map_on (fun x hx y hy hxy => ?_) hnodup
    rcases KeyedList.mem_items_set.mp hx with rfl | ⟨hxold, hxid⟩
    · rcases KeyedList.mem_items_set.mp hy with rfl | ⟨hyold, hyid⟩
      · rfl
      · exact absurd (h y hyold hxy.symm) hyid
    · rcases KeyedList.mem_items_set.mp hy with rfl | ⟨hyold, -⟩
      · exact absurd (h x hxold hxy) hxid
      · exact List.inj_on_of_nodup_map t.names hxold hyold hxy
  exact ⟨⟨t.rows.set row, hnames⟩, dif_pos hnames⟩

theorem get_delete (t : BotTable) (id id' : String) : (t.delete id).get id' = (t.get id').filter fun row => row.id ≠ id :=
  KeyedList.get_filter _ _ _

end Table

-- ============================================================================
-- A running bot
-- ============================================================================

section Running

variable {codec : Codec} {job : Job} {t : BotTable} {id : String}

/-- What must not change under a running bot. -/
def immutables (codec : Codec) (row : BotRow) : String × String × Json × Json :=
  (row.strategy, row.broker, configGet ((codec.loads (configText row)).getD ∅) "ref_id",
    configGet ((codec.loads (configText row)).getD ∅) "symbol")

theorem configGet_dumps {config : Dict String Json} (hconfig : codec.Reads config) (key : String) {row : BotRow}
    (hrow : row.configJson = codec.dumps config) :
    configGet ((codec.loads (configText row)).getD ∅) key = configGet config key := by
  have hread := hconfig.get_loads_dumps key
  rw [configText, hrow, if_neg hconfig.dumps_ne]
  obtain ⟨read, hloads, hkey⟩ := Option.map_eq_some_iff.mp hread
  rw [hloads, Option.getD_some, hkey]

/-- An update that the check lets through leaves them as they are. -/
theorem immutables_updatedRow {row : BotRow} {d : BotDefinition} (hreads : codec.Reads d.config)
    (h : immutableFieldsChanged codec row d = []) : immutables codec (updatedRow codec row row d) = immutables codec row := by
  unfold immutableFieldsChanged at h
  simp only [List.append_eq_nil_iff, List.filter_eq_nil_iff, List.mem_cons, List.not_mem_nil, or_false, forall_eq_or_imp,
    forall_eq, decide_eq_true_eq, not_not, ite_eq_right_iff, reduceCtorEq, imp_false] at h
  obtain ⟨⟨hstrategy, hbroker⟩, hrefId, hsymbol⟩ := h
  have hconfig : (updatedRow codec row row d).configJson = codec.dumps d.config := by
    unfold updatedRow
    dsimp only
    split
    case isTrue heq => exact heq
    case isFalse => rfl
  unfold immutables
  rw [configGet_dumps hreads "ref_id" hconfig, configGet_dumps hreads "symbol" hconfig, ← hrefId, ← hsymbol]
  unfold updatedRow
  simp only [hstrategy, hbroker, if_true]

/-- The row is there, with the status and the fields it had. -/
def Keeps (codec : Codec) (row : BotRow) (id : String) (t : BotTable) : Prop :=
  ∃ now, t.get id = some now ∧ now.status = row.status ∧ immutables codec now = immutables codec row

/-- The bot is not removed, and a configuration reads as it is written. -/
def Work.Spares (codec : Codec) (id : String) : Work → Prop
  | .remove gone => gone ≠ id
  | .reconcile d => codec.Reads d.config

/-- What a session holds of a row that nobody else writes is what is stored. -/
theorem view_eq {s : Session} (hcurrent : s.expired = false → s.snapshot = t.rows.items) {id : String} {row held : BotRow}
    (hfind : (s.snapshot.find? fun row => row.id = id) = some row) (hview : s.view t row = some held) :
    t.get id = some held := by
  have hid : row.id = id := by simpa using List.find?_some hfind
  unfold Session.view at hview
  split at hview
  case isTrue => rw [← hid, hview]
  case isFalse hexpired =>
    rw [hcurrent (by simpa using hexpired)] at hfind
    cases hview
    exact hfind

theorem keeps_work {row : BotRow} {s : Session} {item : Work} {result : BotTable × Bool}
    (hcurrent : s.expired = false → s.snapshot = t.rows.items) (hrunning : id ∈ job.running)
    (hitem : item.Spares codec id) (h : Keeps codec row id t)
    (hwork : work codec job t s item = some result) : Keeps codec row id result.1 := by
  obtain ⟨now, hget, hstatus, himmutables⟩ := h
  cases item with
  | remove gone =>
    cases hwork
    refine ⟨now, ?_, hstatus, himmutables⟩
    have hid := (KeyedList.get_eq_some.mp hget).2
    rw [get_delete, hget, Option.filter_some, if_pos]
    simpa [hid] using Ne.symm hitem
  | reconcile d =>
    change reconcile codec job t s d = some result at hwork
    unfold reconcile at hwork
    split at hwork
    case h_1 =>
      cases hwork
      refine ⟨now, ?_, hstatus, himmutables⟩
      cases hinsert : t.insert (newRow codec d) with
      | none => exact hget
      | some t' =>
        unfold BotTable.insert at hinsert
        split at hinsert
        case isTrue => cases hinsert
        case isFalse hnew =>
          have hne : id ≠ d.id := by
            rintro rfl
            exact hnew (by rw [show (newRow codec d).id = d.id from rfl, hget]; rfl)
          rw [Option.getD_some, get_put hinsert]
          exact (if_neg hne).trans hget
    case h_2 found hfind =>
      split at hwork
      case h_1 => cases hwork
      case h_2 held hview =>
        have hheld := view_eq hcurrent hfind hview
        split at hwork
        case isTrue =>
          cases hwork
          exact ⟨now, hget, hstatus, himmutables⟩
        case isFalse =>
          split at hwork
          case isTrue => cases hwork
          case isFalse hallowed =>
            obtain ⟨t', hput, rfl⟩ := Option.map_eq_some_iff.mp hwork
            rw [hheld, Option.bind_some] at hput
            by_cases hid : id = d.id
            · subst hid
              rw [hget] at hheld
              obtain rfl := Option.some.inj hheld
              have hnone : immutableFieldsChanged codec now d = [] := by
                by_contra hchanged
                exact hallowed ⟨hrunning, hchanged⟩
              have hrow : (updatedRow codec now now d).id = d.id := (KeyedList.get_eq_some.mp hget).2
              refine ⟨updatedRow codec now now d, ?_, hstatus, (immutables_updatedRow hitem hnone).trans himmutables⟩
              rw [get_put hput, hrow, if_pos rfl]
            · have hrow : (updatedRow codec held held d).id = d.id := (KeyedList.get_eq_some.mp hheld).2
              exact ⟨now, by rw [get_put hput, hrow, if_neg hid, hget], hstatus, himmutables⟩

/-- A step that commits nothing leaves the table. -/
theorem work_quiet {s : Session} {item : Work} {t' : BotTable} (hwork : work codec job t s item = some (t', false)) :
    t'.rows.items = t.rows.items := by
  cases item with
  | remove gone =>
    cases hget : t.get gone with
    | some row => simp [work, hget] at hwork
    | none =>
      simp only [work, hget, Option.isSome_none, Option.some.injEq, Prod.mk.injEq, and_true] at hwork
      subst hwork
      refine List.filter_eq_self.mpr fun row hrow => decide_eq_true fun hid => ?_
      exact KeyedList.get_eq_none.mp hget (hid ▸ List.mem_map_of_mem hrow)
  | reconcile d =>
    change reconcile codec job t s d = some (t', false) at hwork
    unfold reconcile at hwork
    split at hwork
    case h_1 => simp at hwork
    case h_2 =>
      split at hwork
      case h_1 => cases hwork
      case h_2 =>
        split at hwork
        case isTrue =>
          cases hwork
          rfl
        case isFalse =>
          split at hwork
          case isTrue => cases hwork
          case isFalse =>
            obtain ⟨_, -, hpair⟩ := Option.map_eq_some_iff.mp hwork
            cases hpair

theorem keeps_workAll {row : BotRow} (hrunning : id ∈ job.running) (snapshot : List BotRow)
    (todo : List Work) (htodo : ∀ item ∈ todo, item.Spares codec id) (expired : Bool)
    (hcurrent : expired = false → snapshot = t.rows.items) (h : Keeps codec row id t) :
    Keeps codec row id (workAll codec job snapshot t expired todo).1 := by
  induction todo generalizing t expired with
  | nil => exact h
  | cons item todo ih =>
    unfold workAll
    split
    case h_1 => exact h
    case h_2 t' committed hwork =>
      obtain ⟨hitem, hrest⟩ := List.forall_mem_cons.mp htodo
      refine ih hrest _ (fun hquiet => ?_) ?_
      · obtain ⟨hexpired, rfl⟩ := Bool.or_eq_false_iff.mp hquiet
        rw [hcurrent hexpired, work_quiet hwork]
      · exact keeps_work hcurrent hrunning hitem h hwork

/-- However often the definitions are reloaded, and whatever they say: a bot that is running
    each time, and has a definition where the reload is forced, keeps its row, with its
    status, its strategy, its broker, its reference and its symbol. -/
theorem reloads_keep_running (codec : Codec) (reloads : List (List BotDefinition × Job)) (t : BotTable)
    (id : String) (row : BotRow) (hrow : t.get id = some row)
    (hreads : ∀ reload ∈ reloads, ∀ d ∈ reload.1, codec.Reads d.config)
    (hrunning : ∀ reload ∈ reloads, id ∈ reload.2.running)
    (hdefined : ∀ reload ∈ reloads, reload.2.force = false ∨ id ∈ reload.1.map BotDefinition.id) :
    Keeps codec row id (reloads.foldl (fun t reload => (bootstrapBotsFromYaml codec reload.1 reload.2 t).1) t) := by
  suffices hrun : ∀ t, Keeps codec row id t →
      Keeps codec row id (reloads.foldl (fun t reload => (bootstrapBotsFromYaml codec reload.1 reload.2 t).1) t) from
    hrun t ⟨row, hrow, rfl, rfl⟩
  induction reloads with
  | nil => exact fun t h => h
  | cons reload reloads ih =>
    obtain ⟨hread, hreads⟩ := List.forall_mem_cons.mp hreads
    obtain ⟨hrun, hruns⟩ := List.forall_mem_cons.mp hrunning
    obtain ⟨hdef, hdefs⟩ := List.forall_mem_cons.mp hdefined
    intro t h
    rw [List.foldl_cons]
    refine ih hreads hruns hdefs _ ?_
    unfold bootstrapBotsFromYaml
    split
    case h_1 => exact h
    case h_2 s hbegin =>
      unfold begin at hbegin
      split at hbegin
      case isTrue => cases hbegin
      case isFalse hallowed =>
        cases hbegin
        refine keeps_workAll hrun _ _ (fun item hitem => ?_) _ (fun _ => rfl) h
        rcases List.mem_append.mp hitem with hitem | hitem
        · obtain ⟨other, hother, rfl⟩ := List.mem_map.mp hitem
          -- a row is only removed by force, and only one without a definition
          rcases hdef with hforce | hmem
          · exact absurd ⟨List.ne_nil_of_mem hother, hforce⟩ hallowed
          · rintro rfl
            exact of_decide_eq_true (List.mem_filter.mp hother).2 hmem
        · obtain ⟨d, hd, rfl⟩ := List.mem_map.mp hitem
          exact hread d hd

end Running

-- ============================================================================
-- Several at once, with the same definitions
-- ============================================================================

section Agreement

variable {codec : Codec} {defs : List BotDefinition} {jobs : ℕ → Job} {t t' : BotTable} {d : BotDefinition}

/-- The definition has its row. -/
def Done (codec : Codec) (t : BotTable) (d : BotDefinition) : Prop :=
  ∃ row, t.get d.id = some row ∧ rowMatches codec row d = true

/-- Every id has the row that it had, or the one of its definition. -/
def Advances (codec : Codec) (defs : List BotDefinition) (t t' : BotTable) : Prop :=
  ∀ id, t'.get id = t.get id ∨ ∃ d ∈ defs, d.id = id ∧ Done codec t' d

/-- What a session has read of a definition is stored, unless its row is. -/
structure Pending (codec : Codec) (t : BotTable) (s : Session) (d : BotDefinition) : Prop where
  unseen : (s.snapshot.find? fun row => row.id = d.id) = none → t.get d.id = none ∨ Done codec t d
  seen : ∀ row, (s.snapshot.find? fun row => row.id = d.id) = some row →
    ∃ now, t.get d.id = some now ∧ (s.expired = false → now = row ∨ rowMatches codec now d = true)

theorem Done.advances (hids : (defs.map BotDefinition.id).Nodup) (hd : d ∈ defs) (h : Done codec t d)
    (hadvances : Advances codec defs t t') : Done codec t' d := by
  rcases hadvances d.id with hsame | ⟨e, he, hid, hdone⟩
  · unfold Done
    rwa [hsame]
  · exact List.inj_on_of_nodup_map hids he hd hid ▸ hdone

theorem Pending.advances (hids : (defs.map BotDefinition.id).Nodup) (hd : d ∈ defs) {s s' : Session}
    (h : Pending codec t s d) (hadvances : Advances codec defs t t') (hsnapshot : s'.snapshot = s.snapshot)
    (hexpired : s'.expired = false → s.expired = false) : Pending codec t' s' d := by
  rcases hadvances d.id with hsame | ⟨e, he, hid, hdone⟩
  · constructor
    · intro hfind
      rw [hsnapshot] at hfind
      unfold Done
      rw [hsame]
      exact h.unseen hfind
    · intro row hfind
      rw [hsnapshot] at hfind
      obtain ⟨now, hget, hnow⟩ := h.seen row hfind
      exact ⟨now, hsame.trans hget, fun hfresh => hnow (hexpired hfresh)⟩
  · have hdone : Done codec t' d := List.inj_on_of_nodup_map hids he hd hid ▸ hdone
    obtain ⟨row, hget, hmatches⟩ := hdone
    exact ⟨fun _ => .inr ⟨row, hget, hmatches⟩, fun _ _ => ⟨row, hget, fun _ => .inr hmatches⟩⟩

theorem rowMatches_iff {row : BotRow} : rowMatches codec row d = true ↔
    row.name = d.name ∧ row.strategy = d.strategy ∧ row.broker = d.broker ∧
      row.tickIntervalSeconds = d.tickIntervalSeconds ∧ configText row = codec.dumps d.config :=
  decide_eq_true_iff

theorem rowMatches_newRow (hreads : codec.Reads d.config) : rowMatches codec (newRow codec d) d = true :=
  rowMatches_iff.mpr ⟨rfl, rfl, rfl, rfl, if_neg hreads.dumps_ne⟩

/-- The row that is updated is the one the session holds, or that of the definition. -/
theorem rowMatches_updatedRow (hreads : codec.Reads d.config) {held stored : BotRow}
    (h : stored = held ∨ rowMatches codec stored d = true) : rowMatches codec (updatedRow codec held stored d) d = true := by
  have hcolumn {α : Type} [DecidableEq α] {a b c : α} (hb : b = a ∨ b = c) : (if a = c then b else c) = c := by
    split
    case isTrue hac => exact hb.elim (·.trans hac) id
    case isFalse => rfl
  have hconfig : (updatedRow codec held stored d).configJson = stored.configJson ∧ configText stored = codec.dumps d.config ∨
      (updatedRow codec held stored d).configJson = codec.dumps d.config := by
    unfold updatedRow
    dsimp only
    split
    case isFalse => exact .inr rfl
    case isTrue heq =>
      rcases h with rfl | hmatches
      · exact .inr heq
      · exact .inl ⟨rfl, (rowMatches_iff.mp hmatches).2.2.2.2⟩
  have htext : configText (updatedRow codec held stored d) = codec.dumps d.config := by
    rcases hconfig with ⟨hsame, hstored⟩ | hdumps
    · rwa [configText, hsame]
    · rw [configText, hdumps, if_neg hreads.dumps_ne]
  refine rowMatches_iff.mpr ⟨hcolumn ?_, hcolumn ?_, hcolumn ?_, hcolumn ?_, htext⟩
  · exact h.imp (congrArg BotRow.name) fun hmatches => (rowMatches_iff.mp hmatches).1
  · exact h.imp (congrArg BotRow.strategy) fun hmatches => (rowMatches_iff.mp hmatches).2.1
  · exact h.imp (congrArg BotRow.broker) fun hmatches => (rowMatches_iff.mp hmatches).2.2.1
  · exact h.imp (congrArg BotRow.tickIntervalSeconds) fun hmatches => (rowMatches_iff.mp hmatches).2.2.2.1

/-- The row of a definition can always be put. -/
theorem put_row (hnames : (defs.map BotDefinition.name).Nodup) (hcompatible : Compatible defs t) (hd : d ∈ defs)
    {row : BotRow} (hid : row.id = d.id) (hmatches : rowMatches codec row d = true) :
    ∃ t', t.put row = some t' ∧ Advances codec defs t t' ∧ Compatible defs t' ∧ Done codec t' d := by
  have hname : row.name = d.name := (rowMatches_iff.mp hmatches).1
  obtain ⟨t', hput⟩ : ∃ t', t.put row = some t' := by
    refine exists_put fun other hother hsame => ?_
    rw [hid, (hcompatible other hother).2 d hd (hsame.trans hname).symm]
  have hdone : Done codec t' d := ⟨row, by rw [get_put hput, hid, if_pos rfl], hmatches⟩
  refine ⟨t', hput, fun id => ?_, fun other hother => ?_, hdone⟩
  · rw [get_put hput]
    split
    case isTrue hsame => exact .inr ⟨d, hd, (hsame.trans hid).symm, hdone⟩
    case isFalse => exact .inl rfl
  · rcases (mem_put hput).mp hother with rfl | ⟨hother, -⟩
    · rw [hid, hname]
      exact ⟨List.mem_map_of_mem hd, fun e he hsame => congrArg _ (List.inj_on_of_nodup_map hnames he hd hsame)⟩
    · exact hcompatible other hother

/-- What a definition's turn does: it is refused where the bot is running, and else leaves the definition its row. -/
theorem reconcile_spec (hnames : (defs.map BotDefinition.name).Nodup) (hcompatible : Compatible defs t) (hd : d ∈ defs)
    (hreads : codec.Reads d.config) {s : Session} (hpending : Pending codec t s d) (job : Job) :
    (∃ t' committed, reconcile codec job t s d = some (t', committed) ∧ Advances codec defs t t' ∧
        Compatible defs t' ∧ Done codec t' d) ∨
      reconcile codec job t s d = none ∧ d.id ∈ job.running := by
  have hquiet (hdone : Done codec t d) : Advances codec defs t t ∧ Compatible defs t ∧ Done codec t d :=
    ⟨fun _ => .inl rfl, hcompatible, hdone⟩
  unfold reconcile
  cases hfind : s.snapshot.find? fun row => row.id = d.id with
  | none =>
    left
    dsimp only
    rcases hpending.unseen hfind with hnone | hdone
    · obtain ⟨t', hput, hresult⟩ := put_row hnames hcompatible hd rfl (rowMatches_newRow hreads)
      refine ⟨t', true, ?_, hresult⟩
      rw [BotTable.insert, show (newRow codec d).id = d.id from rfl, hnone, Option.isSome_none, if_neg Bool.false_ne_true,
        hput, Option.getD_some]
    · refine ⟨t, true, ?_, hquiet hdone⟩
      obtain ⟨row, hget, -⟩ := hdone
      rw [BotTable.insert, show (newRow codec d).id = d.id from rfl, hget, Option.isSome_some, if_pos rfl, Option.getD_none]
  | some row =>
    obtain ⟨now, hget, hnow⟩ := hpending.seen row hfind
    obtain ⟨held, hview, hheld⟩ : ∃ held, s.view t row = some held ∧ (now = held ∨ rowMatches codec now d = true) := by
      have hid : row.id = d.id := by simpa using List.find?_some hfind
      cases hexpired : s.expired with
      | false => exact ⟨row, by rw [Session.view, hexpired, if_neg Bool.false_ne_true], hnow hexpired⟩
      | true => exact ⟨now, by rw [Session.view, hexpired, if_pos rfl, hid, hget], .inl rfl⟩
    dsimp only
    rw [hview]
    dsimp only
    split
    case isTrue hmatches =>
      have hdone : Done codec t d := ⟨now, hget, hheld.elim (· ▸ hmatches) id⟩
      exact .inl ⟨t, false, rfl, hquiet hdone⟩
    case isFalse =>
      split
      case isTrue hrefused => exact .inr ⟨rfl, hrefused.1⟩
      case isFalse =>
        have hid : (updatedRow codec held now d).id = d.id := (KeyedList.get_eq_some.mp hget).2
        obtain ⟨t', hput, hresult⟩ := put_row hnames hcompatible hd hid (rowMatches_updatedRow hreads hheld)
        exact .inl ⟨t', true, by rw [hget, Option.bind_some, hput, Option.map_some], hresult⟩

/-- What is to do is what is not done. -/
structure OnTrack (codec : Codec) (defs : List BotDefinition) (t : BotTable) (s : Session) : Prop where
  todo : ∀ item ∈ s.todo, ∃ d ∈ defs, item = .reconcile d
  done : ∀ d ∈ defs, Work.reconcile d ∈ s.todo ∨ Done codec t d
  pending : ∀ d, Work.reconcile d ∈ s.todo → Pending codec t s d

theorem OnTrack.advances (hids : (defs.map BotDefinition.id).Nodup) {s : Session} (h : OnTrack codec defs t s)
    (hadvances : Advances codec defs t t') : OnTrack codec defs t' s where
  todo := h.todo
  done d hd := (h.done d hd).imp_right fun hdone => hdone.advances hids hd hadvances
  pending d hitem := by
    obtain ⟨e, he, heq⟩ := h.todo _ hitem
    cases heq
    exact (h.pending d hitem).advances hids he hadvances rfl id

/-- The rows have definitions, and every process is on its way to the same end. -/
structure Agrees (codec : Codec) (defs : List BotDefinition) (jobs : ℕ → Job) (w : World) : Prop where
  compatible : Compatible defs w.table
  working : ∀ p s, w.procs p = .working s → OnTrack codec defs w.table s
  finished : ∀ p, w.procs p = .finished → ∀ d ∈ defs, Done codec w.table d
  raised : ∀ p, w.procs p = .raised → (jobs p).running ≠ []

/-- Only one process moves, and it leaves the others where they get to as well. -/
theorem Agrees.move (hids : (defs.map BotDefinition.id).Nodup) {w : World} (h : Agrees codec defs jobs w)
    (hadvances : Advances codec defs w.table t') (hcompatible : Compatible defs t') (p : ℕ) (next : Proc)
    (hworking : ∀ s, next = .working s → OnTrack codec defs t' s)
    (hfinished : next = .finished → ∀ d ∈ defs, Done codec t' d) (hraised : next = .raised → (jobs p).running ≠ []) :
    Agrees codec defs jobs { table := t', procs := Function.update w.procs p next } := by
  refine ⟨hcompatible, fun q s hq => ?_, fun q hq d hd => ?_, fun q hq => ?_⟩
  · dsimp only at hq ⊢
    rw [Function.update_apply] at hq
    split at hq
    case isTrue => exact hworking s hq
    case isFalse => exact (h.working q s hq).advances hids hadvances
  · dsimp only at hq ⊢
    rw [Function.update_apply] at hq
    split at hq
    case isTrue => exact hfinished hq d hd
    case isFalse => exact (h.finished q hq d hd).advances hids hd hadvances
  · dsimp only at hq
    rw [Function.update_apply] at hq
    split at hq
    case isTrue heq => exact heq ▸ hraised hq
    case isFalse => exact h.raised q hq

theorem agrees_step (hids : (defs.map BotDefinition.id).Nodup) (hnames : (defs.map BotDefinition.name).Nodup)
    (hreads : ∀ d ∈ defs, codec.Reads d.config) {w : World} (h : Agrees codec defs jobs w) (p : ℕ) :
    Agrees codec defs jobs (w.step codec defs jobs p) := by
  have hsame : Advances codec defs w.table w.table := fun _ => .inl rfl
  unfold World.step
  cases hproc : w.procs p with
  | starting =>
    have hforeign : foreign defs w.table.rows.items = [] :=
      List.filter_eq_nil_iff.mpr fun row hrow hout => of_decide_eq_true hout (h.compatible row hrow).1
    have hbegin : begin defs (jobs p) w.table =
        some { snapshot := w.table.rows.items, todo := defs.map .reconcile } := by
      unfold begin
      rw [hforeign, if_neg fun hrefused => hrefused.1 rfl]
      rfl
    dsimp only
    rw [hbegin]
    refine h.move hids hsame h.compatible p _ (fun s hs => ?_) (fun hend => nomatch hend) fun hend => nomatch hend
    cases hs
    refine ⟨fun item hitem => ?_, fun d hd => .inl (List.mem_map_of_mem hd), fun d _ => ⟨fun hfind => ?_, fun row hfind => ?_⟩⟩
    · obtain ⟨d, hd, rfl⟩ := List.mem_map.mp hitem
      exact ⟨d, hd, rfl⟩
    · exact .inl hfind
    · exact ⟨row, hfind, fun _ => .inl rfl⟩
  | working s =>
    have htrack := h.working p s hproc
    obtain ⟨snapshot, expired, todo⟩ := s
    cases todo with
    | nil =>
      refine h.move hids hsame h.compatible p _ (fun s hs => nomatch hs) (fun _ d hd => ?_) fun hend => nomatch hend
      exact (htrack.done d hd).resolve_left List.not_mem_nil
    | cons item todo =>
      obtain ⟨d, hd, rfl⟩ := htrack.todo item List.mem_cons_self
      have hspec := reconcile_spec hnames h.compatible hd (hreads d hd) (htrack.pending d List.mem_cons_self) (jobs p)
      dsimp only
      rw [show work codec (jobs p) w.table _ (.reconcile d) = reconcile codec (jobs p) w.table _ d from rfl]
      rcases hspec with ⟨t', committed, hstep, hadvances, hcompatible, hdone⟩ | ⟨hstep, hrunning⟩
      · rw [hstep]
        refine h.move hids hadvances hcompatible p _ (fun s hs => ?_) (fun hend => nomatch hend) fun hend => nomatch hend
        cases hs
        refine ⟨fun item hitem => htrack.todo item (List.mem_cons_of_mem _ hitem), fun e he => ?_, fun e hitem => ?_⟩
        · rcases htrack.done e he with hitem | hold
          · rcases List.mem_cons.mp hitem with heq | hitem
            · cases heq
              exact .inr hdone
            · exact .inl hitem
          · exact .inr (hold.advances hids he hadvances)
        · obtain ⟨e', he', heq⟩ := htrack.todo _ (List.mem_cons_of_mem _ hitem)
          cases heq
          refine (htrack.pending e (List.mem_cons_of_mem _ hitem)).advances hids he' hadvances rfl fun hfresh => ?_
          exact (Bool.or_eq_false_iff.mp hfresh).1
      · rw [hstep]
        refine h.move hids hsame h.compatible p _ (fun s hs => nomatch hs) (fun hend => nomatch hend) fun _ hnil => ?_
        rw [hnil] at hrunning
        exact List.not_mem_nil hrunning
  | finished => exact h
  | raised => exact h

/-- However the transactions of several bootstraps of one set of definitions come, over rows
    that have definitions: one that is done has left every definition its row and no other
    row is there, and none that is told of no running bot raises. -/
theorem bootstraps_agree (codec : Codec) (defs : List BotDefinition) (jobs : ℕ → Job) (t : BotTable)
    (hids : (defs.map BotDefinition.id).Nodup) (hnames : (defs.map BotDefinition.name).Nodup)
    (hreads : ∀ d ∈ defs, codec.Reads d.config) (hcompatible : Compatible defs t) (schedule : List ℕ) :
    (∀ p, (bootstraps codec defs jobs t schedule).procs p = .finished →
        (∀ d ∈ defs, ∃ row, (bootstraps codec defs jobs t schedule).table.get d.id = some row ∧
          rowMatches codec row d = true) ∧
        ∀ row ∈ (bootstraps codec defs jobs t schedule).table.rows.items, row.id ∈ defs.map BotDefinition.id) ∧
      ∀ p, (jobs p).running = [] → (bootstraps codec defs jobs t schedule).procs p ≠ .raised := by
  have hagrees : Agrees codec defs jobs (bootstraps codec defs jobs t schedule) := by
    refine List.foldlRecOn schedule _ ?_ fun w h p _ => agrees_step hids hnames hreads h p
    exact ⟨hcompatible, fun _ _ hs => (nomatch hs), fun _ hend => (nomatch hend), fun _ hend => (nomatch hend)⟩
  exact ⟨fun p hend => ⟨hagrees.finished p hend, fun row hrow => (hagrees.compatible row hrow).1⟩,
    fun p hnone hraised => hagrees.raised p hraised hnone⟩

end Agreement

-- ============================================================================
-- A fresh deploy, and a reload
-- ============================================================================

section Example

/-- A configuration with a symbol alone. -/
def symbolConfig (symbol : String) : Dict String Json := Dict.put ∅ "symbol" (.str symbol)

/-- The text of one such configuration, and what it reads. -/
def oneText : Codec where
  dumps _ := "\x7b\"symbol\": \"MES\"\x7d"
  loads text := if text = "\x7b\"symbol\": \"MES\"\x7d" then some (symbolConfig "MES") else some ∅

theorem oneText_reads : oneText.Reads (symbolConfig "MES") := ⟨by decide, fun _ => rfl⟩

def slotBot (id name : String) : BotDefinition :=
  { id, name, strategy := "chart_signal", broker := "ib", tickIntervalSeconds := 10, config := symbolConfig "MES" }

def emptyTable : BotTable := ⟨∅, List.nodup_nil⟩

/-- The engine, the API and the runner at once, over an empty table. -/
theorem bootstraps_agree_fresh :
    ∃ row, (bootstraps oneText [slotBot "1" "a", slotBot "2" "b"] (fun _ => {}) emptyTable
        [0, 1, 2, 1, 0, 2, 0, 1, 0, 2, 1, 2]).table.get "2" = some row ∧
      rowMatches oneText row (slotBot "2" "b") = true := by
  have hreads : ∀ d ∈ [slotBot "1" "a", slotBot "2" "b"], oneText.Reads d.config := by
    simp [slotBot, oneText_reads]
  have hagree := (bootstraps_agree oneText [slotBot "1" "a", slotBot "2" "b"] (fun _ => {}) emptyTable (by decide) (by decide)
    hreads (fun row hrow => absurd hrow List.not_mem_nil) [0, 1, 2, 1, 0, 2, 0, 1, 0, 2, 1, 2]).1 0 rfl
  exact hagree.1 (slotBot "2" "b") (by simp)

def oneRow : BotTable := (emptyTable.put (newRow oneText (slotBot "1" "a"))).getD emptyTable

/-- A running bot gets another name, and is then to get another strategy. -/
theorem reloads_keep_running_edits :
    Keeps oneText (newRow oneText (slotBot "1" "a")) "1"
      ([([slotBot "1" "b"], { running := ["1"] }), ([{ slotBot "1" "b" with strategy := "close_trend_rsi" }], { running := ["1"] })].foldl
        (fun t reload => (bootstrapBotsFromYaml oneText reload.1 reload.2 t).1) oneRow) :=
  reloads_keep_running oneText _ oneRow "1" _ rfl (by simp [slotBot, oneText_reads]) (by simp) (by simp)

end Example

end IbTrader.Bots.Bootstrap
