/-
  IbTrader.Bots.StateRollback

  What a failed pass through the middlewares leaves of the bot document
  (`MiddlewarePipeline.process` in `ib_trader/bots/middleware.py`, `_write_state` in
  `ib_trader/bots/runtime.py`).

  The document is a dictionary here, with whatever keys it has.  A patch is merged
  into it, and so is the saved copy after a failure: the merge brings the keys of the
  copy back, and leaves every other key as the patches have left it
  (`execution_fails`).
-/

import IbTrader.Lib.KeyedList
import IbTrader.Bots.Pipeline

namespace IbTrader.Bots.Rollback

open Lib
open IbTrader.Bots.Runtime (PlaceOrder Filter filters)

variable {V : Type*}

-- ============================================================================
-- The document and the actions
-- ============================================================================

/-- The keys that `_write_state` strips. -/
def ownedKeys : List String := ["state", "position_state"]

/-- The bot document in Redis, and the copy in the context. -/
structure BotStore (V : Type*) where
  doc : Dict String V
  ctxState : Dict String V

/-- `_write_state`. -/
def writeState (fields : Dict String V) (s : BotStore V) : BotStore V :=
  let merged := s.doc.update (fields.filter fun field => field.1 ∉ ownedKeys)
  { doc := merged, ctxState := merged }

/-- The actions of a strategy, with the fields of a patch as they come. -/
inductive Action (V : Type*) where
  | placeOrder (order : PlaceOrder)
  | cancelOrder (tradeSerial : ℤ)
  | updateState (state : Dict String V)
  /-- `LogSignal` and `EmitAudit`. -/
  | report

def Action.isOrder : Action V → Bool
  | .placeOrder _ | .cancelOrder _ => true
  | .updateState _ | .report => false

/-- The fields of `UpdateState`. -/
def Action.patch : Action V → Option (Dict String V)
  | .updateState state => some state
  | .placeOrder _ | .cancelOrder _ | .report => none

-- ============================================================================
-- The middlewares
-- ============================================================================

/-- What the middlewares meet with. -/
structure Pass (V : Type*) where
  manualEntryOnly : Bool := false
  /-- `_can_trade`. -/
  canTrade : PlaceOrder → Bool := fun _ => true
  /-- A middleware before the persistence one raises. -/
  filterRaises : Filter → Bool := fun _ => false
  /-- The write of a patch raises. -/
  writeRaises : Dict String V → Bool := fun _ => false
  engineUrl : Bool := true
  /-- The request for an order action raises. -/
  requestRaises : Action V → Bool := fun _ => false
  /-- The write of the saved copy raises. -/
  rollbackRaises : Bool := false

/-- What a filter makes of an action: an order it blocks becomes a `LogSignal`. -/
def Pass.filter (pass : Pass V) : Filter → Action V → Action V
  | .manualEntry, .placeOrder order =>
    if pass.manualEntryOnly ∧ order.origin = "strategy" then .report else .placeOrder order
  | .risk, .placeOrder order => if order.side = "BUY" ∧ pass.canTrade order = false then .report else .placeOrder order
  | _, action => action

/-- The middlewares before the persistence one; `none` where one raises. -/
def Pass.runFilters (pass : Pass V) (actions : List (Action V)) : List Filter → Option (List (Action V))
  | [] => some actions
  | filter :: left => if pass.filterRaises filter then none else pass.runFilters (actions.map (pass.filter filter)) left

/-- `PersistenceMiddleware.process`: the store, and whether a write has raised. -/
def Pass.persist (pass : Pass V) : List (Action V) → BotStore V → BotStore V × Bool
  | [], s => (s, false)
  | .updateState state :: left, s =>
    if pass.writeRaises state then (s, true) else pass.persist left (writeState state s)
  | _ :: left, s => pass.persist left s

/-- `ExecutionMiddleware.process` raises. -/
def Pass.executionRaises (pass : Pass V) (actions : List (Action V)) : Bool :=
  !pass.engineUrl || actions.any fun action => action.isOrder && pass.requestRaises action

/-- `MiddlewarePipeline.process`: the store, and whether it has raised. -/
def Pass.process (pass : Pass V) (actions : List (Action V)) (s : BotStore V) : BotStore V × Bool :=
  match pass.runFilters actions filters with
  | none => (s, true)
  | some passed =>
    match pass.persist passed s with
    | (persisted, true) => (persisted, true)
    | (persisted, false) =>
      if pass.executionRaises passed then
        (if pass.rollbackRaises then persisted else writeState s.ctxState persisted, true)
      else (persisted, false)

/-- The pass comes to the execution middleware, and that raises. -/
def Pass.ExecutionFails (pass : Pass V) (actions : List (Action V)) : Prop :=
  ∃ passed, pass.runFilters actions filters = some passed ∧ (∀ action ∈ passed, ∀ patch ∈ action.patch, pass.writeRaises patch = false) ∧
    pass.executionRaises passed = true

-- ============================================================================
-- What is written
-- ============================================================================

/-- The patches among some actions. -/
def patches (actions : List (Action V)) : List (Dict String V) := actions.filterMap Action.patch

/-- What the patches write last under a key. -/
def lastWritten (k : String) (written : List (Dict String V)) : Option V :=
  if k ∈ ownedKeys then none else written.foldl (fun v patch => (patch.value k).or v) none

/-- What the saved copy brings back under a key. -/
def Pass.restored (pass : Pass V) (s : BotStore V) (k : String) : Option V :=
  if pass.rollbackRaises ∨ k ∈ ownedKeys then none else s.ctxState.value k

/-- What the saved copy brings back is what is stored, and so is what the patches write
    under any other key. -/
def Pass.Undone (pass : Pass V) (actions : List (Action V)) (s : BotStore V) : Prop :=
  ∀ k, k ≠ "state" → ∀ v ∈ (pass.restored s k).or (lastWritten k (patches actions)), s.doc.value k = some v

section Writes

variable {pass : Pass V} {s : BotStore V} {actions : List (Action V)}

theorem value_writeState (fields : Dict String V) (s : BotStore V) (k : String) :
    (writeState fields s).doc.value k = if k ∈ ownedKeys then s.doc.value k else (fields.value k).or (s.doc.value k) := by
  have hfilter := Dict.value_filter fields (fun key => decide (key ∉ ownedKeys)) k
  show (s.doc.update _).value k = _
  rw [Dict.value_update, hfilter]
  by_cases hk : k ∈ ownedKeys <;> simp [hk]

/-- The values written by patches, over those that were there. -/
theorem value_foldl_writeState (written : List (Dict String V)) (s : BotStore V) (k : String) :
    (written.foldl (fun s patch => writeState patch s) s).doc.value k = (lastWritten k written).or (s.doc.value k) := by
  unfold lastWritten
  induction written using List.reverseRecOn with
  | nil => rw [List.foldl_nil, List.foldl_nil, ite_self, Option.none_or]
  | append_singleton written patch ih =>
    rw [List.foldl_append, List.foldl_append, List.foldl_cons, List.foldl_cons, List.foldl_nil, List.foldl_nil,
      value_writeState, ih]
    by_cases hk : k ∈ ownedKeys
    · rw [if_pos hk, if_pos hk, if_pos hk]
    · rw [if_neg hk, if_neg hk, if_neg hk, Option.or_assoc]

/-- Without an exception every patch is written. -/
theorem persist_eq (h : ∀ action ∈ actions, ∀ patch ∈ action.patch, pass.writeRaises patch = false) (s : BotStore V) :
    pass.persist actions s = ((patches actions).foldl (fun s patch => writeState patch s) s, false) := by
  induction actions generalizing s with
  | nil => rfl
  | cons action actions ih =>
    obtain ⟨hfirst, hrest⟩ := List.forall_mem_cons.mp h
    cases action with
    | updateState state =>
      have hwrite := hfirst state rfl
      unfold Pass.persist
      rw [hwrite]
      exact ih hrest (writeState state s)
    | placeOrder order => exact ih hrest s
    | cancelOrder tradeSerial => exact ih hrest s
    | report => exact ih hrest s

/-- The filters let every patch through. -/
theorem patch_filter (pass : Pass V) (filter : Filter) (action : Action V) :
    (pass.filter filter action).patch = action.patch := by
  cases action with
  | placeOrder order =>
    cases filter with
    | manualEntry =>
      simp only [Pass.filter]
      split <;> rfl
    | risk =>
      simp only [Pass.filter]
      split <;> rfl
    | logging => rfl
    | audit => rfl
  | cancelOrder | updateState | report => cases filter <;> rfl

theorem patches_runFilters {left : List Filter} {passed : List (Action V)}
    (h : pass.runFilters actions left = some passed) : patches passed = patches actions := by
  induction left generalizing actions with
  | nil => rw [Option.some.inj h]
  | cons filter left ih =>
    unfold Pass.runFilters at h
    split at h
    · cases h
    · rw [ih h]
      unfold patches
      rw [List.filterMap_map]
      exact List.filterMap_congr fun action _ => patch_filter pass filter action

end Writes

-- ============================================================================
-- The rollback
-- ============================================================================

/-- After a failed execution the document holds what the saved copy brings back, else what
    the patches have written, else what it held. -/
theorem process_value {pass : Pass V} {actions : List (Action V)} (h : pass.ExecutionFails actions) (s : BotStore V)
    (k : String) :
    (pass.process actions s).1.doc.value k =
      ((pass.restored s k).or (lastWritten k (patches actions))).or (s.doc.value k) := by
  obtain ⟨passed, hpassed, hwrites, hraises⟩ := h
  unfold Pass.process
  rw [hpassed]
  dsimp only
  rw [persist_eq hwrites]
  dsimp only
  rw [if_pos hraises, patches_runFilters hpassed]
  unfold Pass.restored
  cases hrollback : pass.rollbackRaises with
  | true =>
    rw [if_pos rfl, value_foldl_writeState, if_pos (.inl rfl), Option.none_or]
  | false =>
    rw [if_neg Bool.false_ne_true, value_writeState, value_foldl_writeState]
    by_cases hk : k ∈ ownedKeys
    · rw [if_pos hk, if_pos (.inr hk), Option.none_or]
    · rw [if_neg hk, if_neg (by simp [hk]), Option.or_assoc]

/-- Whatever the actions patch: after a failed execution every key but the state has the
    value it had exactly where what is brought back is what was stored, and no patch writes
    anything else under a key that is not brought back. -/
theorem process_restores_iff {pass : Pass V} {actions : List (Action V)} (h : pass.ExecutionFails actions) (s : BotStore V) :
    (∀ k, k ≠ "state" → (pass.process actions s).1.doc.value k = s.doc.value k) ↔ pass.Undone actions s := by
  refine forall_congr' fun k => imp_congr_right fun _ => ?_
  rw [process_value h]
  cases (pass.restored s k).or (lastWritten k (patches actions)) with
  | none => exact iff_of_true (Option.none_or) nofun
  | some v =>
    rw [Option.some_or]
    constructor
    · rintro hsame v' hv'
      rw [← Option.some.inj hv']
      exact hsame.symm
    · exact fun hv => (hv v rfl).symm

/-- With a copy of the document, and a rollback that succeeds, only new keys remain. -/
theorem undone_iff {pass : Pass V} {actions : List (Action V)} {doc : Dict String V} (hrollback : pass.rollbackRaises = false) :
    pass.Undone actions { doc, ctxState := doc } ↔
      ∀ k, doc.value k = none → lastWritten k (patches actions) = none := by
  have hrestored (k : String) : pass.restored { doc, ctxState := doc } k = if k ∈ ownedKeys then none else doc.value k := by
    unfold Pass.restored
    rw [hrollback]
    by_cases hk : k ∈ ownedKeys <;> simp [hk]
  have howned {k : String} (hk : k ∈ ownedKeys) : lastWritten k (patches actions) = none := if_pos hk
  constructor
  · intro hundone k hnone
    by_cases hk : k ∈ ownedKeys
    · exact howned hk
    · have hstate : k ≠ "state" := fun heq => hk (heq ▸ List.mem_cons_self)
      have hkept := hundone k hstate
      rw [hrestored, if_neg hk, hnone, Option.none_or] at hkept
      cases hwritten : lastWritten k (patches actions) with
      | none => rfl
      | some v => exact (hkept v hwritten).symm
  · intro hnew k _ v hv
    rw [hrestored] at hv
    by_cases hk : k ∈ ownedKeys
    · rw [if_pos hk, howned hk] at hv
      cases hv
    · rw [if_neg hk] at hv
      cases hdoc : doc.value k with
      | none =>
        rw [hdoc, hnew k hdoc] at hv
        cases hv
      | some w =>
        rw [hdoc, Option.some_or] at hv
        exact hv

section Examples

/-- Every request to the engine fails. -/
def engineDown : Pass ℕ where
  requestRaises := fun _ => true

/-- An entry that patches a key before it is placed. -/
def entryWith (key : String) : List (Action ℕ) :=
  [.updateState ((∅ : Dict String ℕ).put key 2), .placeOrder { symbol := "MES", side := "BUY", qty := 1 }]

/-- A document with one key besides the state. -/
def oneKey : BotStore ℕ where
  doc := ((∅ : Dict String ℕ).put "state" 0).put "qty" 1
  ctxState := ((∅ : Dict String ℕ).put "state" 0).put "qty" 1

theorem process_restores_iff_qty :
    (∀ k, k ≠ "state" → (engineDown.process (entryWith "qty") oneKey).1.doc.value k = oneKey.doc.value k) ↔
      engineDown.Undone (entryWith "qty") oneKey :=
  process_restores_iff ⟨entryWith "qty", rfl, fun _ _ _ _ => rfl, rfl⟩ oneKey

/-- The patch writes a key that the document did not have. -/
theorem process_restores_fails : ¬ ∀ (pass : Pass ℕ) (actions : List (Action ℕ)), pass.ExecutionFails actions →
    ∀ (s : BotStore ℕ), s.ctxState = s.doc → pass.rollbackRaises = false →
      ∀ k, k ≠ "state" → (pass.process actions s).1.doc.value k = s.doc.value k := by
  intro h
  have hline := h engineDown (entryWith "entry_line") ⟨entryWith "entry_line", rfl, fun _ _ _ _ => rfl, rfl⟩ oneKey rfl rfl
    "entry_line" (by decide)
  exact absurd hline (by decide +kernel)

end Examples

end IbTrader.Bots.Rollback
