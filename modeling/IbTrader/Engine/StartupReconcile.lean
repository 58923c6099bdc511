/-
  IbTrader.Engine.StartupReconcile

  The pass of the engine's reconciler after a start (`startup_reconcile` and
  `_determine_state` in `ib_trader/engine/reconciler.py`).

  The open orders this box tagged are collected by bot and symbol, and the position
  document of each is written anew: its state by a table, from the state it had and whether
  IB holds the symbol, and the rest carried over.  A document no such order is about is not
  touched, so of the table only the rows with an order are used (`startup_rewrites`).  The
  pass is not idempotent: a document that says OPEN where IB holds nothing goes to FLAT, and
  with the next start to ENTERING.  After two it has settled (`startup_settles`).
-/

import IbTrader.Api.Channels
import IbTrader.Engine.DriftReconciler
import IbTrader.Engine.OrderRef
import IbTrader.Lib.KeyedFold

namespace IbTrader.Engine.Reconciler

open Api Data Lib Lib.Errors OrderRef

-- ============================================================================
-- The table
-- ============================================================================

def PosState.value : PosState → String
  | .flat => "FLAT"
  | .entering => "ENTERING"
  | .opened => "OPEN"
  | .exiting => "EXITING"

/-- The text of a state, as a value of a document. -/
def PosState.json (state : PosState) : Json := .str state.value

/-- The truth of a value. -/
def isTrue : Json → Bool
  | .null => false
  | .bool b => b
  | .num q => q ≠ 0
  | .str s => s ≠ ""
  | .nested text => text ≠ "[]" ∧ text ≠ "{}"

/-- `_determine_state`. -/
def determineState (currentState : Option Json) (hasOrder hasPosition : Bool) : Json :=
  match currentState.filter isTrue with
  | none =>
    if hasPosition then if hasOrder then PosState.exiting.json else PosState.opened.json
    else if hasOrder then PosState.entering.json
    else PosState.flat.json
  | some current =>
    if current = PosState.entering.json then
      if hasOrder ∧ ¬ hasPosition then PosState.entering.json
      else if ¬ hasOrder ∧ hasPosition then PosState.opened.json
      else if ¬ hasOrder ∧ ¬ hasPosition then PosState.flat.json
      else PosState.entering.json
    else if current = PosState.opened.json then
      if hasPosition then PosState.opened.json else PosState.flat.json
    else if current = PosState.exiting.json then
      if hasOrder ∧ hasPosition then PosState.exiting.json
      else if ¬ hasOrder ∧ ¬ hasPosition then PosState.flat.json
      else if ¬ hasOrder ∧ hasPosition then PosState.opened.json
      else PosState.exiting.json
    else if current = PosState.flat.json then
      if hasOrder then if hasPosition then PosState.exiting.json else PosState.entering.json
      else if hasPosition then PosState.opened.json
      else PosState.flat.json
    else current

-- ============================================================================
-- The pass
-- ============================================================================

/-- An order as `get_open_orders` reports it. -/
structure OpenOrder where
  orderRef : Option String
  ibOrderId : String
  status : String
  deriving DecidableEq, Repr

/-- What is kept of an order. -/
structure OrderInfo where
  ibOrderId : String
  side : String
  status : String
  serial : ℤ
  deriving DecidableEq, Repr

/-- A document of the state store. -/
abbrev Doc := Dict String Json

/-- The documents that can be read, by the text of their key. -/
abbrev Docs := Dict String Doc

/-- The bot and the symbol of an order this box tagged, and what is kept of it. -/
def ownOrder (py : Python) (host : String) (order : OpenOrder) : Option ((String × String) × OrderInfo) :=
  ((decode py (order.orderRef.getD "")).filter (·.isLocal host)).map fun info =>
    ((info.botRef, info.symbol),
      { ibOrderId := order.ibOrderId, side := info.side, status := order.status, serial := info.serial })

/-- `our_orders`. -/
def ourOrders (py : Python) (host : String) (orders : List OpenOrder) : Dict (String × String) OrderInfo :=
  (orders.filterMap (ownOrder py host)).foldl (fun ours entry => ours.put entry.1 entry.2) ∅

/-- `symbol in our_positions`. -/
def hasPosition (positions : List IbPosition) (symbol : String) : Bool :=
  positions.any fun pos => pos.qty ≠ 0 ∧ pos.symbol = symbol

/-- `StateKeys.position`. -/
def positionKey (py : Python) (botRef symbol : String) : Except String String :=
  if ':' ∈ botRef.toList then .error ("bot_ref must not contain ':': " ++ py.repr botRef)
  else .ok ("pos:" ++ botRef ++ ":" ++ symbol)

/-- `pos_data`. -/
def posData (current : Option Doc) (hasPosition : Bool) (serial : ℤ) (now : String) : Doc :=
  let field name := current.bind (·.value name)
  let doc := [("state", determineState (field "state") true hasPosition), ("qty", (field "qty").getD (.str "0")),
    ("avg_price", (field "avg_price").getD (.str "0")), ("serial", .num serial), ("updated_at", .str now)].foldl
      (fun doc entry => Dict.put doc entry.1 entry.2) (∅ : Doc)
  match (field "entry_price").filter isTrue with
  | some price => (doc.put "entry_price" price).put "entry_time" ((field "entry_time").getD .null)
  | none => doc

section Pass

variable (py : Python) (host : String)

/-- The turn of one order; the clock may tell each another time. -/
def reconcileOrder (positions : List IbPosition) (now : String × String → String) (docs : Docs)
    (entry : (String × String) × OrderInfo) : Except String Docs := do
  let key ← positionKey py entry.1.1 entry.1.2
  return docs.put key (posData (docs.value key) (hasPosition positions entry.1.2) entry.2.serial (now entry.1))

/-- `startup_reconcile`; there are no orders where the snapshot timed out. -/
def startupReconcile (orders : Option (List OpenOrder)) (query : PositionQuery) (docs : Docs)
    (now : String × String → String) : Except String Docs :=
  (ourOrders py host (orders.getD [])).items.foldlM (reconcileOrder py (getIbPositions query) now) docs

/-- The engine starts again and again. -/
def restarts (orders : Option (List OpenOrder)) (query : PositionQuery) (docs : Docs)
    (clocks : List (String × String → String)) : Except String Docs :=
  clocks.foldlM (startupReconcile py host orders query) docs

end Pass

-- ============================================================================
-- Keys
-- ============================================================================

/-- The text of a position's key. -/
def positionText (key : String × String) : String := "pos:" ++ key.1 ++ ":" ++ key.2

section Keys

variable {py : Python} {host : String}

theorem not_mem_of_mem_splitOn {α : Type*} [DecidableEq α] {a : α} {xs piece : List α} (h : piece ∈ xs.splitOn a) :
    a ∉ piece := by
  induction xs generalizing piece with
  | nil =>
    rw [List.splitOn_nil, List.mem_singleton] at h
    exact h ▸ List.not_mem_nil
  | cons x xs ih =>
    rw [List.splitOn_cons_eq_if_modifyHead] at h
    split at h
    case isTrue =>
      rcases List.mem_cons.mp h with rfl | h
      · exact List.not_mem_nil
      · exact ih h
    case isFalse hne =>
      cases hpieces : xs.splitOn a with
      | nil => exact absurd hpieces (List.splitOn_ne_nil a xs)
      | cons first rest =>
        rw [hpieces, List.modifyHead_cons] at h
        rcases List.mem_cons.mp h with rfl | h
        · rw [List.mem_cons, not_or]
          exact ⟨fun heq => hne (by simp [heq]), ih (hpieces ▸ List.mem_cons_self)⟩
        · exact ih (hpieces ▸ List.mem_cons_of_mem first h)

/-- The bot of a tag has no separator in its name. -/
theorem not_mem_botRef {ref : String} {info : OrderRefInfo} (h : decode py ref = some info) :
    ':' ∉ info.botRef.toList := by
  have hpieces : ∀ s ∈ split ref, ':' ∉ s.toList := by
    intro s hs
    obtain ⟨piece, hpiece, rfl⟩ := List.mem_map.mp hs
    rw [String.toList_ofList]
    exact not_mem_of_mem_splitOn hpiece
  unfold decode at h
  split at h
  case isTrue => cases h
  case isFalse =>
    split at h
    case h_2 => cases h
    case h_1 _ _ botRef _ _ _ hsplit =>
      split at h
      case isTrue => cases h
      case isFalse =>
        obtain ⟨serial, -, rfl⟩ := Option.map_eq_some_iff.mp h
        exact hpieces botRef (by rw [hsplit]; simp)

theorem ownOrder_colon {order : OpenOrder} {own : (String × String) × OrderInfo} (h : own ∈ ownOrder py host order) :
    ':' ∉ own.1.1.toList := by
  obtain ⟨info, hinfo, rfl⟩ := Option.map_eq_some_iff.mp h
  exact not_mem_botRef (Option.filter_eq_some_iff.mp hinfo).1

theorem positionText_inj {k k' : String × String} (hk : ':' ∉ k.1.toList) (hk' : ':' ∉ k'.1.toList)
    (h : positionText k = positionText k') : k = k' := by
  have htext := congrArg String.toList h
  simp only [positionText, String.toList_append, List.append_assoc, List.append_cancel_left_eq, List.cons_append,
    List.nil_append, show (":" : String).toList = [':'] from rfl] at htext
  have hprefix : k.1.toList ++ ':' :: k.2.toList <+: k'.1.toList ++ ':' :: k'.2.toList := by rw [htext]
  have hfirst : k.1 = k'.1 := String.toList_inj.mp ((append_cons_prefix_iff hk hk').mp hprefix).1
  rw [hfirst, List.append_cancel_left_eq, List.cons_inj_right] at htext
  exact Prod.ext hfirst (String.toList_inj.mp htext)

/-- Every entry is an order this box tagged. -/
theorem mem_ourOrders {orders : List OpenOrder} {own : (String × String) × OrderInfo}
    (h : own ∈ (ourOrders py host orders).items) : ∃ order ∈ orders, ownOrder py host order = some own := by
  have hfold (entries : List ((String × String) × OrderInfo)) (ours : Dict (String × String) OrderInfo) :
      own ∈ (entries.foldl (fun ours entry => Dict.put ours entry.1 entry.2) ours).items →
        own ∈ entries ∨ own ∈ ours.items := by
    induction entries generalizing ours with
    | nil => exact .inr
    | cons entry entries ih =>
      intro hmem
      rcases ih _ hmem with hmem | hmem
      · exact .inl (List.mem_cons_of_mem _ hmem)
      · rcases KeyedList.mem_items_set.mp hmem with rfl | ⟨hold, -⟩
        · exact .inl List.mem_cons_self
        · exact .inr hold
  rcases hfold _ ∅ h with hmem | hmem
  · exact List.mem_filterMap.mp hmem
  · cases hmem

/-- Of the orders of one bot in one symbol the last is kept. -/
theorem ourOrders_last {before after : List OpenOrder} {order : OpenOrder} {own : (String × String) × OrderInfo}
    (hown : ownOrder py host order = some own)
    (hlast : ∀ later ∈ after, ∀ other ∈ ownOrder py host later, other.1 ≠ own.1) :
    own ∈ (ourOrders py host (before ++ order :: after)).items := by
  have hafter : own.1 ∉ (after.filterMap (ownOrder py host)).map Prod.fst := by
    intro hmem
    obtain ⟨other, hother, hkey⟩ := List.mem_map.mp hmem
    obtain ⟨later, hlater, hsome⟩ := List.mem_filterMap.mp hother
    exact hlast later hlater other hsome hkey
  suffices hvalue : Dict.value (ourOrders py host (before ++ order :: after)) own.1 = some own.2 from
    Dict.value_eq_some.mp hvalue
  unfold ourOrders
  rw [List.filterMap_append, List.filterMap_cons_some hown, List.foldl_append, List.foldl_cons,
    Dict.value_foldl_put _ _ hafter, Dict.value_put_self]

end Keys

-- ============================================================================
-- One pass
-- ============================================================================

section OnePass

variable {py : Python} {host : String} {positions : List IbPosition} {now : String × String → String}

/-- A turn, where the key is one. -/
def writeOrder (positions : List IbPosition) (now : String × String → String) (docs : Docs)
    (entry : (String × String) × OrderInfo) : Docs :=
  docs.put (positionText entry.1)
    (posData (docs.value (positionText entry.1)) (hasPosition positions entry.1.2) entry.2.serial (now entry.1))

/-- No key is refused. -/
theorem reconcileOrder_eq {entry : (String × String) × OrderInfo} (h : ':' ∉ entry.1.1.toList) (docs : Docs) :
    reconcileOrder py positions now docs entry = .ok (writeOrder positions now docs entry) := by
  unfold reconcileOrder positionKey
  rw [if_neg h]
  rfl

theorem foldlM_reconcileOrder (entries : List ((String × String) × OrderInfo))
    (h : ∀ entry ∈ entries, ':' ∉ entry.1.1.toList) (docs : Docs) :
    entries.foldlM (reconcileOrder py positions now) docs = .ok (entries.foldl (writeOrder positions now) docs) := by
  induction entries generalizing docs with
  | nil => rfl
  | cons entry entries ih =>
    obtain ⟨hentry, hentries⟩ := List.forall_mem_cons.mp h
    rw [List.foldlM_cons, reconcileOrder_eq hentry, List.foldl_cons, ← ih hentries]
    rfl

theorem writeOrder_keyed (positions : List IbPosition) (now : String × String → String) :
    KeyedStep (fun (docs : Docs) key => docs.value key) (fun entry => positionText entry.1)
      (fun entry doc => some (posData doc (hasPosition positions entry.1.2) entry.2.serial (now entry.1)))
      (writeOrder positions now) where
  own _ _ := Dict.value_put_self _ _ _
  other _ _ _ hne := Dict.value_put_ne hne

/-- What one pass does, by the entries of `our_orders`. -/
theorem startup_items (py : Python) (host : String) (orders : Option (List OpenOrder)) (query : PositionQuery)
    (docs : Docs) (now : String × String → String) :
    ∃ docs', startupReconcile py host orders query docs now = .ok docs' ∧
      (∀ key, (∀ own ∈ (ourOrders py host (orders.getD [])).items, positionText own.1 ≠ key) →
        docs'.value key = docs.value key) ∧
      ∀ own ∈ (ourOrders py host (orders.getD [])).items,
        docs'.value (positionText own.1) = some (posData (docs.value (positionText own.1))
          (hasPosition (getIbPositions query) own.1.2) own.2.serial (now own.1)) := by
  have hcolon : ∀ entry ∈ (ourOrders py host (orders.getD [])).items, ':' ∉ entry.1.1.toList := by
    intro entry hentry
    obtain ⟨order, -, hown⟩ := mem_ourOrders hentry
    exact ownOrder_colon hown
  have hkeyed := writeOrder_keyed (getIbPositions query) now
  have hnodup : ((ourOrders py host (orders.getD [])).items.map fun entry => positionText entry.1).Nodup := by
    rw [← Function.comp_def, ← List.map_map]
    refine List.Nodup.map_on (fun k hk k' hk' heq => ?_) (ourOrders py host (orders.getD [])).unique
    obtain ⟨entry, hentry, rfl⟩ := List.mem_map.mp hk
    obtain ⟨entry', hentry', rfl⟩ := List.mem_map.mp hk'
    exact positionText_inj (hcolon entry hentry) (hcolon entry' hentry') heq
  refine ⟨_, foldlM_reconcileOrder _ hcolon docs, fun key hkey => ?_, fun own hown => ?_⟩
  · refine hkeyed.view_foldl_of_not_mem _ docs fun hmem => ?_
    obtain ⟨entry, hentry, htext⟩ := List.mem_map.mp hmem
    exact hkey entry hentry htext
  · exact hkeyed.view_foldl _ docs hnodup hown

/-- After a start the documents of the orders this box tagged are written anew, each by the
    last order of its bot in its symbol, and every other document is as it was. -/
theorem startup_rewrites (py : Python) (host : String) (orders : Option (List OpenOrder)) (query : PositionQuery)
    (docs : Docs) (now : String × String → String) :
    ∃ docs', startupReconcile py host orders query docs now = .ok docs' ∧
      (∀ key, (∀ order ∈ orders.getD [], ∀ own ∈ ownOrder py host order, positionText own.1 ≠ key) →
        docs'.value key = docs.value key) ∧
      ∀ before order after own, orders.getD [] = before ++ order :: after → ownOrder py host order = some own →
        (∀ later ∈ after, ∀ other ∈ ownOrder py host later, other.1 ≠ own.1) →
          docs'.value (positionText own.1) = some (posData (docs.value (positionText own.1))
            (hasPosition (getIbPositions query) own.1.2) own.2.serial (now own.1)) := by
  obtain ⟨docs', hpass, hother, hown⟩ := startup_items py host orders query docs now
  refine ⟨docs', hpass, fun key hkey => hother key fun own hitem => ?_, fun before order after own hsplit hlocal hlast => ?_⟩
  · obtain ⟨order, horder, hlocal⟩ := mem_ourOrders hitem
    exact hkey order horder own hlocal
  · exact hown own (hsplit ▸ ourOrders_last hlocal hlast)

end OnePass

-- ============================================================================
-- One start after another
-- ============================================================================

section Restarts

variable {py : Python} {host : String} {orders : Option (List OpenOrder)} {query : PositionQuery}

/-- A field of a document, none where either is missing. -/
def fieldAt (docs : Docs) (key name : String) : Option Json := (docs.value key).bind (·.value name)

theorem value_put {β : Type*} (d : Dict String β) (k k' : String) (v : β) :
    (d.put k v).value k' = if k' = k then some v else d.value k' := by
  split
  case isTrue h => rw [h, Dict.value_put_self]
  case isFalse h => rw [Dict.value_put_ne h]

/-- What the pass writes into a field, of what the fields were. -/
def writtenField (before : String → Option Json) (held : Bool) (serial : ℤ) (now name : String) : Option Json :=
  if name = "entry_time" then
    if ((before "entry_price").filter isTrue).isSome then some ((before "entry_time").getD .null) else none
  else if name = "entry_price" then (before "entry_price").filter isTrue
  else if name = "updated_at" then some (.str now)
  else if name = "serial" then some (.num serial)
  else if name = "avg_price" then some ((before "avg_price").getD (.str "0"))
  else if name = "qty" then some ((before "qty").getD (.str "0"))
  else if name = "state" then some (determineState (before "state") true held)
  else none

theorem value_posData (current : Option Doc) (held : Bool) (serial : ℤ) (now name : String) :
    (posData current held serial now).value name =
      writtenField (fun name => current.bind (·.value name)) held serial now name := by
  have hempty : Dict.value (∅ : Doc) name = none := rfl
  unfold posData writtenField
  dsimp only
  cases hprice : (current.bind (·.value "entry_price")).filter isTrue with
  | some price => simp only [List.foldl_cons, List.foldl_nil, value_put, hempty, Option.isSome_some, if_true]
  | none =>
    simp only [List.foldl_cons, List.foldl_nil, value_put, hempty, Option.isSome_none, Bool.false_eq_true, if_false]
    by_cases htime : name = "entry_time"
    · subst htime
      simp
    · by_cases hprice : name = "entry_price"
      · subst hprice
        simp
      · simp only [htime, hprice, if_false]

/-- What the table says where there is an order. -/
theorem determineState_order (state : Option Json) (held : Bool) :
    determineState state true held =
      match state.filter isTrue with
      | none => if held then PosState.exiting.json else PosState.entering.json
      | some current =>
        if current = PosState.opened.json then if held then current else PosState.flat.json
        else if current = PosState.flat.json then if held then PosState.exiting.json else PosState.entering.json
        else current := by
  unfold determineState
  cases state.filter isTrue with
  | none => cases held <;> rfl
  | some current =>
    dsimp only
    by_cases hentering : current = PosState.entering.json
    · subst hentering
      cases held <;> rfl
    · by_cases hopened : current = PosState.opened.json
      · subst hopened
        cases held <;> rfl
      · by_cases hexiting : current = PosState.exiting.json
        · subst hexiting
          cases held <;> rfl
        · cases held <;> simp [hentering, hopened, hexiting]

/-- What the table says is repeated, but for the FLAT that an OPEN becomes where nothing is held. -/
theorem determineState_twice (state : Option Json) (held : Bool) :
    determineState (some (determineState state true held)) true held = determineState state true held ↔
      ¬ (state = some PosState.opened.json ∧ held = false) := by
  have hopened : PosState.opened.json ≠ PosState.flat.json := by decide
  rw [determineState_order state]
  cases hstate : state.filter isTrue with
  | none =>
    have hne : state ≠ some PosState.opened.json := by
      rintro rfl
      cases hstate
    cases held
    · exact iff_of_true rfl fun h => hne h.1
    · exact iff_of_true rfl fun h => hne h.1
  | some current =>
    obtain ⟨rfl, htrue⟩ := Option.filter_eq_some_iff.mp hstate
    dsimp only
    by_cases hcurrent : current = PosState.opened.json
    · subst hcurrent
      cases held
      · exact iff_of_false (by decide) (not_not.mpr ⟨rfl, rfl⟩)
      · exact iff_of_true rfl fun h => Bool.noConfusion h.2
    · have hne : some current ≠ some PosState.opened.json := fun h => hcurrent (Option.some.inj h)
      refine iff_of_true ?_ fun h => hne h.1
      rw [if_neg hcurrent]
      split
      · cases held <;> rfl
      case isFalse hflat =>
        rw [determineState_order, hstate]
        dsimp only
        rw [if_neg hcurrent, if_neg hflat]

/-- Twice what the table says is repeated. -/
theorem determineState_thrice (state : Option Json) (held : Bool) :
    determineState (some (determineState (some (determineState state true held)) true held)) true held =
      determineState (some (determineState state true held)) true held := by
  refine (determineState_twice (some (determineState state true held)) held).mpr ?_
  rintro ⟨hopened, rfl⟩
  have hflat : PosState.flat.json ≠ PosState.opened.json := by decide
  rw [Option.some.injEq, determineState_order] at hopened
  split at hopened
  · exact absurd hopened (by decide)
  · split at hopened
    · exact absurd hopened hflat
    · split at hopened
      · exact absurd hopened (by decide)
      case isFalse hne _ => exact hne hopened

theorem filter_filter_isTrue (v : Option Json) : (v.filter isTrue).filter isTrue = v.filter isTrue := by
  cases v with
  | none => rfl
  | some v => cases h : isTrue v <;> simp [Option.filter, h]

/-- A pass writes the same, its time apart, where the fields were the same but for the time. -/
theorem writtenField_congr {before before' : String → Option Json} {name : String} (held : Bool) (serial : ℤ)
    (now now' : String) (h : ∀ name, name ≠ "updated_at" → before name = before' name) (hname : name ≠ "updated_at") :
    writtenField before held serial now name = writtenField before' held serial now' name := by
  unfold writtenField
  rw [h "entry_price" (by decide), h "entry_time" (by decide), h "avg_price" (by decide), h "qty" (by decide),
    h "state" (by decide), if_neg hname, if_neg hname]

/-- A second pass repeats the first where it repeats the state. -/
theorem writtenField_again {before : String → Option Json} {name : String} {held : Bool} (serial : ℤ) (now now' : String)
    (h : determineState (some (determineState (before "state") true held)) true held =
      determineState (before "state") true held) (hname : name ≠ "updated_at") :
    writtenField (writtenField before held serial now) held serial now' name =
      writtenField before held serial now name := by
  have hprice : writtenField before held serial now "entry_price" = (before "entry_price").filter isTrue := rfl
  have htime : writtenField before held serial now "entry_time" =
      if ((before "entry_price").filter isTrue).isSome then some ((before "entry_time").getD .null) else none := rfl
  have havg : writtenField before held serial now "avg_price" = some ((before "avg_price").getD (.str "0")) := rfl
  have hqty : writtenField before held serial now "qty" = some ((before "qty").getD (.str "0")) := rfl
  have hstate : writtenField before held serial now "state" = some (determineState (before "state") true held) := rfl
  generalize hafter : writtenField before held serial now = after at hprice htime havg hqty hstate ⊢
  rw [← congrFun hafter name]
  unfold writtenField
  rw [hprice, htime, havg, hqty, hstate, filter_filter_isTrue, h, if_neg hname, if_neg hname]
  cases (before "entry_price").filter isTrue <;> simp

/-- Two stores hold the same, the times apart. -/
def SameButTimes (docs docs' : Docs) : Prop :=
  ∀ key name, name ≠ "updated_at" → fieldAt docs key name = fieldAt docs' key name

/-- What a pass writes into each field of each document. -/
theorem startup_fields (py : Python) (host : String) (orders : Option (List OpenOrder)) (query : PositionQuery)
    (docs : Docs) (now : String × String → String) :
    ∃ docs', startupReconcile py host orders query docs now = .ok docs' ∧
      (∀ key, (∀ own ∈ (ourOrders py host (orders.getD [])).items, positionText own.1 ≠ key) →
        fieldAt docs' key = fieldAt docs key) ∧
      ∀ own ∈ (ourOrders py host (orders.getD [])).items,
        fieldAt docs' (positionText own.1) = writtenField (fieldAt docs (positionText own.1))
          (hasPosition (getIbPositions query) own.1.2) own.2.serial (now own.1) := by
  obtain ⟨docs', hpass, hother, hown⟩ := startup_items py host orders query docs now
  refine ⟨docs', hpass, fun key hkey => ?_, fun own hitem => ?_⟩
  · funext name
    rw [fieldAt, hother key hkey, fieldAt]
  · funext name
    rw [fieldAt, hown own hitem, Option.bind_some, value_posData]
    rfl

/-- The next pass would write what is there, its time apart. -/
def Settled (py : Python) (host : String) (orders : Option (List OpenOrder)) (query : PositionQuery) (docs : Docs) : Prop :=
  ∀ own ∈ (ourOrders py host (orders.getD [])).items, ∀ now name, name ≠ "updated_at" →
    writtenField (fieldAt docs (positionText own.1)) (hasPosition (getIbPositions query) own.1.2) own.2.serial now name =
      fieldAt docs (positionText own.1) name

/-- What has settled stays. -/
theorem Settled.restarts {docs : Docs} (h : Settled py host orders query docs) (clocks : List (String × String → String)) :
    ∃ docs', restarts py host orders query docs clocks = .ok docs' ∧ SameButTimes docs' docs := by
  induction clocks generalizing docs with
  | nil => exact ⟨docs, rfl, fun _ _ _ => rfl⟩
  | cons now clocks ih =>
    obtain ⟨docs₁, hpass, hother, hown⟩ := startup_fields py host orders query docs now
    have hsame : SameButTimes docs₁ docs := by
      intro key name hname
      by_cases hkey : ∃ own ∈ (ourOrders py host (orders.getD [])).items, positionText own.1 = key
      · obtain ⟨own, hitem, rfl⟩ := hkey
        rw [hown own hitem, h own hitem _ name hname]
      · rw [hother key fun own hitem htext => hkey ⟨own, hitem, htext⟩]
    have hsettled : Settled py host orders query docs₁ := by
      intro own hitem now' name hname
      rw [writtenField_congr _ _ now' now' (hsame _) hname, h own hitem now' name hname, hsame _ name hname]
    obtain ⟨docs', hrest, hlast⟩ := ih hsettled
    refine ⟨docs', ?_, fun key name hname => (hlast key name hname).trans (hsame key name hname)⟩
    unfold Reconciler.restarts at hrest ⊢
    rw [List.foldlM_cons, hpass]
    exact hrest

/-- After two starts under one picture of IB the documents have settled, and they had after
    the first unless one that is written said OPEN where IB holds nothing. -/
theorem startup_settles (py : Python) (host : String) (orders : Option (List OpenOrder)) (query : PositionQuery)
    (docs : Docs) (first second : String × String → String) (clocks : List (String × String → String)) :
    ∃ docs₁ docs₂ docs', startupReconcile py host orders query docs first = .ok docs₁ ∧
      startupReconcile py host orders query docs₁ second = .ok docs₂ ∧
      restarts py host orders query docs₂ clocks = .ok docs' ∧ SameButTimes docs' docs₂ ∧
      (SameButTimes docs₂ docs₁ ↔ ∀ own ∈ (ourOrders py host (orders.getD [])).items,
        ¬ (fieldAt docs (positionText own.1) "state" = some PosState.opened.json ∧
          hasPosition (getIbPositions query) own.1.2 = false)) := by
  obtain ⟨docs₁, hpass₁, -, hown₁⟩ := startup_fields py host orders query docs first
  obtain ⟨docs₂, hpass₂, hother₂, hown₂⟩ := startup_fields py host orders query docs₁ second
  have hsettled : Settled py host orders query docs₂ := by
    intro own hitem now name hname
    rw [hown₂ own hitem, writtenField_again _ (second own.1) now ?_ hname]
    rw [hown₁ own hitem]
    exact determineState_thrice _ _
  obtain ⟨docs', hrest, hsame⟩ := hsettled.restarts clocks
  refine ⟨docs₁, docs₂, docs', hpass₁, hpass₂, hrest, hsame, ?_⟩
  constructor
  · intro hagain own hitem
    have hstate := hagain (positionText own.1) "state" (by decide)
    rw [hown₂ own hitem, hown₁ own hitem] at hstate
    exact (determineState_twice _ _).mp (Option.some.inj hstate)
  · intro hready key name hname
    by_cases hkey : ∃ own ∈ (ourOrders py host (orders.getD [])).items, positionText own.1 = key
    · obtain ⟨own, hitem, rfl⟩ := hkey
      rw [hown₂ own hitem, hown₁ own hitem]
      exact writtenField_again _ _ _ ((determineState_twice _ _).mpr (hready own hitem)) hname
    · rw [hother₂ key fun own hitem htext => hkey ⟨own, hitem, htext⟩]

end Restarts

end IbTrader.Engine.Reconciler
