/-
  IbTrader.Engine.DriftReconciler

  The periodic check of the engine's reconciler (`sanity_check` and
  `_get_ib_positions` in `ib_trader/engine/reconciler.py`), and the filter a bot
  puts its events through.

  The check compares what every bot believes with the positions IB reports and
  publishes a RECONCILED event where they disagree.  Three parties have to carry
  what it needs: the query, which answers a failure with an empty list and a
  position without its security type; the comparison, which asks for both; and the
  bot, which takes events by their `orderRef`, a field these events do not have.
-/

import IbTrader.Bots.Lifecycle

namespace IbTrader.Engine.Reconciler

open Bots (BotState)

-- ============================================================================
-- The positions
-- ============================================================================

/-- A position as the IB wrapper holds it. -/
structure RawPosition where
  symbol : String
  secType : String
  position : ℚ
  avgCost : ℚ
  conId : Int
  deriving DecidableEq, Repr

/-- How the position query goes. -/
inductive PositionQuery where
  /-- the wrapper has not the two methods -/
  | unsupported
  | timeout
  | failed
  | answered (held : List RawPosition)
  deriving DecidableEq, Repr

/-- A dict of `_get_ib_positions`; `sec_type` is the key `sanity_check` asks for. -/
structure IbPosition where
  symbol : String
  qty : ℚ
  avgPrice : ℚ
  conId : Int
  secType : Option String := none
  deriving DecidableEq, Repr

/-- `_get_ib_positions`. -/
def getIbPositions : PositionQuery → List IbPosition
  | .unsupported | .timeout | .failed => []
  | .answered held => held.map fun p =>
    { symbol := p.symbol, qty := p.position, avgPrice := p.avgCost, conId := p.conId }

/-- `ib_position_map.get(symbol)`: of several positions in a symbol the last one. -/
def positionIn (positions : List IbPosition) (symbol : String) : Option IbPosition :=
  positions.reverse.find? fun p =>
    p.qty ≠ 0 ∧ p.secType.getD "STK" = "STK" ∧ p.symbol = symbol

-- ============================================================================
-- The bots
-- ============================================================================

/-- The fields of a `BotDefinition` that are read here, and the `ref_id` of the
    strategy file for a bot that has none of its own. -/
structure BotDefinition where
  id : String
  name : String
  refId : Option String := none
  symbol : Option String := none
  strategyRef : String
  deriving DecidableEq, Repr

/-- The fields of a bot document that are read here. -/
structure BotView where
  state : Option String := none
  symbol : Option String := none
  deriving DecidableEq, Repr

/-- The reconciler's own view of a state. -/
inductive PosState where
  | flat
  | entering
  | opened
  | exiting
  deriving DecidableEq, Repr

/-- `_fsm_to_pos_state`. -/
def fsmToPosState (state : Option String) : PosState :=
  match state.bind BotState.ofValue with
  | some .awaitingEntryTrigger => .flat
  | some .entryOrderPlaced => .entering
  | some .awaitingExitTrigger => .opened
  | some .exitOrderPlaced => .exiting
  | some .off | some .errored | none => .flat

/-- `defn.config.get("ref_id", defn.name)`. -/
def BotDefinition.botRef (defn : BotDefinition) : String := defn.refId.getD defn.name

/-- `current.get("symbol") or defn.config.get("symbol", "")`. -/
def symbolOf (defn : BotDefinition) (current : BotView) : String :=
  if current.symbol.getD "" = "" then defn.symbol.getD "" else current.symbol.getD ""

/-- What a check finds in place. -/
structure Account where
  query : PositionQuery
  /-- a bot document, `none` where it is missing or empty -/
  docs : String → Option BotView
  registry : List BotDefinition
  /-- a Redis call raises on the turn of this bot -/
  raises : String → Bool

/-- The bot that goes by this bot's reference is off or errored.  The reference is
    looked up among the names. -/
def Account.notRunning (a : Account) (defn : BotDefinition) : Bool :=
  match a.registry.find? fun other => other.name = defn.botRef with
  | none => false
  | some other =>
    let doc := (a.docs other.id).getD {}
    let state := (BotState.ofValue (doc.state.getD BotState.off.value)).getD .off
    state = .off ∨ state = .errored

-- ============================================================================
-- The check
-- ============================================================================

/-- A value of a stream entry. -/
inductive FieldValue where
  | text (s : String)
  | decimal (q : ℚ)
  deriving DecidableEq, Repr

/-- Which way bot and IB disagree. -/
inductive Drift where
  | openToFlat
  | flatToOpen (position : IbPosition)
  deriving DecidableEq, Repr

/-- An entry published on `order:updates`, and the bot it is about. -/
structure Published where
  bot : BotDefinition
  symbol : String
  drift : Drift
  deriving DecidableEq, Repr

/-- The entry, its timestamp apart. -/
def Published.fields (e : Published) : List (String × FieldValue) :=
  match e.drift with
  | .openToFlat =>
    [("type", .text "RECONCILED"), ("symbol", .text e.symbol), ("prev_state", .text "OPEN"),
      ("new_state", .text "FLAT"), ("reason", .text "position_closed_externally")]
  | .flatToOpen p =>
    [("type", .text "RECONCILED"), ("symbol", .text e.symbol), ("prev_state", .text "FLAT"),
      ("new_state", .text "OPEN"), ("reason", .text "position_found_in_ib"),
      ("qty", .decimal p.qty), ("avg_price", .decimal p.avgPrice)]

/-- The turn of one bot. -/
def checkBot (a : Account) (defn : BotDefinition) : Option Published :=
  match a.docs defn.id with
  | none => none
  | some current =>
    let symbol := symbolOf defn current
    if a.notRunning defn then none
    else match fsmToPosState current.state, positionIn (getIbPositions a.query) symbol with
      | .opened, none => some { bot := defn, symbol := symbol, drift := .openToFlat }
      | .flat, some p => some { bot := defn, symbol := symbol, drift := .flatToOpen p }
      | .opened, some _ | .flat, none | .entering, _ | .exiting, _ => none

/-- The bots whose turn comes: an exception ends the check. -/
def Account.checked (a : Account) : List BotDefinition :=
  a.registry.takeWhile fun defn => !a.raises defn.id

/-- `sanity_check`: what it publishes. -/
def sanityCheck (a : Account) : List Published := a.checked.filterMap (checkBot a)

-- ============================================================================
-- The filter of the bot
-- ============================================================================

/-- `data.get("orderRef") or ""`. -/
def orderRefOf (fields : List (String × FieldValue)) : String :=
  match fields.lookup "orderRef" with
  | some (.text s) => s
  | some (.decimal _) | none => ""

/-- `_order_ref_prefix` of `run_event_loop`. -/
def orderRefPrefix (host : String) (defn : BotDefinition) : String :=
  "IBT:" ++ host ++ ":" ++ defn.refId.getD defn.strategyRef ++ ":"

/-- The bot takes the entry for one of its own. -/
def passesFilter (host : String) (defn : BotDefinition) (fields : List (String × FieldValue)) :
    Bool :=
  (orderRefPrefix host defn).toList.isPrefixOf (orderRefOf fields).toList

-- ============================================================================
-- The property
-- ============================================================================

/-- IB holds a stock position in the symbol. -/
def HoldsStock (held : List RawPosition) (symbol : String) : Prop :=
  ∃ p ∈ held, p.symbol = symbol ∧ p.secType = "STK" ∧ p.position ≠ 0

/-- A bot is told it is flat only if IB answered and holds no stock in its symbol. -/
def OpenToFlatSound (a : Account) : Prop :=
  ∀ e ∈ sanityCheck a, e.drift = .openToFlat →
    ∃ held, a.query = .answered held ∧ ¬HoldsStock held e.symbol

/-- A bot is told it holds a position only if IB holds stock in its symbol. -/
def FlatToOpenSound (a : Account) : Prop :=
  ∀ e ∈ sanityCheck a, ∀ p, e.drift = .flatToOpen p →
    ∃ held, a.query = .answered held ∧ HoldsStock held e.symbol

/-- What is published reaches the bot it is about. -/
def Delivered (host : String) (a : Account) : Prop :=
  ∀ e ∈ sanityCheck a, passesFilter host e.bot e.fields = true

/-- A position is reported in the symbol, of whatever security type. -/
def Reported (query : PositionQuery) (symbol : String) : Prop :=
  ∃ held, query = .answered held ∧ ∃ p ∈ held, p.symbol = symbol ∧ p.position ≠ 0

/-- The bot is taken to be running, and believes this of this symbol. -/
def Believes (a : Account) (defn : BotDefinition) (view : PosState) (symbol : String) : Prop :=
  ∃ current, a.docs defn.id = some current ∧ a.notRunning defn = false ∧
    fsmToPosState current.state = view ∧ symbolOf defn current = symbol

-- ============================================================================
-- What is published
-- ============================================================================

theorem mem_getIbPositions {query : PositionQuery} {q : IbPosition} :
    q ∈ getIbPositions query ↔ ∃ held, query = .answered held ∧ ∃ p ∈ held,
      q = { symbol := p.symbol, qty := p.position, avgPrice := p.avgCost, conId := p.conId } := by
  cases query with
  | unsupported | timeout | failed => simp [getIbPositions]
  | answered held =>
    simp only [getIbPositions, List.mem_map, PositionQuery.answered.injEq, exists_eq_left']
    exact exists_congr fun p => and_congr_right fun _ => eq_comm

/-- The map holds the symbols of all positions: none of them has a security
    type to be told apart by. -/
theorem positionIn_isSome_iff (query : PositionQuery) (symbol : String) :
    (positionIn (getIbPositions query) symbol).isSome ↔ Reported query symbol := by
  rw [positionIn, List.find?_isSome]
  constructor
  · rintro ⟨q, hq, hmatch⟩
    obtain ⟨held, hquery, p, hp, rfl⟩ := mem_getIbPositions.mp (List.mem_reverse.mp hq)
    obtain ⟨hqty, -, hsymbol⟩ := of_decide_eq_true hmatch
    exact ⟨held, hquery, p, hp, hsymbol, hqty⟩
  · rintro ⟨held, hquery, p, hp, hsymbol, hqty⟩
    refine ⟨_, List.mem_reverse.mpr (mem_getIbPositions.mpr ⟨held, hquery, p, hp, rfl⟩), ?_⟩
    exact decide_eq_true ⟨hqty, rfl, hsymbol⟩

theorem positionIn_eq_none_iff (query : PositionQuery) (symbol : String) :
    positionIn (getIbPositions query) symbol = none ↔ ¬Reported query symbol := by
  rw [← positionIn_isSome_iff, Option.not_isSome_iff_eq_none]

/-- An event is published on a bot's turn exactly when bot and map disagree. -/
theorem checkBot_eq_some_iff (a : Account) (defn : BotDefinition) (e : Published) :
    checkBot a defn = some e ↔ e.bot = defn ∧
      ((Believes a defn .opened e.symbol ∧
          positionIn (getIbPositions a.query) e.symbol = none ∧ e.drift = .openToFlat) ∨
        (Believes a defn .flat e.symbol ∧
          ∃ p, positionIn (getIbPositions a.query) e.symbol = some p ∧
            e.drift = .flatToOpen p)) := by
  obtain ⟨bot, symbol, drift⟩ := e
  unfold checkBot Believes
  cases hdoc : a.docs defn.id with
  | none => simp
  | some current =>
    cases hrun : a.notRunning defn with
    | true => simp
    | false =>
      cases hview : fsmToPosState current.state <;>
        cases hpos : positionIn (getIbPositions a.query) (symbolOf defn current) <;>
        simp <;> grind

theorem mem_sanityCheck {a : Account} {e : Published} :
    e ∈ sanityCheck a ↔ ∃ defn ∈ a.checked, checkBot a defn = some e := List.mem_filterMap

/-- No event carries the field the filter looks at. -/
theorem not_passesFilter (host : String) (e : Published) :
    passesFilter host e.bot e.fields = false := by
  have hnoRef : orderRefOf e.fields = "" := by
    unfold Published.fields
    cases e.drift <;> rfl
  rw [passesFilter, hnoRef]
  simp [orderRefPrefix]

-- ============================================================================
-- When it is sound
-- ============================================================================

/-- What the bot believes is what the query reports, a failed query being one that
    reports nothing. -/
def Agrees (a : Account) (defn : BotDefinition) : Prop :=
  (∀ symbol, Believes a defn .opened symbol → Reported a.query symbol) ∧
    ∀ symbol, Believes a defn .flat symbol → ¬Reported a.query symbol

theorem checkBot_eq_none_iff (a : Account) (defn : BotDefinition) :
    checkBot a defn = none ↔ Agrees a defn := by
  rw [Option.eq_none_iff_forall_ne_some]
  constructor
  · intro hnone
    refine ⟨fun symbol hopen => ?_, fun symbol hflat => ?_⟩
    · by_contra hunreported
      refine hnone ⟨defn, symbol, .openToFlat⟩ ((checkBot_eq_some_iff a defn _).mpr ⟨rfl, .inl ?_⟩)
      exact ⟨hopen, (positionIn_eq_none_iff _ _).mpr hunreported, rfl⟩
    · intro hreported
      obtain ⟨p, hp⟩ := Option.isSome_iff_exists.mp ((positionIn_isSome_iff _ _).mpr hreported)
      refine hnone ⟨defn, symbol, .flatToOpen p⟩
        ((checkBot_eq_some_iff a defn _).mpr ⟨rfl, .inr ⟨hflat, p, hp, rfl⟩⟩)
  · rintro ⟨hopen, hflat⟩ e he
    obtain ⟨-, ⟨hbelieves, hpos, -⟩ | ⟨hbelieves, p, hpos, -⟩⟩ :=
      (checkBot_eq_some_iff a defn e).mp he
    · exact (positionIn_eq_none_iff _ _).mp hpos (hopen _ hbelieves)
    · exact hflat _ hbelieves ((positionIn_isSome_iff _ _).mp (by rw [hpos]; rfl))

/-- Nothing is published exactly when every bot agrees with the query. -/
theorem sanityCheck_eq_nil_iff (a : Account) :
    sanityCheck a = [] ↔ ∀ defn ∈ a.checked, Agrees a defn := by
  rw [sanityCheck, List.filterMap_eq_nil_iff]
  exact forall₂_congr fun defn _ => checkBot_eq_none_iff a defn

/-- What is published is delivered exactly when nothing is published. -/
theorem delivered_iff (host : String) (a : Account) : Delivered host a ↔ sanityCheck a = [] := by
  rw [List.eq_nil_iff_forall_not_mem]
  refine forall_congr' fun e => ?_
  simp [not_passesFilter]

/-- A bot is wrongly told it is flat exactly when the query failed. -/
theorem openToFlatSound_iff (a : Account) :
    OpenToFlatSound a ↔ (∃ held, a.query = .answered held) ∨
      ∀ defn ∈ a.checked, ∀ symbol, ¬Believes a defn .opened symbol := by
  constructor
  · intro hsound
    by_contra hnot
    push Not at hnot
    obtain ⟨hfailed, defn, hdefn, symbol, hopen⟩ := hnot
    have hunreported : ¬Reported a.query symbol := fun ⟨held, hquery, _⟩ => hfailed held hquery
    have hmem : ⟨defn, symbol, .openToFlat⟩ ∈ sanityCheck a :=
      mem_sanityCheck.mpr ⟨defn, hdefn, (checkBot_eq_some_iff a defn _).mpr
        ⟨rfl, .inl ⟨hopen, (positionIn_eq_none_iff _ _).mpr hunreported, rfl⟩⟩⟩
    obtain ⟨held, hquery, -⟩ := hsound _ hmem rfl
    exact hfailed held hquery
  · intro hcond e he hdrift
    obtain ⟨defn, hdefn, hcheck⟩ := mem_sanityCheck.mp he
    obtain ⟨-, ⟨hbelieves, hpos, -⟩ | ⟨-, p, -, hflat⟩⟩ := (checkBot_eq_some_iff a defn e).mp hcheck
    · rcases hcond with ⟨held, hquery⟩ | hnone
      · refine ⟨held, hquery, fun ⟨p, hp, hsymbol, _, hqty⟩ => ?_⟩
        exact (positionIn_eq_none_iff _ _).mp hpos ⟨held, hquery, p, hp, hsymbol, hqty⟩
      · exact absurd hbelieves (hnone defn hdefn _)
    · rw [hdrift] at hflat
      cases hflat

/-- A bot is wrongly told it holds a position exactly when what IB reports in its
    symbol is no stock. -/
theorem flatToOpenSound_iff (a : Account) :
    FlatToOpenSound a ↔ ∀ defn ∈ a.checked, ∀ symbol, Believes a defn .flat symbol →
      Reported a.query symbol → ∃ held, a.query = .answered held ∧ HoldsStock held symbol := by
  constructor
  · intro hsound defn hdefn symbol hflat hreported
    obtain ⟨p, hp⟩ := Option.isSome_iff_exists.mp ((positionIn_isSome_iff _ _).mpr hreported)
    have hmem : ⟨defn, symbol, .flatToOpen p⟩ ∈ sanityCheck a :=
      mem_sanityCheck.mpr ⟨defn, hdefn, (checkBot_eq_some_iff a defn _).mpr
        ⟨rfl, .inr ⟨hflat, p, hp, rfl⟩⟩⟩
    exact hsound _ hmem p rfl
  · intro hcond e he p hdrift
    obtain ⟨defn, hdefn, hcheck⟩ := mem_sanityCheck.mp he
    obtain ⟨-, ⟨-, -, hopen⟩ | ⟨hbelieves, q, hpos, -⟩⟩ := (checkBot_eq_some_iff a defn e).mp hcheck
    · rw [hdrift] at hopen
      cases hopen
    · refine hcond defn hdefn _ hbelieves ((positionIn_isSome_iff _ _).mp ?_)
      rw [hpos]
      rfl

/-- The check is sound and delivers exactly when it has nothing to publish; and its
    two verdicts by themselves are sound exactly when the query answered, and where
    what it reports for a flat bot is stock. -/
theorem sanityCheck_sound_iff (host : String) (a : Account) :
    ((OpenToFlatSound a ∧ FlatToOpenSound a ∧ Delivered host a) ↔
        ∀ defn ∈ a.checked, Agrees a defn) ∧
      (OpenToFlatSound a ↔ (∃ held, a.query = .answered held) ∨
        ∀ defn ∈ a.checked, ∀ symbol, ¬Believes a defn .opened symbol) ∧
      (FlatToOpenSound a ↔ ∀ defn ∈ a.checked, ∀ symbol, Believes a defn .flat symbol →
        Reported a.query symbol → ∃ held, a.query = .answered held ∧ HoldsStock held symbol) := by
  refine ⟨?_, openToFlatSound_iff a, flatToOpenSound_iff a⟩
  rw [← sanityCheck_eq_nil_iff, ← delivered_iff host]
  refine ⟨fun h => h.2.2, fun hdelivered => ⟨?_, ?_, hdelivered⟩⟩
  · intro e he
    rw [(delivered_iff host a).mp hdelivered] at he
    cases he
  · intro e he
    rw [(delivered_iff host a).mp hdelivered] at he
    cases he

/-- A running bot that holds a position while the query times out. -/
def heldWhileTimeout : Account where
  query := .timeout
  docs _ := some { state := some "AWAITING_EXIT_TRIGGER", symbol := some "QQQ" }
  registry := [{ id := "bot", name := "bot", strategyRef := "bot" }]
  raises _ := false

/-- It is told it is flat, though nobody knows. -/
theorem sanityCheck_sound_fails :
    ¬∀ (host : String) (a : Account),
      OpenToFlatSound a ∧ FlatToOpenSound a ∧ Delivered host a := by
  intro hall
  have hpublished : sanityCheck heldWhileTimeout =
      [{ bot := { id := "bot", name := "bot", strategyRef := "bot" }, symbol := "QQQ",
         drift := .openToFlat }] := by decide +kernel
  obtain ⟨held, hquery, -⟩ := (hall "host" heldWhileTimeout).1 _
    (hpublished ▸ List.mem_cons_self) rfl
  cases hquery

end IbTrader.Engine.Reconciler
