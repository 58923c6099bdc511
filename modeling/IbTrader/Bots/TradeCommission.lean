/-
  IbTrader.Bots.TradeCommission

  How the commission of a round trip gets into its `bot_trades` row.

  Three processes write it, each step of theirs a database operation of its own.
  The bot reads the serial numbers and the commissions of the two legs from their
  fill rows and inserts the row with their sum (`_handle_record_trade_closed`).  For
  every commission report the engine adds its amount to the fill rows of the order
  and then to the `bot_trades` rows with the serial of the order (`on_commission`).
  The daemon raises a row that carries less than its fill rows
  (`run_commission_reconciliation`).

  A leg is filled by one IB order or by several: a smart market order sends the rest
  as a market order, an exit is placed again.  What a report has done with is in the
  row once, so the row carries the sums of the reports that are through (`Balanced`).
  This is lost where a sum is read of fill
  rows that carry anything else: a report that has not come to the `bot_trades`
  rows yet, or the other leg's when both have one serial number.
-/

import IbTrader.Data.BotTrades
import IbTrader.Engine.Commission
import IbTrader.Lib.KeyedSum
import IbTrader.Lib.Run

namespace IbTrader.Bots.TradeCommission

open Lib Data

-- ============================================================================
-- The state
-- ============================================================================

/-- A commission report of IB. -/
structure Report where
  execId : String
  ibOrderId : ℤ
  commission : ℚ
  deriving DecidableEq, Repr

/-- An `on_commission` that has not updated a fill row yet. -/
structure Attempting where
  ibOrderId : ℤ
  commission : ℚ
  attemptsLeft : ℕ
  deriving DecidableEq, Repr

/-- An `on_commission` between `add_commission` and `add_commission_by_serial`. -/
structure Posting where
  ibOrderId : ℤ
  commission : ℚ
  deriving DecidableEq, Repr

/-- What `_handle_record_trade_closed` is given about the two legs. -/
structure RecordArgs where
  symbol : String
  botId : String := ""
  entryIbOrderId : ℤ
  exitIbOrderId : ℤ
  entrySerial : Option ℤ := none
  exitSerial : Option ℤ := none

inductive Leg where
  | entry
  | exit
  deriving DecidableEq, Repr

/-- A round trip, with the IB orders its legs have beside those the handler is given:
    the market order for the rest of a smart market order, an exit placed again. -/
structure RoundTrip extends RecordArgs where
  furtherEntries : List ℤ := []
  furtherExits : List ℤ := []
  entry_pos : ∀ id ∈ entryIbOrderId :: furtherEntries, 0 < id
  exit_pos : ∀ id ∈ exitIbOrderId :: furtherExits, 0 < id
  distinct : ∀ id ∈ entryIbOrderId :: furtherEntries, id ∉ exitIbOrderId :: furtherExits

/-- The IB orders of a leg. -/
def RoundTrip.orders (trip : RoundTrip) : Leg → List ℤ
  | .entry => trip.entryIbOrderId :: trip.furtherEntries
  | .exit => trip.exitIbOrderId :: trip.furtherExits

/-- The leg an IB order belongs to. -/
def RoundTrip.legOf (trip : RoundTrip) (id : ℤ) : Option Leg :=
  if id ∈ trip.orders .entry then some .entry
  else if id ∈ trip.orders .exit then some .exit
  else none

/-- How far the row has come. -/
inductive Creation where
  | started
  | entryResolved (entrySerial : Option ℤ)
  | resolved (entrySerial exitSerial : Option ℤ)
  | entrySummed (entrySerial exitSerial : Option ℤ) (seeded : ℚ)
  | summed (entrySerial exitSerial : Option ℤ) (seeded : ℚ)
  | created (row : BotTrade)
  deriving DecidableEq, Repr

structure State where
  /-- The `transactions` table. -/
  rows : List LedgerRow := []
  /-- The reports the client has seen. -/
  reports : List Report := []
  attempting : List Attempting := []
  posting : List Posting := []
  creation : Creation := .started
  /-- The sum the daemon has read for the row and is about to write. -/
  sweeping : Option ℚ := none
  deriving DecidableEq, Repr

-- ============================================================================
-- `on_commission`
-- ============================================================================

/-- `_on_commission_report`: a report seen before is dropped, a new one starts
    `on_commission`, which returns at once for an order that is not ours or without
    a commission. -/
def commissionReport (s : State) (r : Report) : State :=
  if r.execId ≠ "" ∧ r.execId ∈ s.reports.map (·.execId) then s
  else if r.commission = 0 ∨ r.ibOrderId ≤ 0 then { s with reports := s.reports ++ [r] }
  else
    { s with
      reports := s.reports ++ [r]
      attempting := s.attempting ++ [⟨r.ibOrderId, r.commission, Engine.Commission.attempts⟩] }

/-- An attempt finds no fill row and is the last one. -/
def GivesUp (s : State) (c : Attempting) : Prop :=
  c ∈ s.attempting ∧ (addCommission s.rows c.ibOrderId c.commission).2 = 0 ∧ c.attemptsLeft ≤ 1

instance (s : State) (c : Attempting) : Decidable (GivesUp s c) := by
  unfold GivesUp; infer_instance

/-- An attempt to update the fill rows of the order. -/
def attempt (s : State) (c : Attempting) : State :=
  if c ∈ s.attempting then
    let updated := addCommission s.rows c.ibOrderId c.commission
    if updated.2 = 0 then
      if c.attemptsLeft ≤ 1 then { s with attempting := s.attempting.erase c }
      else
        { s with
          attempting := { c with attemptsLeft := c.attemptsLeft - 1 } :: s.attempting.erase c }
    else
      { s with
        rows := updated.1
        attempting := s.attempting.erase c
        posting := s.posting ++ [⟨c.ibOrderId, c.commission⟩] }
  else s

/-- `add_commission_by_serial`, on the row if it is there. -/
def Creation.addCommissionBySerial (serial : Option ℤ) (delta : ℚ) : Creation → Creation
  | .created row =>
    match serial with
    | some serial => .created (row.addCommissionBySerial serial delta)
    | none => .created row
  | creation => creation

/-- The rest of `on_commission`, with the serial of the order's first fill row. -/
def post (s : State) (d : Posting) : State :=
  if d ∈ s.posting then
    { s with
      posting := s.posting.erase d
      creation := s.creation.addCommissionBySerial (tradeSerialOf s.rows d.ibOrderId) d.commission }
  else s

-- ============================================================================
-- `_handle_record_trade_closed`
-- ============================================================================

/-- `_resolve_trade_serial(..) or args.get(..)`. -/
def resolveSerial (rows : List LedgerRow) (id : ℤ) (given : Option ℤ) : Option ℤ :=
  match tradeSerialOf rows id with
  | some serial => if serial = 0 then given else some serial
  | none => given

/-- The commission of a leg's fill rows; nothing without a serial. -/
def seedOf (rows : List LedgerRow) (serial : Option ℤ) : ℚ :=
  match serial with
  | some serial => sumCommissionForTradeSerial rows serial
  | none => 0

/-- The next database operation of the handler. -/
def recordNext (args : RecordArgs) (rows : List LedgerRow) (now : ℚ) : Creation → Creation
  | .started => .entryResolved (resolveSerial rows args.entryIbOrderId args.entrySerial)
  | .entryResolved entrySerial =>
    .resolved entrySerial (resolveSerial rows args.exitIbOrderId args.exitSerial)
  | .resolved entrySerial exitSerial =>
    .entrySummed entrySerial exitSerial (seedOf rows entrySerial)
  | .entrySummed entrySerial exitSerial seeded =>
    .summed entrySerial exitSerial (seeded + seedOf rows exitSerial)
  | .summed entrySerial exitSerial seeded =>
    .created {
      botId := args.botId
      symbol := args.symbol
      exitTime := some now
      commission := seeded
      entrySerial
      exitSerial }
  | .created row => .created row

/-- A sum raises: the row is inserted with what has been summed. -/
def seedRaises : Creation → Creation
  | .resolved entrySerial exitSerial => .summed entrySerial exitSerial 0
  | .entrySummed entrySerial exitSerial seeded => .summed entrySerial exitSerial seeded
  | creation => creation

-- ============================================================================
-- `run_commission_reconciliation`
-- ============================================================================

/-- What one sweep reads beside the tables. -/
structure Sweep where
  now : ℚ
  lookbackHours : ℚ := 24
  skipBotIds : List String := []
  deriving DecidableEq, Repr

/-- The sum a sweep is going to write to the row, if it exceeds what is there. -/
def sweepSum (rows : List LedgerRow) (sweep : Sweep) (row : BotTrade) : Option ℚ :=
  if row.undercommissioned sweep.now sweep.lookbackHours sweep.skipBotIds then
    match row.exitTime with
    | none => none
    | some exitTime =>
      if row.serials = [] then none
      else
        let summed := sumCommissionBetween rows row.serials (exitTime - 3600) (exitTime + 3600)
        if row.commission < summed then some summed else none
  else none

/-- The sweep reads the row and its fill rows. -/
def sweepRead (s : State) (sweep : Sweep) : State :=
  match s.creation with
  | .created row => { s with sweeping := sweepSum s.rows sweep row }
  | _ => s

/-- The sweep writes. -/
def sweepWrite (s : State) : State :=
  match s.creation, s.sweeping with
  | .created row, some summed =>
    { s with creation := .created (row.updateCommissionIfHigher summed), sweeping := none }
  | _, _ => s

-- ============================================================================
-- Runs
-- ============================================================================

inductive Event where
  /-- The engine writes a row. -/
  | insertRow (t : LedgerRow)
  | commissionReport (r : Report)
  | attempt (c : Attempting)
  | post (d : Posting)
  | record (now : ℚ)
  | seedRaises
  | sweepRead (sweep : Sweep)
  | sweepWrite
  deriving DecidableEq, Repr

/-- One database operation, or the arrival of a report. -/
def step (trip : RoundTrip) (s : State) : Event → State
  | .insertRow t => { s with rows := insertAll s.rows [t] }
  | .commissionReport r => commissionReport s r
  | .attempt c => attempt s c
  | .post d => post s d
  | .record now => { s with creation := recordNext trip.toRecordArgs s.rows now s.creation }
  | .seedRaises => { s with creation := seedRaises s.creation }
  | .sweepRead sweep => sweepRead s sweep
  | .sweepWrite => sweepWrite s

/-- A run from before the first order. -/
def run (trip : RoundTrip) (events : List Event) : State := events.foldl (step trip) {}

-- ============================================================================
-- The balance
-- ============================================================================

/-- An order of the round trip. -/
def RoundTrip.isLeg (trip : RoundTrip) (id : ℤ) : Prop := (trip.legOf id).isSome = true

instance (trip : RoundTrip) (id : ℤ) : Decidable (trip.isLeg id) := by
  unfold RoundTrip.isLeg; infer_instance

/-- The sum of the distinct reports of a leg's orders so far. -/
def reported (trip : RoundTrip) (s : State) (leg : Leg) : ℚ :=
  keyedSum (fun r => trip.legOf r.ibOrderId) (·.commission) (some leg) s.reports

/-- What `on_commission` still has to bring to the `bot_trades` rows. -/
def owed (trip : RoundTrip) (s : State) (leg : Leg) : ℚ :=
  keyedSum (fun c => trip.legOf c.ibOrderId) (·.commission) (some leg) s.attempting +
    keyedSum (fun d => trip.legOf d.ibOrderId) (·.commission) (some leg) s.posting

/-- The sum of the reports of a leg's orders that are through. -/
def through (trip : RoundTrip) (s : State) (leg : Leg) : ℚ := reported trip s leg - owed trip s leg

/-- The sum of the leg is in what the handler has read. -/
def Creation.hasRead (trip : RoundTrip) (id : ℤ) : Creation → Prop
  | .entrySummed .. => trip.legOf id = some .entry
  | .summed .. | .created _ => trip.isLeg id
  | _ => False

instance (trip : RoundTrip) (id : ℤ) (creation : Creation) :
    Decidable (creation.hasRead trip id) := by
  cases creation <;> unfold Creation.hasRead <;> infer_instance

/-- What the handler has read, and then the row, is what is through. -/
def Balanced (trip : RoundTrip) (s : State) : Prop :=
  match s.creation with
  | .entrySummed _ _ seeded => seeded = through trip s .entry
  | .summed _ _ seeded => seeded = through trip s .entry + through trip s .exit
  | .created row =>
    row.commission = through trip s .entry + through trip s .exit
  | _ => True

/-- When a step keeps the balance.  The fill rows with a leg's serial carry, when the
    bot sums them, exactly the leg's reports that are through.  From then on no
    report of the leg is given up, and none comes to the `bot_trades` rows before the
    row is there.  The reports of the legs, and no others, find the row.  A sweep has
    read no more than the row carries by the time it writes. -/
def Settled (trip : RoundTrip) (s : State) : Event → Prop
  | .attempt c => GivesUp s c → ¬s.creation.hasRead trip c.ibOrderId
  | .post d => d ∈ s.posting →
    match s.creation with
    | .created row =>
      (tradeSerialOf s.rows d.ibOrderId).any row.hasSerial = true ↔ trip.isLeg d.ibOrderId
    | creation => ¬creation.hasRead trip d.ibOrderId
  | .record _ =>
    match s.creation with
    | .resolved entrySerial _ => seedOf s.rows entrySerial = through trip s .entry
    | .entrySummed _ exitSerial _ => seedOf s.rows exitSerial = through trip s .exit
    | _ => True
  | .seedRaises =>
    match s.creation with
    | .resolved .. => through trip s .entry + through trip s .exit = 0
    | .entrySummed .. => through trip s .exit = 0
    | _ => True
  | .sweepWrite =>
    match s.creation, s.sweeping with
    | .created row, some summed => summed ≤ row.commission
    | _, _ => True
  | .insertRow _ | .commissionReport _ | .sweepRead _ => True

instance (trip : RoundTrip) (s : State) (e : Event) : Decidable (Settled trip s e) := by
  rcases s with ⟨rows, reports, attempting, posting, creation, sweeping⟩
  cases e <;> cases creation <;> cases sweeping <;> unfold Settled <;> dsimp only <;> infer_instance

/-- The reports in flight carry something. -/
structure CallbacksNonzero (s : State) : Prop where
  attempting : ∀ c ∈ s.attempting, c.commission ≠ 0
  posting : ∀ d ∈ s.posting, d.commission ≠ 0

section Through

variable {trip : RoundTrip} {s s' : State}

/-- The orders of the legs are the bot's. -/
theorem RoundTrip.isLeg_pos {id : ℤ} (h : trip.isLeg id) : 0 < id := by
  unfold RoundTrip.isLeg RoundTrip.legOf at h
  split at h
  case isTrue hentry => exact trip.entry_pos id hentry
  case isFalse =>
    split at h
    case isTrue hexit => exact trip.exit_pos id hexit
    case isFalse => exact absurd h Bool.false_ne_true

theorem RoundTrip.isLeg_of_legOf {id : ℤ} {leg : Leg} (h : trip.legOf id = some leg) :
    trip.isLeg id := by
  rw [RoundTrip.isLeg, h, Option.isSome_some]

/-- A report is owed as soon as it is reported. -/
theorem through_commissionReport (r : Report) (leg : Leg) :
    through trip (commissionReport s r) leg = through trip s leg := by
  unfold commissionReport
  split
  · rfl
  · split
    case isTrue hnone =>
      have hzero : (if trip.legOf r.ibOrderId = some leg then r.commission else 0) = 0 := by
        rcases hnone with hzero | hle
        · rw [hzero, ite_self]
        · exact if_neg fun hleg => hle.not_gt (trip.isLeg_pos (trip.isLeg_of_legOf hleg))
      simp [through, reported, owed, hzero]
    case isFalse =>
      simp only [through, reported, owed, keyedSum_append, keyedSum_cons, keyedSum_nil, add_zero]
      ring

/-- Only a report that is given up is through by an attempt. -/
theorem through_attempt (c : Attempting) (leg : Leg) :
    through trip (attempt s c) leg =
      through trip s leg +
        if GivesUp s c ∧ trip.legOf c.ibOrderId = some leg then c.commission else 0 := by
  unfold attempt GivesUp
  by_cases hc : c ∈ s.attempting
  · rw [if_pos hc]
    dsimp only
    by_cases hrows : (addCommission s.rows c.ibOrderId c.commission).2 = 0
    · rw [if_pos hrows]
      by_cases hlast : c.attemptsLeft ≤ 1
      · rw [if_pos hlast]
        simp only [through, reported, owed, keyedSum_erase hc, hc, hrows, hlast, true_and]
        ring
      · rw [if_neg hlast, if_neg fun h => hlast h.1.2.2]
        simp only [through, reported, owed, keyedSum_cons, keyedSum_erase hc]
        ring
    · rw [if_neg hrows, if_neg fun h => hrows h.1.2.1]
      simp only [through, reported, owed, keyedSum_append, keyedSum_cons, keyedSum_nil,
        keyedSum_erase hc]
      ring
  · rw [if_neg hc, if_neg fun h => hc h.1.1, add_zero]

/-- A report that comes to the `bot_trades` rows is through. -/
theorem through_post {d : Posting} (hd : d ∈ s.posting) (leg : Leg) :
    through trip (post s d) leg =
      through trip s leg + if trip.legOf d.ibOrderId = some leg then d.commission else 0 := by
  unfold post
  rw [if_pos hd]
  simp only [through, reported, owed, keyedSum_erase hd]
  ring

/-- The amount of an order counts for the legs once, if it is of one of them. -/
theorem leg_amount (trip : RoundTrip) (id : ℤ) (amount : ℚ) :
    (if trip.legOf id = some .entry then amount else 0) +
      (if trip.legOf id = some .exit then amount else 0) = if trip.isLeg id then amount else 0 := by
  cases hleg : trip.legOf id with
  | none => simp [RoundTrip.isLeg, hleg]
  | some leg => cases leg <;> simp [RoundTrip.isLeg, hleg]

/-- The balance looks at the row and at what is through of the legs. -/
theorem balanced_congr (hcreation : s'.creation = s.creation)
    (hthrough : ∀ leg, through trip s' leg = through trip s leg) :
    Balanced trip s' ↔ Balanced trip s := by
  unfold Balanced
  rw [hcreation, hthrough, hthrough]

/-- An amount that is through without the row is missing exactly if it has been
    read for. -/
theorem balanced_add_iff (hcreation : s'.creation = s.creation) {id : ℤ} {amount : ℚ}
    (hamount : amount ≠ 0)
    (hthrough : ∀ leg, through trip s' leg =
      through trip s leg + if trip.legOf id = some leg then amount else 0)
    (h : Balanced trip s) : Balanced trip s' ↔ ¬s.creation.hasRead trip id := by
  have hlegs : through trip s' .entry + through trip s' .exit =
      through trip s .entry + through trip s .exit +
        if trip.isLeg id then amount else 0 := by
    rw [hthrough, hthrough, ← leg_amount]
    ring
  have hmissing (p : Prop) [Decidable p] : (if p then amount else 0) = 0 ↔ ¬p := by
    rw [ite_eq_right_iff, imp_iff_not hamount]
  unfold Balanced at h ⊢
  rw [hcreation]
  cases hstage : s.creation with
  | started | entryResolved | resolved => exact ⟨fun _ hread => hread, fun _ => trivial⟩
  | entrySummed =>
    rw [hstage] at h
    dsimp only at h ⊢
    rw [hthrough, h, left_eq_add]
    exact hmissing _
  | summed | created =>
    rw [hstage] at h
    dsimp only at h ⊢
    rw [hlegs, h, left_eq_add]
    exact hmissing _

theorem CallbacksNonzero.step (h : CallbacksNonzero s) (e : Event) :
    CallbacksNonzero (step trip s e) := by
  cases e with
  | insertRow t | record now | seedRaises => exact ⟨h.attempting, h.posting⟩
  | commissionReport r =>
    show CallbacksNonzero (commissionReport s r)
    unfold commissionReport
    split
    · exact h
    · split
      · exact ⟨h.attempting, h.posting⟩
      case isFalse hsome =>
        refine ⟨fun c hc => ?_, h.posting⟩
        rcases List.mem_append.mp hc with hc | hc
        · exact h.attempting c hc
        · rw [List.mem_singleton.mp hc]
          exact fun hzero => hsome (.inl hzero)
  | attempt c =>
    show CallbacksNonzero (TradeCommission.attempt s c)
    have hrest : ∀ c' ∈ s.attempting.erase c, c'.commission ≠ 0 :=
      fun c' hc' => h.attempting c' (List.mem_of_mem_erase hc')
    unfold TradeCommission.attempt
    split
    case isTrue hc =>
      dsimp only
      split
      · split
        · exact ⟨hrest, h.posting⟩
        · refine ⟨fun c' hc' => ?_, h.posting⟩
          rcases List.mem_cons.mp hc' with rfl | hc'
          · exact h.attempting c hc
          · exact hrest c' hc'
      · refine ⟨hrest, fun d hd => ?_⟩
        rcases List.mem_append.mp hd with hd | hd
        · exact h.posting d hd
        · rw [List.mem_singleton.mp hd]
          exact h.attempting c hc
    case isFalse => exact h
  | post d =>
    show CallbacksNonzero (TradeCommission.post s d)
    unfold TradeCommission.post
    split
    · exact ⟨h.attempting, fun d' hd' => h.posting d' (List.mem_of_mem_erase hd')⟩
    · exact h
  | sweepRead sweep =>
    show CallbacksNonzero (TradeCommission.sweepRead s sweep)
    unfold TradeCommission.sweepRead
    split <;> exact ⟨h.attempting, h.posting⟩
  | sweepWrite =>
    show CallbacksNonzero (TradeCommission.sweepWrite s)
    unfold TradeCommission.sweepWrite
    split <;> exact ⟨h.attempting, h.posting⟩

end Through

-- ============================================================================
-- One step
-- ============================================================================

section Step

variable {trip : RoundTrip} {s : State}

theorem balanced_attempt_iff (hne : CallbacksNonzero s) (h : Balanced trip s) (c : Attempting) :
    Balanced trip (attempt s c) ↔ (GivesUp s c → ¬s.creation.hasRead trip c.ibOrderId) := by
  have hcreation : (attempt s c).creation = s.creation := by
    unfold attempt
    split
    · dsimp only
      split
      · split <;> rfl
      · rfl
    · rfl
  by_cases hgives : GivesUp s c
  · have hamount := hne.attempting c hgives.1
    rw [balanced_add_iff hcreation hamount (fun leg => ?_) h]
    · exact ⟨fun hnot _ => hnot, fun himp => himp hgives⟩
    · rw [through_attempt]
      simp only [hgives, true_and]
  · rw [balanced_congr hcreation fun leg => ?_]
    · exact ⟨fun _ hno => absurd hno hgives, fun _ => h⟩
    · rw [through_attempt, if_neg fun hno => hgives hno.1, add_zero]

/-- What `add_commission_by_serial` does to the row. -/
theorem addCommissionBySerial_created (row : BotTrade) (serial : Option ℤ) (delta : ℚ) :
    (Creation.created row).addCommissionBySerial serial delta =
      .created (if serial.any row.hasSerial = true then
        { row with commission := row.commission + delta } else row) := by
  cases serial with
  | none => rfl
  | some serial => rfl

theorem balanced_post_iff (hne : CallbacksNonzero s) (h : Balanced trip s) (d : Posting) :
    Balanced trip (post s d) ↔ Settled trip s (.post d) := by
  unfold Settled
  by_cases hd : d ∈ s.posting
  · have hamount := hne.posting d hd
    have hthrough := @through_post trip s d hd
    cases hstage : s.creation with
    | started | entryResolved | resolved | entrySummed | summed =>
      have hcreation : (post s d).creation = s.creation := by
        unfold post
        rw [if_pos hd, hstage]
        rfl
      rw [balanced_add_iff hcreation hamount hthrough h, hstage]
      exact ⟨fun hnot _ => hnot, fun himp => himp hd⟩
    | created row =>
      have hlegs : through trip (post s d) .entry + through trip (post s d) .exit =
          through trip s .entry + through trip s .exit +
            if trip.isLeg d.ibOrderId then d.commission else 0 := by
        rw [hthrough, hthrough, ← leg_amount]
        ring
      have hcreation : (post s d).creation = .created
          (if (tradeSerialOf s.rows d.ibOrderId).any row.hasSerial = true then
            { row with commission := row.commission + d.commission } else row) := by
        unfold post
        rw [if_pos hd, hstage]
        exact addCommissionBySerial_created _ _ _
      unfold Balanced at h ⊢
      rw [hstage] at h
      dsimp only at h
      rw [hcreation]
      dsimp only
      rw [hlegs, ← h, imp_iff_right hd]
      by_cases hfinds : (tradeSerialOf s.rows d.ibOrderId).any row.hasSerial = true <;>
        by_cases hleg : trip.isLeg d.ibOrderId <;>
        simp [hfinds, hleg, hamount]
  · have hsame : post s d = s := if_neg hd
    rw [hsame]
    exact ⟨fun _ hno => absurd hno hd, fun _ => h⟩

theorem balanced_record_iff (h : Balanced trip s) (now : ℚ) :
    Balanced trip (step trip s (.record now)) ↔ Settled trip s (.record now) := by
  show Balanced trip { s with creation := recordNext trip.toRecordArgs s.rows now s.creation } ↔ _
  unfold Balanced Settled at *
  cases hstage : s.creation with
  | started | entryResolved => exact Iff.rfl
  | resolved entrySerial exitSerial => exact Iff.rfl
  | entrySummed entrySerial exitSerial seeded =>
    rw [hstage] at h
    dsimp only [recordNext] at h ⊢
    rw [h]
    exact add_right_inj (through trip s .entry)
  | summed entrySerial exitSerial seeded =>
    rw [hstage] at h
    exact iff_of_true h trivial
  | created row =>
    rw [hstage] at h
    exact iff_of_true h trivial

theorem balanced_seedRaises_iff (h : Balanced trip s) :
    Balanced trip (step trip s .seedRaises) ↔ Settled trip s .seedRaises := by
  show Balanced trip { s with creation := seedRaises s.creation } ↔ _
  unfold Balanced Settled at *
  cases hstage : s.creation with
  | started | entryResolved => exact Iff.rfl
  | resolved entrySerial exitSerial => exact eq_comm
  | entrySummed entrySerial exitSerial seeded =>
    rw [hstage] at h
    dsimp only [seedRaises] at h ⊢
    rw [h]
    exact left_eq_add
  | summed entrySerial exitSerial seeded | created row =>
    rw [hstage] at h
    exact iff_of_true h trivial

theorem balanced_sweepWrite_iff (h : Balanced trip s) :
    Balanced trip (sweepWrite s) ↔ Settled trip s .sweepWrite := by
  unfold Settled sweepWrite
  cases hstage : s.creation with
  | created row =>
    cases s.sweeping with
    | none => exact iff_of_true h trivial
    | some summed =>
      unfold Balanced at h ⊢
      rw [hstage] at h
      dsimp only at h ⊢
      unfold BotTrade.updateCommissionIfHigher
      by_cases hle : summed ≤ row.commission
      · rw [if_pos hle]
        exact iff_of_true h hle
      · rw [if_neg hle]
        refine iff_of_false (fun hsame => hle ?_) hle
        exact (hsame.trans h.symm).le
  | _ => exact iff_of_true h trivial

/-- A step keeps the balance exactly when it is settled. -/
theorem balanced_step_iff (hne : CallbacksNonzero s) (h : Balanced trip s) (e : Event) :
    Balanced trip (step trip s e) ↔ Settled trip s e := by
  cases e with
  | insertRow t => exact iff_of_true h trivial
  | commissionReport r =>
    have hcreation : (commissionReport s r).creation = s.creation := by
      unfold commissionReport
      split
      · rfl
      · split <;> rfl
    exact iff_of_true ((balanced_congr hcreation fun leg => through_commissionReport r leg).mpr h)
      trivial
  | attempt c => exact balanced_attempt_iff hne h c
  | post d => exact balanced_post_iff hne h d
  | record now => exact balanced_record_iff h now
  | seedRaises => exact balanced_seedRaises_iff h
  | sweepRead sweep =>
    refine iff_of_true ?_ trivial
    show Balanced trip (sweepRead s sweep)
    unfold sweepRead
    split <;> exact h
  | sweepWrite => exact balanced_sweepWrite_iff h

end Step

-- ============================================================================
-- Commission of a round trip
-- ============================================================================

/-- The balance holds in every state of exactly the runs of settled steps. -/
theorem balanced_throughout_iff (trip : RoundTrip) (events : List Event) :
    (∀ sofar, sofar <+: events → Balanced trip (run trip sofar)) ↔
      Along (step trip) (Settled trip) {} events := by
  refine Along.iff_forall_prefix (I := CallbacksNonzero) (fun _ e hne => hne.step e)
    (fun _ e hne h => balanced_step_iff hne h e) events ?_ ?_
  · exact ⟨fun _ hc => absurd hc List.not_mem_nil, fun _ hd => absurd hd List.not_mem_nil⟩
  · exact trivial

/-- The reports of the legs that have arrived are processed. -/
def Processed (trip : RoundTrip) (s : State) : Prop :=
  (∀ c ∈ s.attempting, ¬trip.isLeg c.ibOrderId) ∧ ∀ d ∈ s.posting, ¬trip.isLeg d.ibOrderId

instance (trip : RoundTrip) (s : State) : Decidable (Processed trip s) := by
  unfold Processed; infer_instance

theorem through_of_processed {trip : RoundTrip} {s : State} (h : Processed trip s) (leg : Leg) :
    through trip s leg = reported trip s leg := by
  have howed : owed trip s leg = 0 := by
    unfold owed
    rw [keyedSum_eq_zero, keyedSum_eq_zero, add_zero]
    · exact fun d hd hleg => h.2 d hd (trip.isLeg_of_legOf hleg)
    · exact fun c hc hleg => h.1 c hc (trip.isLeg_of_legOf hleg)
  rw [through, howed, sub_zero]

/-- An entry that went out as a smart market order, the rest of it as order 103, and an
    exit. -/
def roundTrip : RoundTrip where
  symbol := "MGCQ6"
  entryIbOrderId := 101
  exitIbOrderId := 102
  furtherEntries := [103]
  entry_pos := by decide
  exit_pos := by decide
  distinct := by decide

/-- A fill row of a leg. -/
def legRow (id serial : ℤ) : LedgerRow where
  ibOrderId := some id
  action := .filled
  tradeSerial := some serial
  requestedAt := 0
  isTerminal := true

/-- The report of the rest finds no row of its order and is given up: its amount comes
    with the row of order 101.  The report of order 101 is through before the row is
    inserted, the exit's arrives afterwards, and a sweep meets it halfway. -/
def exitReportedLate : List Event :=
  [.commissionReport ⟨"m1", 103, 1⟩, .attempt ⟨103, 1, 7⟩, .attempt ⟨103, 1, 6⟩,
    .attempt ⟨103, 1, 5⟩, .attempt ⟨103, 1, 4⟩, .attempt ⟨103, 1, 3⟩, .attempt ⟨103, 1, 2⟩,
    .attempt ⟨103, 1, 1⟩, .insertRow { legRow 101 7 with commission := some 1 },
    .commissionReport ⟨"e1", 101, 1⟩, .attempt ⟨101, 1, 7⟩, .post ⟨101, 1⟩,
    .insertRow (legRow 102 8), .record 10, .record 10, .record 10, .record 10, .record 10,
    .commissionReport ⟨"e2", 102, 1⟩, .attempt ⟨102, 1, 7⟩, .sweepRead { now := 20 },
    .post ⟨102, 1⟩, .sweepWrite]

end IbTrader.Bots.TradeCommission
