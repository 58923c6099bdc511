/-
  IbTrader.Engine.PartialRecords

  What is recorded of an order whose rest is cancelled (`ib_trader/engine/order.py`).

  `_cancel_and_await_resolution` reads the status of the order again and again until it
  shows a full fill or a cancel, and once more when its time is up.  Only the readings in
  time can say that the order is filled: a fill that shows in the last reading alone is
  recorded as a partial one, whatever its quantity (`partial_records_iff`).
-/

import IbTrader.Engine.FillEntries

namespace IbTrader.Engine.OrderFlow

open Lib Fallible Data Closing
open SmartMarket (OrderStatus)

-- ============================================================================
-- The wait for the cancel
-- ============================================================================

/-- A round of the wait: the status, and the track's flag read after it. -/
structure SettleRound where
  status : OrderStatus
  isCanceled : Bool := false
  deriving DecidableEq, Repr

/-- What a wait reads: its rounds before the deadline, and the status read when there is no
    time left, or what is raised after these rounds. -/
structure SettleWait where
  rounds : List SettleRound := []
  last : Except Raised OrderStatus

/-- What is returned of a status. -/
def settledAs (resolution : Resolution) (status : OrderStatus) : Settlement where
  resolution := resolution
  qty := status.qtyFilled
  avgPrice := status.avgFillPrice
  commission := status.commission.getD 0

/-- The loop of `_cancel_and_await_resolution` and what follows it. -/
def awaitResolution (targetQty : ℚ) : List SettleRound → Except Raised OrderStatus → Except Raised Settlement
  | [], last => last.map (settledAs .timeout)
  | round :: rounds, last =>
    if targetQty ≤ round.status.qtyFilled then .ok (settledAs .filled round.status)
    else if round.status.status ∈ ["Cancelled", "Inactive"] then .ok (settledAs .cancelled round.status)
    else if round.isCanceled then .ok (settledAs .cancelled round.status)
    else awaitResolution targetQty rounds last

def SettleWait.settle (wait : SettleWait) (targetQty : ℚ) : Except Raised Settlement :=
  awaitResolution targetQty wait.rounds wait.last

/-- The round ends the wait. -/
def SettleRound.Resolves (round : SettleRound) (targetQty : ℚ) : Prop :=
  targetQty ≤ round.status.qtyFilled ∨ round.status.status ∈ ["Cancelled", "Inactive"] ∨ round.isCanceled = true

instance (round : SettleRound) (targetQty : ℚ) : Decidable (round.Resolves targetQty) := by
  unfold SettleRound.Resolves; infer_instance

/-- The reading with which a wait ends. -/
def endReading (targetQty : ℚ) : List SettleRound → Except Raised OrderStatus → Except Raised SettleReading
  | [], last => last.map fun status => { timedOut := true, status }
  | round :: rounds, last =>
    if round.Resolves targetQty then .ok { status := round.status, isCanceled := round.isCanceled }
    else endReading targetQty rounds last

def SettleWait.reading (wait : SettleWait) (targetQty : ℚ) : Except Raised SettleReading :=
  endReading targetQty wait.rounds wait.last

/-- The statuses the wait has read when it ends. -/
def statusesRead (targetQty : ℚ) : List SettleRound → Except Raised OrderStatus → List OrderStatus
  | [], .ok status => [status]
  | [], .error _ => []
  | round :: rounds, last =>
    round.status :: if round.Resolves targetQty then [] else statusesRead targetQty rounds last

/-- IB has reported the quantity while the wait lasted. -/
def SettleWait.Reached (wait : SettleWait) (targetQty : ℚ) : Prop :=
  ∃ status ∈ statusesRead targetQty wait.rounds wait.last, targetQty ≤ status.qtyFilled

/-- The time is up with nothing resolved, and the status read then reports the quantity. -/
def SettleWait.FilledLate (wait : SettleWait) (targetQty : ℚ) : Prop :=
  (∀ round ∈ wait.rounds, ¬ round.Resolves targetQty) ∧
    ∃ status, wait.last = .ok status ∧ targetQty ≤ status.qtyFilled

section Wait

variable {wait : SettleWait} {targetQty : ℚ} {round : SettleRound}

/-- A round that resolves nothing is followed by the rest of the wait. -/
theorem awaitResolution_of_not (h : ¬ round.Resolves targetQty) (rounds : List SettleRound)
    (last : Except Raised OrderStatus) :
    awaitResolution targetQty (round :: rounds) last = awaitResolution targetQty rounds last := by
  have hfull : ¬ targetQty ≤ round.status.qtyFilled := fun hfull => h (.inl hfull)
  have hstatus : round.status.status ∉ ["Cancelled", "Inactive"] := fun hstatus => h (.inr (.inl hstatus))
  have hflag : ¬ round.isCanceled = true := fun hflag => h (.inr (.inr hflag))
  show (if _ then _ else _) = _
  rw [if_neg hfull, if_neg hstatus, if_neg hflag]

/-- A round that resolves ends the wait, as a full fill where it shows one. -/
theorem awaitResolution_of_resolves (h : round.Resolves targetQty) (rounds : List SettleRound)
    (last : Except Raised OrderStatus) :
    awaitResolution targetQty (round :: rounds) last = .ok
      (settledAs (if targetQty ≤ round.status.qtyFilled then .filled else .cancelled) round.status) := by
  show (if _ then _ else _) = _
  by_cases hfull : targetQty ≤ round.status.qtyFilled
  · rw [if_pos hfull, if_pos hfull]
  · rw [if_neg hfull, if_neg hfull]
    rcases h.resolve_left hfull with hstatus | hflag
    · rw [if_pos hstatus]
    · rw [if_pos hflag, ite_self]

/-- The settlement of the reading that ends the wait is what the loop returns. -/
theorem settlement_reading (wait : SettleWait) (targetQty : ℚ) :
    (wait.reading targetQty).map (·.settlement targetQty) = wait.settle targetQty := by
  obtain ⟨rounds, last⟩ := wait
  show (endReading targetQty rounds last).map _ = awaitResolution targetQty rounds last
  induction rounds with
  | nil => cases last <;> rfl
  | cons round rounds ih =>
    unfold endReading
    by_cases hresolves : round.Resolves targetQty
    · rw [if_pos hresolves, awaitResolution_of_resolves hresolves]
      show Except.ok (SettleReading.settlement _ targetQty) = _
      unfold SettleReading.settlement
      by_cases hfull : targetQty ≤ round.status.qtyFilled
      · rw [if_neg Bool.false_ne_true, if_pos hfull, if_pos hfull]
        rfl
      · rw [if_neg Bool.false_ne_true, if_neg hfull, if_neg hfull, if_pos (hresolves.resolve_left hfull)]
        rfl
    · rw [if_neg hresolves, awaitResolution_of_not hresolves]
      exact ih

/-- A wait that is filled late ends without a full fill. -/
theorem SettleWait.FilledLate.not_filled (h : wait.FilledLate targetQty) :
    ¬ ∃ s, wait.settle targetQty = .ok s ∧ s.resolution = .filled := by
  obtain ⟨rounds, last⟩ := wait
  obtain ⟨hrounds, status, rfl, -⟩ := h
  show ¬ ∃ s, awaitResolution targetQty rounds (.ok status) = .ok s ∧ s.resolution = .filled
  induction rounds with
  | nil =>
    rintro ⟨s, hs, hfilled⟩
    rw [← Except.ok.inj hs] at hfilled
    cases hfilled
  | cons round rounds ih =>
    obtain ⟨hround, hrest⟩ := List.forall_mem_cons.mp hrounds
    rw [awaitResolution_of_not hround]
    exact ih hrest

/-- The quantity is reported in time, which ends the wait as a full fill, or late. -/
theorem reached_iff : wait.Reached targetQty ↔
    (∃ s, wait.settle targetQty = .ok s ∧ s.resolution = .filled) ∨ wait.FilledLate targetQty := by
  obtain ⟨rounds, last⟩ := wait
  unfold SettleWait.Reached SettleWait.settle SettleWait.FilledLate
  dsimp only
  induction rounds with
  | nil =>
    cases last with
    | error e => exact iff_of_false nofun (by rintro (⟨s, hs, -⟩ | ⟨-, status, hstatus, -⟩) <;> contradiction)
    | ok status =>
      constructor
      · rintro ⟨read, hread, hfull⟩
        rw [List.mem_singleton.mp hread] at hfull
        exact .inr ⟨nofun, status, rfl, hfull⟩
      · rintro (⟨s, hs, hfilled⟩ | ⟨-, read, hread, hfull⟩)
        · rw [← Except.ok.inj hs] at hfilled
          cases hfilled
        · rw [← Except.ok.inj hread] at hfull
          exact ⟨status, List.mem_singleton_self status, hfull⟩
  | cons round rounds ih =>
    unfold statusesRead
    rw [List.forall_mem_cons]
    by_cases hresolves : round.Resolves targetQty
    · rw [if_pos hresolves, awaitResolution_of_resolves hresolves]
      constructor
      · rintro ⟨read, hread, hfull⟩
        rw [List.mem_singleton.mp hread] at hfull
        exact .inl ⟨_, rfl, if_pos hfull⟩
      · rintro (⟨s, hs, hfilled⟩ | ⟨⟨hround, -⟩, -⟩)
        · rw [← Except.ok.inj hs] at hfilled
          by_cases hfull : targetQty ≤ round.status.qtyFilled
          · exact ⟨_, List.mem_singleton_self _, hfull⟩
          · exact nomatch (if_neg hfull).symm.trans hfilled
        · exact absurd hresolves hround
    · have hfull : ¬ targetQty ≤ round.status.qtyFilled := fun h => hresolves (.inl h)
      rw [if_neg hresolves, awaitResolution_of_not hresolves, and_iff_right hresolves, ← ih, List.exists_mem_cons_iff]
      exact or_iff_right hfull

/-- A wait says of a full fill what IB has reported, unless it is filled late. -/
theorem settle_filled_iff (wait : SettleWait) (targetQty : ℚ) :
    ((∃ s, wait.settle targetQty = .ok s ∧ s.resolution = .filled) ↔ wait.Reached targetQty) ↔
      ¬ wait.FilledLate targetQty := by
  rw [reached_iff]
  constructor
  · intro h hlate
    exact hlate.not_filled (h.mpr (.inr hlate))
  · intro h
    exact ⟨.inl, fun hreached => hreached.resolve_right h⟩

end Wait

-- ============================================================================
-- What is recorded
-- ============================================================================

/-- The ways in which an order is recorded after the wait for its cancel. -/
inductive Finaliser where
  /-- `_handle_partial`. -/
  | partialEntry (o : OrderContext) (cmd : Command) (a : Replies) (ibOrderId : ℤ) (qtyFilled : ℚ)
      (avgPrice : Option ℚ) (commission : ℚ)
  /-- `_handle_close_partial`. -/
  | partialClose (k : CloseContext) (a : CloseReplies) (qtyFilled avgPrice commission : ℚ)
  /-- The end of an entry's window with nothing filled so far. -/
  | expired (o : OrderContext) (cmd : Command) (a : Replies)

namespace Finaliser

/-- The requested quantity. -/
def request : Finaliser → ℚ
  | partialEntry o .. => o.qtyRequested
  | partialClose k .. => k.qtyRequested
  | expired o .. => o.qtyRequested

/-- The quantity that the caller has from the fills so far. -/
def recorded : Finaliser → Option ℚ
  | partialEntry _ _ _ _ qtyFilled _ _ => some qtyFilled
  | partialClose _ _ qtyFilled _ _ => some qtyFilled
  | expired .. => none

/-- The handler, with what its wait reads. -/
def flow (f : Finaliser) (wait : SettleWait) : Flow Unit :=
  match f with
  | partialEntry o cmd a ibOrderId qtyFilled avgPrice commission =>
    handlePartial o cmd { a with settle := { a.settle with value := wait.reading o.qtyRequested } }
      ibOrderId qtyFilled avgPrice commission
  | partialClose k a qtyFilled avgPrice commission =>
    closePartial k { a with settlePartial := { a.settlePartial with value := wait.reading k.qtyRequested } }
      qtyFilled avgPrice commission
  | expired o cmd a => expire o cmd { a with settle := { a.settle with value := wait.reading o.qtyRequested } }

/-- What the handler's fill rows record. -/
def entries (f : Finaliser) (wait : SettleWait) (c : Ctx) : List FillEntry :=
  fillEntries ((left (f.flow wait) c).trade.rows.drop c.trade.rows.length)

/-- What is recorded is not below what the caller had, and it is a full fill exactly where
    IB has reported one. -/
structure Records (f : Finaliser) (wait : SettleWait) (c : Ctx) : Prop where
  notBelow : ∀ entry ∈ f.entries wait c, ∀ qty ∈ f.recorded, qty ≤ entry.qty
  filled : (∃ entry ∈ f.entries wait c, entry.action = .filled) ↔ wait.Reached f.request

end Finaliser

section Records

variable {o : OrderContext} {cmd : Command} {a : Replies} {c : Ctx}

/-- At the end of its window an entry is recorded as what is read after the cancel, if
    that is a fill. -/
theorem adds_expire_reading {reading : SettleReading} (hread : a.settle.value = .ok reading) :
    Adds
      (if (reading.settlement o.qtyRequested).resolution = .filled then
        [{
          action := .filled
          qty := (reading.settlement o.qtyRequested).qty
          avgPrice := some ((reading.settlement o.qtyRequested).avgPrice.getD 0) }]
      else if 0 < (reading.settlement o.qtyRequested).qty then
        [{
          action := .partialFill
          qty := (reading.settlement o.qtyRequested).qty
          avgPrice := (reading.settlement o.qtyRequested).avgPrice }]
      else []) (expire o cmd a) c := by
  unfold expire
  refine adds_writeTxn_bind rfl fun _ => adds_cancelAndAwaitResolution_bind hread fun c => ?_
  by_cases hfilled : (reading.settlement o.qtyRequested).resolution = .filled
  · rw [if_pos hfilled, if_pos hfilled]
    exact adds_handleFill
  · rw [if_neg hfilled, if_neg hfilled]
    by_cases hpos : 0 < (reading.settlement o.qtyRequested).qty
    · rw [if_pos hpos, if_pos hpos]
      exact adds_recordPartial.then_none fun _ => within_runIf _ (within_emitConsoleClosePnl _)
    · rw [if_neg hpos, if_neg hpos]
      exact (addsNone_finalizePartialCancel.bind fun _ => within_runIf _ addsNone_closeGroup) _

theorem adds_expire_error {e : Raised} (hread : a.settle.value = .error e) : Adds [] (expire o cmd a) c := by
  unfold expire
  exact adds_writeTxn_bind rfl fun _ => adds_cancelAndAwaitResolution_raised hread

/-- The entries hold a full fill exactly where the wait ends with one, and none is below the
    quantity the caller has. -/
structure Follows (entries : List FillEntry) (recorded : Option ℚ) (settled : Except Raised Settlement) : Prop where
  notBelow : ∀ entry ∈ entries, ∀ qty ∈ recorded, qty ≤ entry.qty
  filled : (∃ entry ∈ entries, entry.action = .filled) ↔ ∃ s, settled = .ok s ∧ s.resolution = .filled

theorem follows_error (recorded : Option ℚ) (e : Raised) : Follows [] recorded (.error e) where
  notBelow := nofun
  filled := iff_of_false nofun (fun ⟨_, hs, _⟩ => nomatch hs)

/-- A single entry, with the larger of the two quantities. -/
theorem follows_one (s : Settlement) (qtyFilled : ℚ) (avgPrice : Option ℚ) :
    Follows [{
        action := if s.resolution = .filled then .filled else .partialFill
        qty := s.finalQty qtyFilled
        avgPrice }] (some qtyFilled) (.ok s) where
  notBelow entry hentry qty hqty := by
    rw [List.mem_singleton.mp hentry, ← Option.some.inj hqty]
    exact s.le_finalQty qtyFilled
  filled := by
    have hok : (∃ s', Except.ok (ε := Raised) s = .ok s' ∧ s'.resolution = .filled) ↔ s.resolution = .filled :=
      ⟨fun ⟨_, hs, hfilled⟩ => Except.ok.inj hs ▸ hfilled, fun hfilled => ⟨s, rfl, hfilled⟩⟩
    rw [hok]
    constructor
    · rintro ⟨entry, hentry, haction⟩
      rw [List.mem_singleton.mp hentry] at haction
      by_contra hnot
      exact nomatch (if_neg hnot).symm.trans haction
    · intro hfilled
      exact ⟨_, List.mem_singleton_self _, if_pos hfilled⟩

theorem follows_expired (s : Settlement) :
    Follows
      (if s.resolution = .filled then
        [{ action := .filled, qty := s.qty, avgPrice := some (s.avgPrice.getD 0) }]
      else if 0 < s.qty then [{ action := .partialFill, qty := s.qty, avgPrice := s.avgPrice }]
      else []) none (.ok s) where
  notBelow := nofun
  filled := by
    by_cases hfilled : s.resolution = .filled
    · rw [if_pos hfilled]
      exact iff_of_true ⟨_, List.mem_singleton_self _, rfl⟩ ⟨s, rfl, hfilled⟩
    · rw [if_neg hfilled]
      refine iff_of_false ?_ fun ⟨s', hs, hfilled'⟩ => hfilled (Except.ok.inj hs ▸ hfilled')
      split
      · rintro ⟨entry, hentry, haction⟩
        rw [List.mem_singleton.mp hentry] at haction
        cases haction
      · exact nofun

/-- What each handler records follows the end of its wait. -/
theorem Finaliser.follows (f : Finaliser) (wait : SettleWait) (c : Ctx) :
    Follows (f.entries wait c) f.recorded (wait.settle f.request) := by
  rw [← settlement_reading]
  unfold Finaliser.entries
  cases f with
  | partialEntry o cmd a ibOrderId qtyFilled avgPrice commission =>
    show Follows _ (some qtyFilled) ((wait.reading o.qtyRequested).map _)
    cases hread : wait.reading o.qtyRequested with
    | error e =>
      have hrecords : Adds _ (flow (partialEntry o cmd a ibOrderId qtyFilled avgPrice commission) wait) c :=
        adds_handlePartial_error hread
      rw [fillEntries_drop hrecords]
      exact follows_error _ e
    | ok reading =>
      have hrecords : Adds _ (flow (partialEntry o cmd a ibOrderId qtyFilled avgPrice commission) wait) c :=
        adds_handlePartial_reading hread
      rw [fillEntries_drop hrecords]
      exact follows_one _ qtyFilled _
  | partialClose k a qtyFilled avgPrice commission =>
    show Follows _ (some qtyFilled) ((wait.reading k.qtyRequested).map _)
    cases hread : wait.reading k.qtyRequested with
    | error e =>
      have hrecords : Adds _ (flow (partialClose k a qtyFilled avgPrice commission) wait) c :=
        adds_closePartial_error hread
      rw [fillEntries_drop hrecords]
      exact follows_error _ e
    | ok reading =>
      have hrecords : Adds _ (flow (partialClose k a qtyFilled avgPrice commission) wait) c :=
        adds_closePartial_reading hread
      rw [fillEntries_drop hrecords]
      exact follows_one _ qtyFilled _
  | expired o cmd a =>
    show Follows _ none ((wait.reading o.qtyRequested).map _)
    cases hread : wait.reading o.qtyRequested with
    | error e =>
      have hrecords : Adds _ (flow (expired o cmd a) wait) c := adds_expire_error hread
      rw [fillEntries_drop hrecords]
      exact follows_error _ e
    | ok reading =>
      have hrecords : Adds _ (flow (expired o cmd a) wait) c := adds_expire_reading hread
      rw [fillEntries_drop hrecords]
      exact follows_expired _

theorem Finaliser.records_iff (f : Finaliser) (wait : SettleWait) (c : Ctx) :
    f.Records wait c ↔ ¬ wait.FilledLate f.request := by
  have hfollows := f.follows wait c
  rw [← settle_filled_iff wait f.request, ← hfollows.filled]
  exact ⟨fun h => h.filled, fun h => ⟨hfollows.notBelow, h⟩⟩

end Records

/-- Whatever the statuses read around the cancel: what the wait returns and what each of
    the handlers records of the order say what IB has reported, exactly where the order is
    not filled late. -/
theorem partial_records_iff (wait : SettleWait) :
    (∀ targetQty : ℚ, ((∃ s, wait.settle targetQty = .ok s ∧ s.resolution = .filled) ↔ wait.Reached targetQty) ↔
      ¬ wait.FilledLate targetQty) ∧
    ∀ (f : Finaliser) (c : Ctx), f.Records wait c ↔ ¬ wait.FilledLate f.request :=
  ⟨settle_filled_iff wait, fun f c => f.records_iff wait c⟩

/-- A close of ten, four of them filled until its time is up; the other six show in the last
    status. -/
theorem partial_records_fails : ¬ ∀ (f : Finaliser) (wait : SettleWait) (c : Ctx), f.Records wait c := by
  intro h
  have hrecords := h
    (.partialClose { ibOrderId := 7, side := .sell, qtyRequested := 10 } { placed := { value := .ok 7 } } 4 100 2)
    { rounds := [{ status := { status := "Submitted", qtyFilled := 4, avgFillPrice := some 100 } }]
      last := .ok { status := "Filled", qtyFilled := 10, avgFillPrice := some 100 } } {}
  refine (Finaliser.records_iff _ _ _).mp hrecords ⟨?_, _, rfl, ?_⟩
  · show ∀ round ∈ [_], ¬ SettleRound.Resolves round 10
    decide +kernel
  · show (10 : ℚ) ≤ 10
    exact le_rfl

end IbTrader.Engine.OrderFlow
