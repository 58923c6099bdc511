/-
  IbTrader.Engine.FiledRows

  What the rows of a trade carry along every history: every order has its
  placement row, with the leg type of its other rows; only fill rows and the
  daemon's rows carry a commission; a fill row names its order and its price
  (`filed_run`).
-/

import IbTrader.Engine.TradeHistory

namespace IbTrader.Engine.Closing

open Lib Data

-- ============================================================================
-- Placement rows
-- ============================================================================

/-- The placement row of an order is there, with its leg type. -/
def HasPlacement (rows : List TransactionEvent) (ibOrderId : ℤ) (legType : LegType) : Prop :=
  ∃ placement, placementOf rows ibOrderId = some placement ∧ placement.legType = legType

theorem HasPlacement.add {rows : List TransactionEvent} {id : ℤ} {legType : LegType}
    (h : HasPlacement rows id legType) {event : TransactionEvent}
    (hother : event.action ≠ .placeAccepted ∨ event.ibOrderId ≠ some id) :
    HasPlacement (Data.insert rows event) id legType := by
  obtain ⟨placement, hplacement, hleg⟩ := h
  exact ⟨placement, by rw [placementOf_insert_of_ne hother, hplacement], hleg⟩

-- ============================================================================
-- What the rows carry
-- ============================================================================

/-- A row the daemon did not write carries a commission only if it records a fill,
    and a fill row names its order and its price. -/
structure Carries (t : TransactionEvent) : Prop where
  bare : t.isFill = false → t.action ≠ .reconciled → t.commission = none
  priced : t.isFill = true → t.ibOrderId.isSome = true ∧ t.ibAvgFillPrice.isSome = true

structure Filed (h : History) : Prop where
  placed : ∀ t ∈ h.trade.rows, ∀ id, t.ibOrderId = some id →
    HasPlacement h.trade.rows id t.legType
  awaited : ∀ p ∈ h.pending, HasPlacement h.trade.rows p.ibOrderId p.kind.legType
  carries : ∀ t ∈ h.trade.rows, Carries t

theorem Filed.start : Filed {} where
  placed := fun _ ht => absurd ht List.not_mem_nil
  awaited := fun _ hp => absurd hp List.not_mem_nil
  carries := fun _ ht => absurd ht List.not_mem_nil

/-- Fewer coroutines wait. -/
theorem Filed.drop {h : History} (hf : Filed h) {pending : List Pending}
    (hsub : pending ⊆ h.pending) (sampled : List Sample) :
    Filed { h with pending, sampled } where
  placed := hf.placed
  awaited := fun p hp => hf.awaited p (hsub hp)
  carries := hf.carries

theorem Filed.finish {h : History} (hf : Filed h) (id : ℤ) : Filed (h.finish id) :=
  hf.drop (List.filter_subset_self h.pending) h.sampled

theorem Filed.regroup {h : History} (hf : Filed h) (group : TradeGroup) :
    Filed (h.withTrade { h.trade with group }) := ⟨hf.1, hf.2, hf.3⟩

/-- A row for an order that is placed. -/
theorem Filed.write {h : History} (hf : Filed h) {event : TransactionEvent}
    (haction : event.action ≠ .placeAccepted)
    (hplaced : ∀ id, event.ibOrderId = some id → HasPlacement h.trade.rows id event.legType)
    (hcarries : Carries event) : Filed (h.write event) where
  placed := by
    intro t ht id hid
    rcases List.mem_append.mp ht with ht | ht
    · exact (hf.placed t ht id hid).add (.inl haction)
    · obtain rfl := List.mem_singleton.mp ht
      exact (hplaced id hid).add (.inl haction)
  awaited := fun p hp => (hf.awaited p hp).add (.inl haction)
  carries := by
    intro t ht
    rcases List.mem_append.mp ht with ht | ht
    · exact hf.carries t ht
    · obtain rfl := List.mem_singleton.mp ht
      exact ⟨hcarries.bare, hcarries.priced⟩

/-- The placement row of a fresh order. -/
theorem Filed.accept {h : History} (hf : Filed h) {id : ℤ} (hfresh : h.IsFresh id)
    (legType : LegType) (side : Side) (qty : ℚ) (multiplier : Option ℚ) :
    Filed (h.write (placementRow .placeAccepted (some id) legType side qty multiplier)) where
  placed := by
    intro t ht id' hid
    rcases List.mem_append.mp ht with ht | ht
    · refine (hf.placed t ht id' hid).add (.inr fun heq => ?_)
      exact hfresh.1 t ht (hid.trans heq.symm)
    · obtain rfl := List.mem_singleton.mp ht
      obtain rfl : id = id' := Option.some.inj hid
      exact ⟨_, by rw [History.write, placementOf_insert, if_pos ⟨rfl, rfl⟩], rfl⟩
  awaited := by
    intro p hp
    refine (hf.awaited p hp).add (.inr fun heq => ?_)
    exact hfresh.2 p hp (Option.some.inj heq).symm
  carries := by
    intro t ht
    rcases List.mem_append.mp ht with ht | ht
    · exact hf.carries t ht
    · obtain rfl := List.mem_singleton.mp ht
      exact ⟨fun _ _ => rfl, fun hfill => absurd hfill Bool.false_ne_true⟩

theorem Filed.place {h : History} (hf : Filed h) {id : ℤ} (hfresh : h.IsFresh id)
    (legType : LegType) (side : Side) (qty : ℚ) (multiplier : Option ℚ) :
    Filed (h.place id legType side qty multiplier) ∧
      HasPlacement (h.place id legType side qty multiplier).trade.rows id legType := by
  have hattempt : Filed
      (h.write (placementRow .placeAttempt none legType side qty multiplier)) := by
    refine hf.write TransactionAction.noConfusion (fun _ hid => by cases hid) ?_
    exact ⟨fun _ _ => rfl, fun hfill => absurd hfill Bool.false_ne_true⟩
  have hstill : (h.write (placementRow .placeAttempt none legType side qty multiplier)).IsFresh
      id := by
    refine ⟨fun t ht => ?_, hfresh.2⟩
    rcases List.mem_append.mp ht with ht | ht
    · exact hfresh.1 t ht
    · rw [List.mem_singleton.mp ht]
      exact fun hid => by cases hid
  refine ⟨hattempt.accept hstill legType side qty multiplier, ?_⟩
  exact ⟨_, by rw [History.place, History.write, placementOf_insert, if_pos ⟨rfl, rfl⟩], rfl⟩

theorem Filed.placeExits {h : History} (hf : Filed h) {side : Side} {qty : ℚ}
    (legs : List ExitLeg) : Filed (h.placeExits side qty legs) := by
  induction legs generalizing h with
  | nil => exact hf
  | cons leg legs ih =>
    unfold History.placeExits
    split
    case isTrue hfresh =>
      exact ih (hf.place hfresh leg.kind.legType side.opposite qty leg.multiplier).1
    case isFalse => exact ih hf

/-- A coroutine waits on an order that is placed. -/
theorem Filed.await {h : History} (hf : Filed h) {p : Pending}
    (hplaced : HasPlacement h.trade.rows p.ibOrderId p.kind.legType) {pending : List Pending}
    (hsub : pending ⊆ h.pending) (sampled : List Sample) :
    Filed { h with sampled, pending := p :: pending } where
  placed := hf.placed
  awaited := by
    intro q hq
    rcases List.mem_cons.mp hq with rfl | hq
    · exact hplaced
    · exact hf.awaited q (hsub hq)
  carries := hf.carries

-- ============================================================================
-- Along every history
-- ============================================================================

/-- A trade with one more row for a placed order. -/
theorem Filed.record {h : History} (hf : Filed h) {trade : Trade} {event : TransactionEvent}
    (hrows : trade.rows = Data.insert h.trade.rows event) (haction : event.action ≠ .placeAccepted)
    (hplaced : ∀ id, event.ibOrderId = some id → HasPlacement h.trade.rows id event.legType)
    (hcarries : Carries event) : Filed (h.withTrade trade) := by
  rw [withTrade_eq_write hrows]
  exact (hf.regroup trade.group).write haction hplaced hcarries

/-- The order of a coroutine that waits is placed. -/
theorem Filed.pending {h : History} (hf : Filed h) {p : Pending} (hp : p ∈ h.pending)
    {legType : LegType} (hleg : p.kind.legType = legType) :
    ∀ id, some p.ibOrderId = some id → HasPlacement h.trade.rows id legType := by
  rintro id hid
  obtain rfl := Option.some.inj hid
  rw [← hleg]
  exact hf.awaited p hp

/-- A row that names an order and a price. -/
theorem carries_of_fill {event : TransactionEvent} (hfill : event.isFill = true)
    (hid : event.ibOrderId.isSome = true) (hprice : event.ibAvgFillPrice.isSome = true) :
    Carries event :=
  ⟨fun hno => absurd (hfill.symm.trans hno) Bool.noConfusion, fun _ => ⟨hid, hprice⟩⟩

theorem carries_of_note {event : TransactionEvent} (hfill : event.isFill = false)
    (hcommission : event.action ≠ .reconciled → event.commission = none) : Carries event :=
  ⟨fun _ => hcommission, fun hyes => absurd (hfill.symm.trans hyes) Bool.noConfusion⟩

theorem Filed.recordEntry {h : History} (hf : Filed h) {p : Pending} (hp : p ∈ h.pending)
    (hkind : p.kind = .entry) {action : TransactionAction}
    (haction : action ∈ [TransactionAction.filled, .partialFill]) (qty avgPrice commission : ℚ)
    (exits : List ExitLeg) : Filed (h.recordEntry p action qty avgPrice commission exits) := by
  have hfill := entryFillRow_isFill p haction qty avgPrice commission
  have hne : action ≠ .placeAccepted := by
    rintro rfl
    exact absurd haction (by decide)
  refine Filed.placeExits (Filed.finish ((hf.regroup _).write hne ?_ ?_) _) exits
  · exact hf.pending hp (by rw [hkind]; rfl)
  · exact carries_of_fill hfill rfl rfl

theorem Filed.closeFill {h : History} (hf : Filed h) {p : Pending} (hp : p ∈ h.pending)
    (hkind : p.kind = .close) (qty avgPrice commission : ℚ) :
    Filed (h.withTrade (handleCloseFill h.trade p.toCloseContext qty avgPrice commission).trade) :=
  hf.record (handleCloseFill_rows _ _ qty avgPrice commission) TransactionAction.noConfusion
    (hf.pending hp (by rw [hkind]; rfl)) (carries_of_fill rfl rfl rfl)

theorem Filed.closePartial {h : History} (hf : Filed h) {p : Pending} (hp : p ∈ h.pending)
    (hkind : p.kind = .close) (qty avgPrice commission : ℚ) (s : Settlement) :
    Filed (h.withTrade
      (handleClosePartial h.trade p.toCloseContext qty avgPrice commission s).trade) := by
  have hattempt : Filed (h.write (cancelAttemptRow p.toCloseContext)) :=
    hf.write TransactionAction.noConfusion (hf.pending hp (by rw [hkind]; rfl))
      (carries_of_note rfl fun _ => rfl)
  rcases handleClosePartial_cases h.trade p.toCloseContext qty avgPrice commission s with
    ⟨-, price, c, hcase⟩ | ⟨-, price, c, hcase⟩
  · rw [hcase]
    exact hattempt.closeFill hp hkind (s.finalQty qty) price c
  · rw [hcase]
    exact hattempt.record (recordClosePartial_rows _ _ (s.finalQty qty) price c)
      TransactionAction.noConfusion (hattempt.pending hp (by rw [hkind]; rfl))
      (carries_of_fill rfl rfl rfl)

theorem Filed.exitFilled {h : History} (hf : Filed h) {id : ℤ} {qty avgPrice commission : ℚ}
    {recorded : Recorded}
    (h' : handleAutonomousCloseFill h.trade id qty avgPrice commission = some recorded) :
    Filed (h.withTrade recorded.trade) := by
  obtain ⟨placement, -, hplacement, -, -, -, hrows, -, -⟩ := handleAutonomousCloseFill_some h'
  obtain ⟨-, hid⟩ := placementOf_some hplacement
  refine hf.record hrows TransactionAction.noConfusion ?_ (carries_of_fill rfl ?_ rfl)
  · intro id' hid'
    obtain rfl : id = id' := Option.some.inj (hid.symm.trans hid')
    exact ⟨placement, hplacement, rfl⟩
  · exact Option.isSome_iff_exists.mpr ⟨id, hid⟩

theorem Filed.reconciled {h : History} (hf : Filed h) {id : ℤ} {status : FinalStatus}
    {recorded : Recorded} (h' : reconcileOrder h.trade id status = some recorded) :
    Filed (h.withTrade recorded.trade) := by
  obtain ⟨txn, htxn, rfl⟩ := reconcileOrder_some h'
  obtain ⟨hmem, -⟩ := latestByIbOrderId_some htxn
  refine hf.record (maybeCloseTradeGroup_rows _) ?_ ?_ ?_
  · rw [reconciledRow_action]
    exact TransactionAction.noConfusion
  · intro id' hid'
    rw [reconciledRow_ibOrderId] at hid'
    rw [reconciledRow_legType]
    exact hf.placed txn hmem id' hid'
  · refine carries_of_note ?_ fun hne => absurd (reconciledRow_action txn status) hne
    rw [TransactionEvent.isFill, reconciledRow_action]
    rfl

theorem Filed.step {h : History} (hf : Filed h) (op : Op) : Filed (h.step op) := by
  generalize h.step op = h', step_cases h op = hstep
  cases hstep with
  | idle => exact hf
  | entryPlaced hrows hpending id side qty multiplier =>
    have hfresh : h.IsFresh id := by
      refine ⟨fun t ht => ?_, fun p hp => ?_⟩
      · rw [hrows] at ht
        cases ht
      · rw [hpending] at hp
        cases hp
    obtain ⟨hplaced, hplacement⟩ := hf.place hfresh .entry side qty multiplier
    exact hplaced.await hplacement (List.nil_subset _) _
  | entryRecorded hp hkind haction hqty avgPrice commission exits =>
    exact hf.recordEntry hp hkind haction _ avgPrice commission exits
  | entryExpired hp hkind =>
    refine Filed.finish ((hf.regroup _).write TransactionAction.noConfusion ?_
      (carries_of_note rfl fun _ => rfl)) _
    exact hf.pending hp (by rw [hkind]; rfl)
  | closeSampled => exact hf.drop (List.Subset.refl h.pending) _
  | closePlaced _ hfresh multiplier =>
    obtain ⟨hplaced, hplacement⟩ := hf.place hfresh .close _ _ multiplier
    exact hplaced.await hplacement (List.Subset.refl _) _
  | closeFilled hp hkind hqty avgPrice commission =>
    exact (hf.closeFill hp hkind _ avgPrice commission).finish _
  | closePartial hp hkind hqty avgPrice commission settlement =>
    exact (hf.closePartial hp hkind _ avgPrice commission settlement).finish _
  | givenUp id => exact hf.finish id
  | exitFilled hqty hfill => exact hf.exitFilled hfill
  | reconciled hfound => exact hf.reconciled hfound
  | noted haction ht hid =>
    simp only [noteActions, List.mem_cons, List.not_mem_nil, or_false] at haction
    refine hf.write ?_ (fun id' hid' => ?_) (carries_of_note ?_ fun _ => rfl)
    · rcases haction with rfl | rfl | rfl | rfl | rfl <;> exact TransactionAction.noConfusion
    · exact hf.placed _ ht id' (hid.trans hid')
    · rcases haction with rfl | rfl | rfl | rfl | rfl <;> rfl

theorem filed_run (ops : List Op) : Filed (History.run ops) :=
  List.foldlRecOn ops History.step Filed.start fun _ hf op _ => hf.step op

end IbTrader.Engine.Closing
