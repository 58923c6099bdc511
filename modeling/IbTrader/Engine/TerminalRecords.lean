/-
  IbTrader.Engine.TerminalRecords

  Which CANCELLED rows and which moves to CLOSED are backed by IB: when IB has
  reported a terminal status for every order of the leg by the time the engine
  records it (`terminals_confirmed`).

  The sites that wait for IB's answer are sound whatever comes back.  The others
  record right after `cancel_order` returns, or with a second order of the leg
  unresolved, and are sound in the runs in which IB's report comes first.
-/

import IbTrader.Engine.CloseFlow

namespace IbTrader.Engine.OrderFlow

open Lib Fallible Data Closing
open SmartMarket (OrderStatus terminalStatuses)

-- ============================================================================
-- Confirmed records
-- ============================================================================

/-- IB has reported every order of the leg terminal before the record is made. -/
def Confirmed (terminals : List Terminal) : Prop := ∀ t ∈ terminals, t.orders ⊆ t.reported

instance (terminals : List Terminal) : Decidable (Confirmed terminals) := by
  unfold Confirmed; infer_instance

theorem confirmed_append {terminals : List Terminal} {t : Terminal} :
    Confirmed (terminals ++ [t]) ↔ Confirmed terminals ∧ t.orders ⊆ t.reported := by
  simp [Confirmed, or_imp, forall_and]

/-- Whichever way the computation ends, its records are confirmed. -/
def Confirms {α : Type} (x : Flow α) (c : Ctx) : Prop :=
  wp x (fun _ c' => Confirmed c'.terminals) (fun _ c' => Confirmed c'.terminals) c

/-- The records of one state are those of the other. -/
def SameTerminals (c c' : Ctx) : Prop := c'.terminals = c.terminals

instance : RecordOrder SameTerminals where
  refl _ := rfl
  trans _ _ _ h h' := Eq.trans h' h
  of_same _ h := h

/-- The computation makes no terminal record. -/
abbrev Quiet {α : Type} (x : Flow α) : Prop := Within SameTerminals x

section Rules

variable {α β : Type} {x : Flow α} {f : α → Flow β} {c : Ctx}

theorem Confirms.left (h : Confirms x c) : Confirmed (left x c).terminals :=
  (wp_left (P := fun c' : Ctx => Confirmed c'.terminals) x c).mp h

theorem confirms_pure {a : α} (hc : Confirmed c.terminals) : Confirms (pure a : Flow α) c := hc

theorem confirms_throw {e : Raised} (hc : Confirmed c.terminals) :
    Confirms (throw e : Flow α) c := hc

theorem confirms_bind :
    Confirms (x >>= f) c ↔
      wp x (fun a c' => Confirms (f a) c') (fun _ c' => Confirmed c'.terminals) c := wp_bind x f c

theorem confirms_of_quiet (hx : Quiet x) (hc : Confirmed c.terminals) : Confirms x c := by
  have hkept : ∀ c', SameTerminals c c' → Confirmed c'.terminals := by
    intro c' hterminals
    unfold SameTerminals at hterminals
    rwa [hterminals]
  exact wp_mono (hx c) (fun _ => hkept) (fun _ => hkept)

/-- Nothing recorded afterwards undoes a record. -/
theorem Confirms.bind_quiet (hx : Confirms x c) (hf : ∀ a, Quiet (f a)) : Confirms (x >>= f) c := by
  rw [OrderFlow.confirms_bind]
  exact wp_mono hx (fun a c' hc' => confirms_of_quiet (hf a) hc') (fun _ _ h => h)

end Rules

theorem quiet_writeTxn (event : TransactionEvent) : Quiet (writeTxn event) := fun _ => rfl

theorem quiet_of_exitStep {α : Type} {x : Flow α} {a : Replies} (h : Within (ExitStep a) x) :
    Quiet x := h.mono fun _ _ hstep => hstep.terminals

-- ============================================================================
-- Entries
-- ============================================================================

section Entries

variable {o : OrderContext} {cmd : Command} {a : Replies}

/-- A full fill of an entry makes no terminal record. -/
theorem quiet_handleFill {qtyFilled : ℚ} {avgPrice : Option ℚ} {commission : ℚ} :
    Quiet (handleFill o cmd a qtyFilled avgPrice commission) :=
  (within_updatePnl _).bind fun _ => (quiet_writeTxn _).bind fun _ =>
    (within_runIf _ (within_throw _)).bind fun _ =>
      (within_runIf _ (within_emitConsoleClosePnl _)).bind fun _ =>
        quiet_of_exitStep exitStep_placeExits

/-- The cancel of the rest of an order settles with all orders of the leg reported,
    or without a CANCELLED row. -/
def RestConfirms (o : OrderContext) (a : Replies) (orders known : List ℤ) (ibOrderId : ℤ) : Prop :=
  ∀ reading, a.settle.value = .ok reading →
    match (reading.settlement o.qtyRequested).resolution with
    | .filled => True
    | .cancelled => orders ⊆ known ++ a.settle.reported ++ [ibOrderId]
    | .timeout => a.probe.value = .ok (some false) →
      orders ⊆ known ++ a.settle.reported ++ a.probe.reported ++ [ibOrderId]

/-- The CANCELLED row is written with the orders of the leg reported. -/
theorem wp_finalizePartialCancel {o : OrderContext} {ibOrderId : ℤ} {resolution : Resolution}
    {probe : Reply (Option Bool)} {c : Ctx} (hc : Confirmed c.terminals)
    (hcancelled : resolution = .cancelled → c.orders ⊆ c.reported)
    (hprobed : resolution ≠ .cancelled → probe.value = .ok (some false) →
      c.orders ⊆ c.reported ++ probe.reported ++ [ibOrderId]) :
    wp (finalizePartialCancel o ibOrderId resolution probe)
      (fun written c' => Confirmed c'.terminals ∧ (written = true → c'.orders ⊆ c'.reported))
      (fun _ c' => Confirmed c'.terminals) c := by
  unfold finalizePartialCancel
  split
  case isTrue h =>
    rw [wp_bind, wp_writeCancelled, wp_pure]
    exact ⟨confirmed_append.mpr ⟨hc, hcancelled h⟩, fun _ => hcancelled h⟩
  case isFalse h =>
    rw [wp_bind, wp_exceptException, wp_await]
    cases hvalue : probe.value with
    | error e =>
      cases e with
      | exception => exact ⟨hc, fun hwritten => by cases hwritten⟩
      | taskCancelled => exact hc
    | ok stillOpen =>
      by_cases hgone : stillOpen = some false
      · subst hgone
        have horders := hprobed h hvalue
        exact ⟨confirmed_append.mpr ⟨hc, horders⟩, fun _ => horders⟩
      · dsimp only
        rw [if_neg hgone]
        exact ⟨hc, fun hwritten => by cases hwritten⟩

theorem confirms_recordPartial {o : OrderContext} {a : Replies} {ibOrderId : ℤ} {s : Settlement}
    {finalQty commission : ℚ} {avgPrice : Option ℚ} {c : Ctx} (hc : Confirmed c.terminals)
    (hcancelled : s.resolution = .cancelled → c.orders ⊆ c.reported)
    (hprobed : s.resolution ≠ .cancelled → a.probe.value = .ok (some false) →
      c.orders ⊆ c.reported ++ a.probe.reported ++ [ibOrderId]) :
    Confirms (recordPartial o a ibOrderId s finalQty avgPrice commission) c := by
  unfold recordPartial
  rw [confirms_bind, wp_writeTxn, confirms_bind, wp_updatePnl, confirms_bind]
  refine wp_mono (wp_finalizePartialCancel ?_ ?_ ?_) ?_ ?_
  · exact hc
  · exact hcancelled
  · exact hprobed
  · exact fun _ _ h => h.1
  · exact fun _ _ h => h

theorem confirms_handlePartial {ibOrderId : ℤ} {qtyFilled : ℚ} {avgPrice : Option ℚ}
    {commission : ℚ} {c : Ctx} (hc : Confirmed c.terminals)
    (h : RestConfirms o a c.orders c.reported ibOrderId) :
    Confirms (handlePartial o cmd a ibOrderId qtyFilled avgPrice commission) c := by
  unfold handlePartial
  rw [confirms_bind, wp_writeTxn, confirms_bind, wp_cancelAndAwaitResolution]
  cases hvalue : a.settle.value with
  | error e => exact hc
  | ok reading =>
    have hrest := h reading hvalue
    dsimp only
    split
    case isTrue => exact confirms_of_quiet quiet_handleFill hc
    case isFalse hfilled =>
      apply Confirms.bind_quiet
      · apply confirms_recordPartial
        · exact hc
        · intro hcancelled
          rw [hcancelled] at hrest
          simpa [hcancelled] using hrest
        · intro hopen hprobe
          cases hresolution : (reading.settlement o.qtyRequested).resolution with
          | filled => exact absurd hresolution hfilled
          | cancelled => exact absurd hresolution hopen
          | timeout =>
            rw [hresolution] at hrest
            simpa [hresolution] using hrest hprobe
      · intro _
        exact (within_runIf _ (within_emitConsoleClosePnl _)).bind fun _ =>
          within_runIf _ (quiet_of_exitStep exitStep_placeProfitTaker)

/-- The cancel at the end of the order window; the leg has one order. -/
theorem confirms_expire {c : Ctx} (hc : Confirmed c.terminals) (horders : c.orders ⊆ [o.ibOrderId]) :
    Confirms (expire o cmd a) c := by
  have hheard : ∀ ids, c.orders ⊆ ids ++ [o.ibOrderId] := fun ids =>
    List.Subset.trans horders (List.subset_append_right ids [o.ibOrderId])
  unfold expire
  rw [confirms_bind, wp_writeTxn, confirms_bind, wp_cancelAndAwaitResolution]
  cases hvalue : a.settle.value with
  | error e => exact hc
  | ok reading =>
    dsimp only
    split
    case isTrue => exact confirms_of_quiet quiet_handleFill hc
    case isFalse hfilled =>
      have hcancelled : (reading.settlement o.qtyRequested).resolution = .cancelled →
          c.orders ⊆ c.reported ++ a.settle.reported ++
            if (reading.settlement o.qtyRequested).resolution = .timeout then [] else [o.ibOrderId] := by
        intro hcancelled
        simpa [hcancelled] using hheard (c.reported ++ a.settle.reported)
      split
      case isTrue =>
        apply Confirms.bind_quiet
        · exact confirms_recordPartial hc hcancelled fun _ _ => hheard _
        · exact fun _ => within_runIf _ (within_emitConsoleClosePnl _)
      case isFalse =>
        rw [confirms_bind]
        refine wp_mono (wp_finalizePartialCancel ?_ ?_ ?_) ?_ ?_
        · exact hc
        · exact hcancelled
        · exact fun _ _ => hheard _
        · rintro written c' ⟨hc', hwritten⟩
          cases written with
          | false => exact confirms_pure hc'
          | true => exact confirmed_append.mpr ⟨hc', hwritten rfl⟩
        · exact fun _ _ h => h

/-- When the records made at an ending are confirmed: `known` are the orders IB has
    reported by then. -/
def EndingConfirms (o : OrderContext) (a : Replies) (orders known : List ℤ) : Ending → Prop
  | .rejected status => status ∉ terminalStatuses → a.cancel.value = .ok () →
    orders ⊆ known ++ a.cancel.reported
  | .notRouted => a.cancel.value = .ok () → orders ⊆ known ++ a.cancel.reported
  | .gaveUp => orders ⊆ known
  | .partlyFilled ibOrderId _ _ _ => RestConfirms o a orders known ibOrderId
  | .marketRefused (some _) => RestConfirms o a orders known o.ibOrderId
  -- nothing terminal is recorded, or only after IB's answer for the one order
  | .raised | .letBe | .inactive | .canceledByIb | .expired | .filled _ _ _ | .marketRefused none => True

/-- The endings of a run with one order. -/
def Ending.single : Ending → Bool
  | .rejected _ | .inactive | .canceledByIb | .expired => true
  | _ => false

theorem confirms_finish {ending : Ending} {c : Ctx} (hc : Confirmed c.terminals)
    (horders : ending.single = true → c.orders ⊆ [o.ibOrderId])
    (h : EndingConfirms o a c.orders c.reported ending) : Confirms (finish o cmd a ending) c := by
  cases ending with
  | raised => exact confirms_throw hc
  | rejected status =>
    unfold finish
    rw [confirms_bind, wp_await]
    cases hvalue : a.cancel.value with
    | error e => exact hc
    | ok u =>
      rw [confirms_bind, wp_runIf]
      by_cases hterminal : status ∈ terminalStatuses
      · rw [if_pos (decide_eq_true hterminal)]
        have hheard : c.orders ⊆ c.reported ++ a.cancel.reported ++ [o.ibOrderId] :=
          List.Subset.trans (horders rfl) (List.subset_append_right _ _)
        exact confirmed_append.mpr ⟨hc, hheard⟩
      · rw [if_neg (by simpa using hterminal)]
        exact confirmed_append.mpr ⟨hc, h hterminal hvalue⟩
  | notRouted =>
    unfold finish
    rw [confirms_bind, wp_await]
    cases hvalue : a.cancel.value with
    | error e => exact hc
    | ok u => exact confirmed_append.mpr ⟨hc, h hvalue⟩
  | letBe => exact confirms_pure hc
  | inactive =>
    unfold finish
    rw [confirms_bind, wp_hear, confirms_bind, wp_writeTxn, confirms_bind, wp_await]
    cases a.cancel.value with
    | error e => exact hc
    | ok u =>
      have hheard : c.orders ⊆ c.reported ++ [o.ibOrderId] ++ a.cancel.reported :=
        List.Subset.trans (List.Subset.trans (horders rfl) (List.subset_append_right _ _))
          (List.subset_append_left _ _)
      exact confirmed_append.mpr ⟨confirmed_append.mpr ⟨hc, hheard⟩, hheard⟩
  | canceledByIb =>
    have hheard : c.orders ⊆ c.reported ++ [o.ibOrderId] :=
      List.Subset.trans (horders rfl) (List.subset_append_right _ _)
    exact confirmed_append.mpr ⟨hc, hheard⟩
  | gaveUp => exact confirmed_append.mpr ⟨confirmed_append.mpr ⟨hc, h⟩, h⟩
  | expired => exact confirms_expire hc (horders rfl)
  | filled qtyFilled avgPrice commission => exact confirms_of_quiet quiet_handleFill hc
  | partlyFilled ibOrderId qtyFilled avgPrice commission => exact confirms_handlePartial hc h
  | marketRefused recorded =>
    cases recorded with
    | none => exact confirms_throw hc
    | some recorded =>
      exact (confirms_handlePartial hc h).bind_quiet fun _ => within_throw _

/-- A smart-market run ends in none of the endings of a single order. -/
theorem EntryRun.orders_of_single (run : EntryRun) (h : (run.ending o).single = true) :
    run.orders o ⊆ [o.ibOrderId] := by
  cases run with
  | smartMarket marketId smartRun =>
    simp only [EntryRun.ending, smartEnding] at h
    split at h <;> cases h
  | raised | resting | mid | bidAsk | market => exact List.Subset.refl _

/-- When the records of an entry command are confirmed. -/
def OrderConfirms (o : OrderContext) (placed : Reply Unit) (run : EntryRun) (a : Replies)
    (known : List ℤ) : Prop :=
  placed.value = .ok () →
    EndingConfirms o a (run.orders o) (known ++ placed.reported ++ (a.heard ++ run.done o))
      (run.ending o)

theorem confirms_executeOrder {placed : Reply Unit} {run : EntryRun} {c : Ctx}
    (hc : Confirmed c.terminals) (h : OrderConfirms o placed run a c.reported) :
    Confirms (executeOrder o cmd placed run a) c := by
  unfold executeOrder
  rw [confirms_bind, wp_writeTxn, confirms_bind, wp_await]
  cases hvalue : placed.value with
  | error e => exact hc
  | ok u =>
    dsimp only
    rw [confirms_bind, wp_writeTxn, confirms_bind, wp_modify, confirms_bind, wp_hear]
    exact confirms_finish hc run.orders_of_single (h hvalue)

end Entries

-- ============================================================================
-- Closes
-- ============================================================================

section Closes

variable {k : CloseContext} {a : CloseReplies} {c : Ctx}

theorem confirms_recordClose {recorded : Recorded} {r : Reply Unit} (hc : Confirmed c.terminals)
    (h : recorded.closed = true → c.orders ⊆ c.reported) : Confirms (recordClose recorded r) c := by
  unfold recordClose
  rw [confirms_bind, wp_modify, confirms_bind, wp_runIf]
  cases hclosed : recorded.closed with
  | false => exact confirms_of_quiet (within_await r) hc
  | true => exact confirms_of_quiet (within_await r) (confirmed_append.mpr ⟨hc, h hclosed⟩)

theorem confirms_closeFill {qtyFilled avgPrice commission : ℚ} (hc : Confirmed c.terminals)
    (h : c.orders ⊆ c.reported) : Confirms (closeFill k a qtyFilled avgPrice commission) c := by
  unfold closeFill
  rw [confirms_bind, wp_get]
  exact confirms_recordClose hc fun _ => h

/-- A partial close moves the group to CLOSED only when the cancel comes too late. -/
theorem confirms_closePartial {qtyFilled avgPrice commission : ℚ} (hc : Confirmed c.terminals)
    (h : ∀ reading, a.settlePartial.value = .ok reading →
      (reading.settlement k.qtyRequested).resolution = .filled →
        c.orders ⊆ c.reported ++ a.settlePartial.reported ++ [k.ibOrderId]) :
    Confirms (closePartial k a qtyFilled avgPrice commission) c := by
  unfold closePartial
  rw [confirms_bind, wp_writeTxn, confirms_bind, wp_cancelAndAwaitResolution]
  cases hvalue : a.settlePartial.value with
  | error e => exact hc
  | ok reading =>
    dsimp only
    split
    case isTrue hfilled =>
      refine confirms_closeFill ?_ ?_
      · exact hc
      · simpa [hfilled] using h reading hvalue hfilled
    case isFalse =>
      rw [confirms_bind, wp_get]
      refine confirms_recordClose ?_ fun hclosed => absurd hclosed Bool.false_ne_true
      exact hc

theorem confirms_recordFill {qtyFilled avgPrice commission : ℚ} (hc : Confirmed c.terminals)
    (horders : c.orders ⊆ [k.ibOrderId]) :
    Confirms (recordFill k a qtyFilled avgPrice commission) c := by
  have hheard : ∀ ids, c.orders ⊆ ids ++ [k.ibOrderId] := fun ids =>
    List.Subset.trans horders (List.subset_append_right ids [k.ibOrderId])
  unfold recordFill
  split
  case isTrue =>
    rw [confirms_bind, wp_hear]
    exact confirms_closeFill hc (hheard _)
  case isFalse => exact confirms_closePartial hc fun _ _ _ => hheard _

theorem confirms_giveUpClose (hc : Confirmed c.terminals) (horders : c.orders ⊆ [k.ibOrderId]) :
    Confirms (giveUpClose k a) c := by
  unfold giveUpClose
  rw [confirms_bind, wp_await]
  cases a.cancel.value with
  | error e => exact hc
  | ok u =>
    dsimp only
    rw [confirms_bind, wp_await]
    cases a.polls.value with
    | error e => exact hc
    | ok polls =>
      dsimp only
      split
      · exact confirms_recordFill hc horders
      · exact confirms_pure hc

theorem confirms_awaitClose (hc : Confirmed c.terminals) (horders : c.orders ⊆ [k.ibOrderId]) :
    Confirms (awaitClose k a) c := by
  unfold awaitClose
  rw [confirms_bind, wp_await]
  cases a.reading.value with
  | error e => exact hc
  | ok reading =>
    dsimp only
    generalize reading.outcome = outcome
    cases outcome.avgPrice with
    | none => exact confirms_giveUpClose hc horders
    | some avgPrice =>
      dsimp only
      split
      · exact confirms_recordFill hc horders
      · exact confirms_giveUpClose hc horders

theorem confirms_limitClose (hc : Confirmed c.terminals) (horders : c.orders ⊆ [k.ibOrderId]) :
    Confirms (limitClose k a) c := by
  unfold limitClose
  rw [confirms_bind, wp_await]
  cases a.reading.value with
  | error e => exact hc
  | ok reading =>
    dsimp only
    generalize reading.immediate = immediate
    cases immediate.avgPrice with
    | none => exact confirms_pure hc
    | some avgPrice =>
      dsimp only
      split
      · exact confirms_recordFill hc horders
      · exact confirms_pure hc

/-- A smart-market close that sends its market order leaves no order of the leg
    unresolved when it records a full close. -/
def CrossConfirms (a : CloseReplies) (limitId : ℤ) (qty : ℚ) (known : List ℤ) : Prop :=
  ∀ reading marketId status, a.settle.value = .ok reading → a.market.value = .ok marketId →
    a.marketStatus.value = .ok status →
      let s := reading.settlement qty
      let totalQty := s.qty + status.qtyFilled
      let heard := known ++ a.settle.reported ++ a.market.reported ++ a.marketStatus.reported
      s.qty < qty →
        -- the cancel of the limit order has timed out
        (qty ≤ totalQty → s.resolution = .timeout → limitId ∈ heard) ∧
        -- the limit order fills after all, next to the market order
        (0 < totalQty → totalQty < qty → ∀ late, a.settlePartial.value = .ok late →
          (late.settlement qty).resolution = .filled → marketDone status (qty - s.qty) = false →
            marketId ∈ heard ++ a.settlePartial.reported)

theorem confirms_recordCrossed {s : Settlement} {status : OrderStatus} (hc : Confirmed c.terminals)
    (hfull : k.qtyRequested ≤ s.qty + status.qtyFilled → c.orders ⊆ c.reported)
    (hshort : 0 < s.qty + status.qtyFilled → s.qty + status.qtyFilled < k.qtyRequested →
      ∀ late, a.settlePartial.value = .ok late →
        (late.settlement k.qtyRequested).resolution = .filled →
          c.orders ⊆ c.reported ++ a.settlePartial.reported ++ [k.ibOrderId]) :
    Confirms (recordCrossed k a s status) c := by
  unfold recordCrossed
  dsimp only
  split
  case isTrue hpos =>
    split
    case isTrue htotal => exact confirms_closeFill hc (hfull htotal)
    case isFalse htotal => exact confirms_closePartial hc (hshort hpos (not_le.mp htotal))
  case isFalse => exact confirms_pure hc

/-- The records after the status of the market order. -/
theorem confirms_marketResult {marketId : ℤ} {s : Settlement} {status : OrderStatus}
    (hc : Confirmed c.terminals) (horders : c.orders = [k.ibOrderId, marketId])
    (hfull : k.qtyRequested ≤ s.qty + status.qtyFilled → k.ibOrderId ∈ c.reported)
    (hshort : 0 < s.qty + status.qtyFilled → s.qty + status.qtyFilled < k.qtyRequested →
      ∀ late, a.settlePartial.value = .ok late →
        (late.settlement k.qtyRequested).resolution = .filled →
          marketDone status (k.qtyRequested - s.qty) = false →
            marketId ∈ c.reported ++ a.settlePartial.reported) :
    Confirms (do
      runIf (marketDone status (k.qtyRequested - s.qty)) (hear [marketId])
      recordCrossed k a s status) c := by
  rw [confirms_bind, wp_runIf]
  cases hdone : marketDone status (k.qtyRequested - s.qty) with
  | true =>
    rw [if_pos rfl, wp_hear]
    refine confirms_recordCrossed ?_ ?_ ?_
    · exact hc
    · intro htotal
      rw [horders]
      exact List.cons_subset.mpr ⟨List.mem_append_left _ (hfull htotal),
        List.subset_append_right _ _⟩
    · intro _ _ late _ _
      simp [horders]
  | false =>
    rw [if_neg Bool.false_ne_true]
    refine confirms_recordCrossed hc ?_ ?_
    · -- a full close has the whole rest filled by the market order
      intro htotal
      have hwhole : marketDone status (k.qtyRequested - s.qty) = true := by
        rw [marketDone, Bool.or_eq_true]
        exact .inr (decide_eq_true (sub_le_iff_le_add'.mpr htotal))
      rw [hdone] at hwhole
      cases hwhole
    · intro hpos htotal late hlate hfilled
      have hmarket := hshort hpos htotal late hlate hfilled hdone
      rw [horders]
      exact List.cons_subset.mpr ⟨List.mem_append_right _ (List.mem_singleton.mpr rfl),
        List.cons_subset.mpr ⟨List.mem_append_left _ hmarket, List.nil_subset _⟩⟩

theorem confirms_crossToMarket (hc : Confirmed c.terminals) (horders : c.orders = [k.ibOrderId])
    (h : CrossConfirms a k.ibOrderId k.qtyRequested c.reported) :
    Confirms (crossToMarket k a) c := by
  unfold crossToMarket
  rw [confirms_bind, wp_cancelAndAwaitResolution]
  cases hsettle : a.settle.value with
  | error e => exact hc
  | ok reading =>
    dsimp only
    split
    case isFalse => exact confirms_awaitClose hc (by simp [horders])
    case isTrue hresidual =>
      rw [confirms_bind, wp_exceptException, wp_bind, wp_await]
      cases hmarket : a.market.value with
      | error e =>
        cases e with
        | exception => exact confirms_awaitClose hc (by simp [horders])
        | taskCancelled => exact hc
      | ok marketId =>
        dsimp only
        rw [wp_pure]
        dsimp only
        rw [confirms_bind, wp_modify, confirms_bind, wp_await]
        cases hstatus : a.marketStatus.value with
        | error e => exact hc
        | ok status =>
          obtain ⟨hfull, hshort⟩ := h reading marketId status hsettle hmarket hstatus
            (sub_pos.mp hresidual)
          refine confirms_marketResult ?_ ?_ ?_ ?_
          · exact hc
          · change c.orders ++ [marketId] = _
            rw [horders]
            rfl
          · intro htotal
            by_cases htimeout : (reading.settlement k.qtyRequested).resolution = .timeout
            · simpa [htimeout] using hfull htotal htimeout
            · simp [htimeout]
          · intro hpos htotal late hlate hfilled hdone
            have hmem := hshort hpos htotal late hlate hfilled hdone
            by_cases htimeout : (reading.settlement k.qtyRequested).resolution = .timeout
            · simpa [htimeout] using hmem
            · simp only [List.mem_append] at hmem ⊢
              grind

/-- A walk that has used up its time leaves the close to the market. -/
def CloseWalk.crosses (walk : CloseWalk) (qty : ℚ) : Bool :=
  walk.rth && walk.status = .durationExpired && walk.qtyFilled < qty

theorem confirms_smartMarketClose (hc : Confirmed c.terminals) (horders : c.orders = [k.ibOrderId])
    (h : ∀ walk, a.walk.value = .ok walk → walk.crosses k.qtyRequested = true →
      CrossConfirms a k.ibOrderId k.qtyRequested (c.reported ++ a.walk.reported)) :
    Confirms (smartMarketClose k a) c := by
  unfold smartMarketClose
  rw [confirms_bind, wp_await]
  cases hwalk : a.walk.value with
  | error e => exact hc
  | ok walk =>
    dsimp only
    split
    case isTrue => exact confirms_pure hc
    case isFalse =>
      split
      case isTrue hcrosses =>
        refine confirms_crossToMarket ?_ horders (h walk hwalk ?_)
        · exact hc
        · simpa [CloseWalk.crosses, and_assoc] using hcrosses
      case isFalse => exact confirms_awaitClose hc (by simp [horders])

/-- The close crosses to the market. -/
def Crosses (cmd : CloseCommand) (a : CloseReplies) (qty : ℚ) : Prop :=
  cmd.strategy = .smartMarket ∧
    (∃ ack, a.ack.value = .ok ack ∧ ackRefused ack.status = false) ∧
      ∃ walk, a.walk.value = .ok walk ∧ walk.crosses qty = true

theorem confirms_watchClose {cmd : CloseCommand} (hc : Confirmed c.terminals)
    (horders : c.orders = [k.ibOrderId])
    (h : Crosses cmd a k.qtyRequested → CrossConfirms a k.ibOrderId k.qtyRequested
      (c.reported ++ a.ack.reported ++ a.walk.reported)) :
    Confirms (watchClose cmd k a) c := by
  have hsubset : c.orders ⊆ [k.ibOrderId] := by simp [horders]
  unfold watchClose
  split
  case isTrue => exact confirms_awaitClose hc hsubset
  case isFalse =>
    rw [confirms_bind, wp_await]
    cases hack : a.ack.value with
    | error e => exact hc
    | ok ack =>
      dsimp only
      cases hrefused : ackRefused ack.status with
      | true => exact confirms_of_quiet (within_await a.ackCancel) hc
      | false =>
        cases hstrategy : cmd.strategy with
        | limit => exact confirms_limitClose hc hsubset
        | smartMarket =>
          refine confirms_smartMarketClose ?_ horders fun walk hwalk hcrosses => ?_
          · exact hc
          · exact h ⟨hstrategy, ⟨ack, hack, hrefused⟩, walk, hwalk, hcrosses⟩
        | mid | bidAsk | market => exact confirms_awaitClose hc hsubset

/-- IB reports each of the exit orders before its cancel returns. -/
def SiblingsConfirm (cancelled : ℤ → Reply Unit) :
    List ℤ → List (ℤ × TransactionEvent) → Prop
  | _, [] => True
  | known, (id, _) :: later => (cancelled id).value = .ok () →
    id ∈ known ++ (cancelled id).reported ∧
      SiblingsConfirm cancelled (known ++ (cancelled id).reported) later

/-- What IB reports while the exit orders are cancelled. -/
def siblingsReported (cancelled : ℤ → Reply Unit) (legs : List (ℤ × TransactionEvent)) : List ℤ :=
  legs.flatMap fun leg => (cancelled leg.1).reported

theorem wp_cancelSiblings {cancelled : ℤ → Reply Unit} (legs : List (ℤ × TransactionEvent)) (c : Ctx)
    (hc : Confirmed c.terminals) (h : SiblingsConfirm cancelled c.reported legs) :
    wp (cancelSiblings cancelled legs)
      (fun _ c' => Confirmed c'.terminals ∧
        c'.reported = c.reported ++ siblingsReported cancelled legs)
      (fun _ c' => Confirmed c'.terminals) c := by
  induction legs generalizing c with
  | nil => exact ⟨hc, by simp [siblingsReported]⟩
  | cons leg later ih =>
    obtain ⟨id, row⟩ := leg
    unfold cancelSiblings
    rw [wp_bind, wp_writeTxn, wp_bind, wp_await]
    cases hvalue : (cancelled id).value with
    | error e => exact hc
    | ok u =>
      obtain ⟨hid, hlater⟩ := h hvalue
      dsimp only
      rw [wp_bind, wp_writeTxn, wp_bind, wp_noteTerminal]
      refine wp_mono (ih _ ?_ hlater) ?_ (fun _ _ h => h)
      · exact confirmed_append.mpr ⟨hc, by simpa using hid⟩
      · rintro _ c' ⟨hc', hreported⟩
        exact ⟨hc', by simp [hreported, siblingsReported]⟩

/-- When the records of a close by serial number are confirmed. -/
def CloseConfirms (cmd : CloseCommand) (a : CloseReplies) (c : Ctx) : Prop :=
  let legs := openExits c.trade.rows
  ∀ qty, closeQuantity c.trade.rows = some qty →
    SiblingsConfirm a.cancelled c.reported legs ∧
      ∀ ibOrderId, a.placed.value = .ok ibOrderId → Crosses cmd a qty →
        CrossConfirms a ibOrderId qty (c.reported ++ siblingsReported a.cancelled legs ++
          a.prepared.reported ++ a.placed.reported ++ a.ack.reported ++ a.walk.reported)

theorem confirms_executeClose {cmd : CloseCommand} (hc : Confirmed c.terminals)
    (h : CloseConfirms cmd a c) : Confirms (executeClose cmd a) c := by
  unfold executeClose
  rw [confirms_bind, wp_get]
  dsimp only
  split
  case h_1 entry qty _ hqty =>
    obtain ⟨hsiblings, hcross⟩ := h qty hqty
    rw [confirms_bind]
    refine wp_mono (wp_cancelSiblings (openExits c.trade.rows) c hc hsiblings) ?_ (fun _ _ h => h)
    rintro _ c' ⟨hc', hreported⟩
    rw [confirms_bind, wp_await]
    cases a.prepared.value with
    | error e => exact hc'
    | ok u =>
      dsimp only
      rw [confirms_bind, wp_writeTxn, confirms_bind, wp_await]
      cases hplaced : a.placed.value with
      | error e => exact hc'
      | ok ibOrderId =>
        dsimp only
        rw [confirms_bind, wp_writeTxn, confirms_bind, wp_modify]
        refine confirms_watchClose ?_ rfl fun hcrosses => ?_
        · exact hc'
        · have hknown := hcross ibOrderId hplaced hcrosses
          rwa [← hreported] at hknown
  case h_2 => exact confirms_pure hc

/-- IB reports each order swept by the time its cancel returns. -/
def SweepConfirms : List ℤ → List WorkingOrder → Prop
  | _, [] => True
  | known, order :: later =>
    match order.cancel.value with
    | .ok () => order.ibOrderId ∈ known ++ order.cancel.reported ∧
      SweepConfirms (known ++ order.cancel.reported) later
    | .error .exception => SweepConfirms (known ++ order.cancel.reported) later
    | .error .taskCancelled => True

theorem confirms_sweep (orders : List WorkingOrder) (c : Ctx) (hc : Confirmed c.terminals)
    (h : SweepConfirms c.reported orders) : Confirms (sweep orders) c := by
  induction orders generalizing c with
  | nil => exact confirms_pure hc
  | cons order later ih =>
    unfold sweep
    unfold SweepConfirms at h
    rw [confirms_bind, wp_exceptException, wp_bind, wp_await]
    cases hvalue : order.cancel.value with
    | ok u =>
      rw [hvalue] at h
      obtain ⟨hid, hlater⟩ := h
      dsimp only
      rw [wp_pure, confirms_bind, wp_runIf, if_pos rfl, wp_noteTerminal]
      exact ih _ (confirmed_append.mpr ⟨hc, by simpa using hid⟩) hlater
    | error e =>
      rw [hvalue] at h
      cases e with
      | exception =>
        refine ih _ ?_ h
        exact hc
      | taskCancelled => exact hc

/-- When the records of a close by ticker are confirmed: those of its order, and of
    the sweep in the state the order leaves. -/
def CloseSymbolConfirms (o : OrderContext) (hasBotRef : Bool) (positionQty : ℚ)
    (working : Reply (List WorkingOrder)) (placed : Reply Unit) (run : EntryRun) (a : Replies)
    (c : Ctx) : Prop :=
  ∀ orders, working.value = .ok orders →
    let c := { c with reported := c.reported ++ working.reported }
    if positionQty = 0 then SweepConfirms c.reported orders
    else
      OrderConfirms (nettingOrder o positionQty) placed run a c.reported ∧
        wp (executeOrder (nettingOrder o positionQty) { hasBotRef } placed run a)
          (fun _ c' => (c'.trade.rows.drop c.trade.rows.length).any (·.isFill) = true →
            SweepConfirms c'.reported orders)
          (fun _ _ => True) c

theorem confirms_executeCloseSymbol {o : OrderContext} {hasBotRef : Bool} {positionQty : ℚ}
    {working : Reply (List WorkingOrder)} {placed : Reply Unit} {run : EntryRun} {r : Replies}
    (hc : Confirmed c.terminals)
    (h : CloseSymbolConfirms o hasBotRef positionQty working placed run r c) :
    Confirms (executeCloseSymbol o hasBotRef positionQty working placed run r) c := by
  unfold executeCloseSymbol
  rw [confirms_bind, wp_await]
  cases hvalue : working.value with
  | error e => exact hc
  | ok orders =>
    have hconfirms := h orders hvalue
    dsimp only at hconfirms ⊢
    split
    case isTrue hflat =>
      rw [if_pos hflat] at hconfirms
      refine confirms_sweep orders _ ?_ hconfirms
      exact hc
    case isFalse hflat =>
      rw [if_neg hflat] at hconfirms
      obtain ⟨horder, hsweep⟩ := hconfirms
      rw [confirms_bind, wp_get, confirms_bind]
      refine wp_mono (wp_and (confirms_executeOrder ?_ horder) hsweep) ?_ (fun _ _ h => h.1)
      · exact hc
      · rintro _ c' ⟨hc', hrows⟩
        rw [confirms_bind, wp_get]
        cases hfilled : (c'.trade.rows.drop c.trade.rows.length).any (·.isFill) with
        | false => exact confirms_pure hc'
        | true => exact confirms_sweep orders c' hc' (hrows hfilled)

end Closes

-- ============================================================================
-- Every command
-- ============================================================================

/-- A run of one of the order commands. -/
inductive CommandRun where
  | order (o : OrderContext) (cmd : Command) (placed : Reply Unit) (run : EntryRun) (a : Replies)
  | close (cmd : CloseCommand) (a : CloseReplies)
  | closeSymbol (o : OrderContext) (hasBotRef : Bool) (positionQty : ℚ)
    (working : Reply (List WorkingOrder)) (placed : Reply Unit) (run : EntryRun) (a : Replies)

def CommandRun.flow : CommandRun → Flow Unit
  | .order o cmd placed run a => executeOrder o cmd placed run a
  | .close cmd a => executeClose cmd a
  | .closeSymbol o hasBotRef positionQty working placed run a =>
    executeCloseSymbol o hasBotRef positionQty working placed run a

/-- IB's reports come before the records of the run. -/
def CommandRun.ReportedFirst (c : Ctx) : CommandRun → Prop
  | .order o _ placed run a => OrderConfirms o placed run a c.reported
  | .close cmd a => CloseConfirms cmd a c
  | .closeSymbol o hasBotRef positionQty working placed run a =>
    CloseSymbolConfirms o hasBotRef positionQty working placed run a c

/-- In a run in which every record that is made without waiting for IB comes after
    IB's report, no order that is live at IB is recorded as terminal. -/
theorem terminals_confirmed (run : CommandRun) (c : Ctx) (hc : Confirmed c.terminals)
    (h : run.ReportedFirst c) : Confirmed (left run.flow c).terminals := by
  cases run with
  | order o cmd placed run a => exact (confirms_executeOrder hc h).left
  | close cmd a => exact (confirms_executeClose hc h).left
  | closeSymbol o hasBotRef positionQty working placed run a =>
    exact (confirms_executeCloseSymbol hc h).left

/-- A filled entry with a working profit taker. -/
def heldRows : List TransactionEvent :=
  [{ action := .filled, ibOrderId := some 101, legType := .entry, side := .buy, quantity := 10,
     ibFilledQty := some 10, ibAvgFillPrice := some 100, isTerminal := true },
   placementRow .placeAccepted (some 201) .profitTaker .sell 10 none]

/-- A close of it that fills at once; `reported` is what IB reports while
    `cancel_order` runs for the profit taker. -/
def heldClose (reported : List ℤ) : CommandRun :=
  .close { strategy := .mid }
    { cancelled := fun _ => { value := .ok (), reported }
      placed := { value := .ok 301 }
      reading := { value := .ok { status := {
        status := "Filled", qtyFilled := 10, avgFillPrice := some 101 } } } }

theorem heldClose_confirmed :
    Confirmed (left (heldClose [201]).flow { trade := { rows := heldRows } }).terminals ∧
      (left (heldClose [201]).flow { trade := { rows := heldRows } }).terminals.length = 2 := by
  refine ⟨terminals_confirmed _ _ (by decide) fun qty hqty => ⟨?_, ?_⟩, by decide +kernel⟩
  · have hlegs : openExits heldRows =
        [(201, placementRow .placeAccepted (some 201) .profitTaker .sell 10 none)] := by
      decide +kernel
    change SiblingsConfirm _ [] (openExits heldRows)
    rw [hlegs]
    exact fun _ => ⟨List.mem_singleton.mpr rfl, trivial⟩
  · rintro ibOrderId - ⟨hstrategy, -⟩
    cases hstrategy

/-- The profit taker is recorded as cancelled before IB has answered: it is live
    at IB, or filling. -/
theorem heldClose_unconfirmed :
    (left (heldClose []).flow { trade := { rows := heldRows } }).terminals =
        [{ orders := [201], reported := [] }, { orders := [301], reported := [301] }] ∧
      ¬Confirmed (left (heldClose []).flow { trade := { rows := heldRows } }).terminals := by
  decide +kernel

end IbTrader.Engine.OrderFlow
