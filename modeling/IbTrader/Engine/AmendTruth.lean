/-
  IbTrader.Engine.AmendTruth

  The two repricing loops (`reprice_loop` and `_walk_limit_aggressive` in
  `ib_trader/engine/order.py`) and the `amend_order` they call.

  A loop takes an `amend_order` that returns for an amendment: its last-sent price and the
  rows it writes go by it.
-/

import IbTrader.Engine.RepriceLoop
import IbTrader.Engine.WalkPrices
import IbTrader.Ib.AmendOrder
import IbTrader.Lib.Calls

namespace IbTrader.Engine

open Lib Data Ib

/-- How `amend_order` comes back. -/
def amendAnswer (ibOrderId : String) (newPrice : ℚ) (view : AmendView) : Answer ℚ :=
  match amendOrder view ibOrderId newPrice with
  | .placed order => .carriedOut order.price
  | .skipped => .ignored
  | .raised _ => .refused

theorem amendAnswer_value {ibOrderId : String} {newPrice value : ℚ} {view : AmendView}
    (h : amendAnswer ibOrderId newPrice view = .carriedOut value) : value = newPrice := by
  unfold amendAnswer at h
  split at h
  case h_1 order hplaced =>
    rw [← Answer.carriedOut.inj h]
    exact (amendOrder_placed hplaced).2
  case h_2 => cases h
  case h_3 => cases h

theorem amendAnswer_ignored_iff (ibOrderId : String) (newPrice : ℚ) (view : AmendView) :
    amendAnswer ibOrderId newPrice view = .ignored ↔ ¬ view.Reaches ibOrderId := by
  rw [← amendOrder_skipped_iff view ibOrderId newPrice, amendAnswer]
  split
  case h_1 order hplaced => exact iff_of_false nofun (by rw [hplaced]; exact nofun)
  case h_2 hskipped => exact iff_of_true rfl hskipped
  case h_3 message hraised => exact iff_of_false nofun (by rw [hraised]; exact nofun)

-- ============================================================================
-- The loop over steps
-- ============================================================================

namespace RepriceLoop

/-- The prices of the rows of a table. -/
def Event.rowOf (table : Table) : Event → Option ℚ
  | .row table' amendment => if table' = table then some amendment.newPrice else none
  | _ => none

def rows (table : Table) (log : List Event) : List ℚ := log.filterMap (Event.rowOf table)

/-- The amendment that is awaited. -/
def Phase.amendment? : Phase → Option Amendment
  | .amending amendment => some amendment
  | _ => none

/-- `reprice_loop` as a caller of `amend_order`. -/
def caller (args : Args) (ibOrderId : String) : Caller Run Input (AmendView × Reading) Table ℚ where
  pending run := run.phase.amendment?.map Amendment.newPrice
  answer newPrice call := amendAnswer ibOrderId newPrice call.1
  returns run call := step args run (.resume call.2)
  refused run _ := step args run .raises
  other run input :=
    match run.phase, input with
    -- `amend_order` has not come back yet
    | .amending _, .resume _ => run
    | _, input => step args run input
  believed run := some run.lastSentPrice
  book table run := rows table run.log

/-- The price awaited is not the last one. -/
def Run.Fresh (run : Run) : Prop := ∀ amendment ∈ run.phase.amendment?, amendment.newPrice ≠ run.lastSentPrice

/-- What a step that is not the return of `amend_order` leaves as it is. -/
structure Run.Same (run run' : Run) : Prop where
  lastSentPrice : run'.lastSentPrice = run.lastSentPrice
  booked : ∀ table, rows table run'.log = rows table run.log
  fresh : run'.Fresh

section Same

variable {args : Args} {run : Run} {amendment : Amendment}

theorem Run.Same.of_log {phase : Phase} {events : List Event} (hevents : ∀ table, rows table events = [])
    (hfresh : ∀ amendment ∈ phase.amendment?, amendment.newPrice ≠ run.lastSentPrice) :
    run.Same { run with phase, log := run.log ++ events } where
  lastSentPrice := rfl
  booked table := by
    show (run.log ++ events).filterMap (Event.rowOf table) = _
    rw [List.filterMap_append]
    exact (congrArg (_ ++ ·) (hevents table)).trans (List.append_nil _)
  fresh := hfresh

/-- The loop only goes to another place. -/
theorem Run.Same.of_phase {phase : Phase} (h : phase.amendment? = none) : run.Same { run with phase } where
  lastSentPrice := rfl
  booked _ := rfl
  fresh amendment hamendment := by
    rw [show ({ run with phase } : Run).phase.amendment? = none from h] at hamendment
    cases hamendment

theorem same_leave (run : Run) (step : ℕ) (seen : Observed) : run.Same (leave run step seen) := by
  cases seen <;> exact .of_log (fun _ => rfl) nofun

theorem same_enter (args : Args) (run : Run) (step : ℕ) (r : Reading) : run.Same (enter args run step r) := by
  unfold enter
  split
  · exact .of_phase rfl
  · split
    · exact same_leave run step _
    · exact .of_phase rfl

theorem same_wake (run : Run) (step : ℕ) (r : Reading) : run.Same (wake run step r) := by
  unfold wake
  split
  · exact same_leave run step _
  · exact .of_phase rfl

theorem same_reprice (args : Args) (run : Run) (step : ℕ) (r : Reading) : run.Same (reprice args run step r) := by
  unfold reprice
  split
  · exact same_enter args run (step + 1) r
  · dsimp only
    split
    · exact .of_phase rfl
    · split_ifs with hsame
      · exact .of_phase rfl
      · refine .of_log (fun _ => rfl) fun amendment hamendment => ?_
        rw [← Option.some.inj hamendment]
        exact hsame

theorem same_other (args : Args) (ibOrderId : String) (run : Run) (hfresh : run.Fresh) (input : Input) :
    run.Same ((caller args ibOrderId).other run input) := by
  have hself : run.Same run := ⟨rfl, fun _ => rfl, hfresh⟩
  cases input with
  | raises =>
    have hstep : (caller args ibOrderId).other run .raises = { run with phase := .done } := by
      show (match run.phase, Input.raises with | .amending _, .resume _ => run | _, input => step args run input) = _
      split
      · contradiction
      · rfl
    rw [hstep]
    exact .of_phase rfl
  | resume r =>
    show run.Same (match run.phase, Input.resume r with | .amending _, .resume _ => run | _, input => step args run input)
    split
    · exact hself
    case h_2 hother =>
      show run.Same (resume args run r)
      unfold resume
      cases hphase : run.phase with
      | created => exact same_enter args run 1 r
      | sleeping step => exact same_wake run step r
      | pricing step => exact same_reprice args run step r
      | holding step => exact same_enter args run (step + 1) r
      | amending amendment => exact absurd rfl (hother amendment r hphase)
      | reporting step => exact same_enter args run (step + 1) r
      | paused step => exact .of_phase rfl
      | done => exact hself

/-- The rows of an amendment are of its price. -/
theorem rows_record (table : Table) (run : Run) (amendment : Amendment) (r : Reading) :
    (rows table (record run amendment r).log).Sublist (rows table run.log ++ [amendment.newPrice]) := by
  have happend (events : List Event) (h : (rows table events).Sublist [amendment.newPrice]) :
      (rows table (run.log ++ events)).Sublist (rows table run.log ++ [amendment.newPrice]) := by
    rw [rows, List.filterMap_append]
    exact (List.Sublist.refl _).append h
  unfold record
  dsimp only
  split
  · exact List.sublist_append_left _ _
  · refine happend _ ?_
    cases table with
    | repriceEvents => exact .refl _
    | transactions => exact List.nil_sublist _
  · refine happend _ ?_
    cases table with
    | repriceEvents => exact .refl _
    | transactions => exact .refl _

theorem Phase.amendment?_eq_some {phase : Phase} {amendment : Amendment} (h : phase.amendment? = some amendment) :
    phase = .amending amendment := by
  unfold Phase.amendment? at h
  split at h
  · rw [Option.some.inj h]
  · cases h

theorem step_amending (h : run.phase = .amending amendment) (r : Reading) :
    step args run (.resume r) = record run amendment r := by
  show resume args run r = _
  unfold resume
  rw [h]

theorem record_not_amending (run : Run) (amendment : Amendment) (r : Reading) :
    (record run amendment r).phase.amendment? = none := by
  unfold record
  dsimp only
  split <;> rfl

theorem record_lastSentPrice (run : Run) (amendment : Amendment) (r : Reading) :
    (record run amendment r).lastSentPrice = amendment.newPrice := by
  unfold record
  dsimp only
  split <;> rfl

theorem caller_lawful (args : Args) (ibOrderId : String) : (caller args ibOrderId).Lawful Run.Fresh := by
  have hpending {run : Run} {price : ℚ} (h : price ∈ (caller args ibOrderId).pending run) :
      ∃ amendment, run.phase = .amending amendment ∧ amendment.newPrice = price := by
    obtain ⟨amendment, hamendment, hprice⟩ := Option.map_eq_some_iff.mp h
    exact ⟨amendment, Phase.amendment?_eq_some hamendment, hprice⟩
  refine
    { inv_other := fun run input hfresh => (same_other args ibOrderId run hfresh input).fresh
      inv_returns := fun run call price hprice _ => ?_
      inv_refused := fun run _ _ _ _ => (Run.Same.of_phase rfl).fresh
      answer_value := fun _ _ _ h => amendAnswer_value h
      pending_ne := fun run hfresh price hprice => ?_
      believed_other := fun run input hfresh price hprice => ?_
      believed_returns := fun run call price hprice => ?_
      believed_refused := fun _ _ _ _ _ hprice => hprice
      book_other := fun table run input hfresh => (same_other args ibOrderId run hfresh input).booked table
      book_returns := fun table run call price hprice => ?_
      book_refused := fun _ _ _ _ _ => rfl }
  · obtain ⟨amendment, hphase, -⟩ := hpending hprice
    intro next hnext
    have hnone : (step args run (.resume call.2)).phase.amendment? = none := by
      rw [step_amending hphase]
      exact record_not_amending run amendment call.2
    exact nomatch hnone.symm.trans hnext
  · obtain ⟨amendment, hphase, rfl⟩ := hpending hprice
    exact ⟨run.lastSentPrice, rfl, hfresh amendment (by rw [hphase]; rfl)⟩
  · rw [← Option.some.inj hprice]
    exact congrArg some (same_other args ibOrderId run hfresh input).lastSentPrice.symm
  · obtain ⟨amendment, hphase, rfl⟩ := hpending hprice
    show some (step args run (.resume call.2)).lastSentPrice = some amendment.newPrice
    rw [step_amending hphase, record_lastSentPrice]
  · obtain ⟨amendment, hphase, rfl⟩ := hpending hprice
    show (rows table (step args run (.resume call.2)).log).Sublist _
    rw [step_amending hphase]
    exact rows_record table run amendment call.2

end Same

end RepriceLoop

-- ============================================================================
-- The aggressive walk
-- ============================================================================

namespace SmartMarket

/-- `_walk_limit_aggressive` as a caller of `amend_order`.  It writes no rows. -/
def caller (order : Order) (ibOrderId : String) : Caller Run Input (AmendView × Reading) Empty ℚ where
  pending := Run.amends
  answer newPrice call := amendAnswer ibOrderId newPrice call.1
  returns run call := step order run (.resume call.2)
  refused run call := step order run (.raises call.2.now)
  other run input :=
    match run.phase, input with
    -- `amend_order` has not come back yet
    | .walkAmend .., .resume _ => run
    | .walkAmend .., .raises _ => run
    | _, input => step order run input
  believed run := run.phase.walk?.map Walk.lastSent
  book table _ := table.elim

/-- The limit order is placed, and a price about to be sent is not the last one. -/
def Phase.Fresh (phase : Phase) : Prop :=
  phase.Placed ∧
    match phase with
    | .walkPreAmend walk stepPrice | .walkAmend walk stepPrice => stepPrice ≠ walk.lastSent
    | _ => True

section Walk

variable {order : Order} {phase next : Phase}

theorem WalkMove.fresh (h : WalkMove order phase next) (hfresh : phase.Fresh) : next.Fresh := by
  cases h with
  | stay => exact hfresh
  | idle _ hidle => rcases hidle with rfl | rfl | rfl | rfl <;> exact ⟨trivial, trivial⟩
  | reprice bid ask hcap hne => exact ⟨trivial, hne⟩
  | check => exact ⟨trivial, hfresh.2⟩
  | amend => exact ⟨trivial, trivial⟩
  | ended hplaced hwalk =>
    refine ⟨hplaced, ?_⟩
    split
    · cases hwalk
    · cases hwalk
    · exact trivial

/-- Other than at the return of `amend_order`, the last price does not change. -/
theorem WalkMove.lastSent (h : WalkMove order phase next) (hphase : ∀ walk stepPrice, phase ≠ .walkAmend walk stepPrice)
    {walk : Walk} (hnext : next.walk? = some walk) : phase.walk? = some walk := by
  cases h with
  | stay => exact hnext
  | idle hwalk hidle =>
    rw [hwalk, ← hnext]
    rcases hidle with rfl | rfl | rfl | rfl <;> rfl
  | reprice => exact hnext
  | check => exact hnext
  | amend => exact absurd rfl (hphase _ _)
  | ended _ hwalk => exact nomatch hwalk.symm.trans hnext

/-- What happens while `amend_order` is awaited leaves the walk where it is, or ends it. -/
theorem other_amending {run : Run} {walk : Walk} {stepPrice : ℚ} (h : run.phase = .walkAmend walk stepPrice)
    (ibOrderId : String) (input : Input) :
    ((caller order ibOrderId).other run input).phase = run.phase ∨
      ((caller order ibOrderId).other run input).phase = .done .raised := by
  unfold caller
  dsimp only
  rw [h]
  cases input with
  | limit event => exact .inl h
  | market event => exact .inl h
  | resume r => exact .inl h
  | raises now => exact .inl h
  | taskCancelled =>
    refine .inr ?_
    show (taskCancelled run).phase = _
    unfold taskCancelled
    rw [h]

theorem other_not_amending {run : Run} (h : ∀ walk stepPrice, run.phase ≠ .walkAmend walk stepPrice)
    (ibOrderId : String) (input : Input) : (caller order ibOrderId).other run input = step order run input := by
  unfold caller
  dsimp only
  split
  case h_1 walk stepPrice _ hphase => exact absurd hphase (h walk stepPrice)
  case h_2 walk stepPrice _ hphase => exact absurd hphase (h walk stepPrice)
  case h_3 => rfl

theorem amends_eq_some {run : Run} {price : ℚ} (h : run.amends = some price) : ∃ walk, run.phase = .walkAmend walk price := by
  unfold Run.amends at h
  split at h
  case h_1 walk stepPrice hphase => exact ⟨walk, by rw [hphase, Option.some.inj h]⟩
  case h_2 => cases h

theorem step_amended {run : Run} {walk : Walk} {stepPrice : ℚ} (h : run.phase = .walkAmend walk stepPrice) (r : Reading) :
    (step order run (.resume r)).phase = .walkTop { walk with lastSent := stepPrice } := by
  show (resume order run r).phase = _
  unfold resume
  rw [h]

theorem step_refused {run : Run} {walk : Walk} {stepPrice : ℚ} (h : run.phase = .walkAmend walk stepPrice) (now : ℚ) :
    (step order run (.raises now)).phase = .walkAmendCheck walk := by
  show (raises order run now).phase = _
  unfold raises
  rw [h]

theorem caller_lawful (order : Order) (ibOrderId : String) :
    (caller order ibOrderId).Lawful fun run => run.phase.Fresh where
  inv_other run input hfresh := by
    by_cases hamending : ∃ walk stepPrice, run.phase = .walkAmend walk stepPrice
    · obtain ⟨walk, stepPrice, hphase⟩ := hamending
      rcases other_amending hphase ibOrderId input with hsame | hdone
      · rw [hsame]
        exact hfresh
      · rw [hdone]
        exact ⟨trivial, trivial⟩
    · rw [other_not_amending (fun walk stepPrice h => hamending ⟨walk, stepPrice, h⟩)]
      exact (walkMove_step order run hfresh.1 input).fresh hfresh
  inv_returns run call price hprice hfresh := (walkMove_step order run hfresh.1 _).fresh hfresh
  inv_refused run call price hprice hfresh := (walkMove_step order run hfresh.1 _).fresh hfresh
  answer_value _ _ _ h := amendAnswer_value h
  pending_ne run hfresh price hprice := by
    obtain ⟨walk, hphase⟩ := amends_eq_some hprice
    rw [hphase] at hfresh
    refine ⟨walk.lastSent, ?_, hfresh.2⟩
    show run.phase.walk?.map Walk.lastSent = some walk.lastSent
    rw [hphase]
    rfl
  believed_other run input hfresh price hprice := by
    obtain ⟨walk, hwalk, hlast⟩ := Option.map_eq_some_iff.mp hprice
    refine Option.map_eq_some_iff.mpr ⟨walk, ?_, hlast⟩
    by_cases hamending : ∃ walk stepPrice, run.phase = .walkAmend walk stepPrice
    · obtain ⟨_, stepPrice, hphase⟩ := hamending
      rcases other_amending hphase ibOrderId input with hsame | hdone
      · rw [← hsame]
        exact hwalk
      · rw [hdone] at hwalk
        cases hwalk
    · have hphase : ∀ walk stepPrice, run.phase ≠ .walkAmend walk stepPrice := fun walk stepPrice h =>
        hamending ⟨walk, stepPrice, h⟩
      rw [other_not_amending hphase] at hwalk
      exact (walkMove_step order run hfresh.1 input).lastSent hphase hwalk
  believed_returns run call price hprice := by
    obtain ⟨walk, hphase⟩ := amends_eq_some hprice
    show (step order run (.resume call.2)).phase.walk?.map Walk.lastSent = some price
    rw [step_amended hphase]
    rfl
  believed_refused run call price hprice last hlast := by
    obtain ⟨walk, hphase⟩ := amends_eq_some hprice
    have hbefore : run.phase.walk?.map Walk.lastSent = some walk.lastSent := by
      rw [hphase]
      rfl
    have hafter : (step order run (.raises call.2.now)).phase.walk?.map Walk.lastSent = some walk.lastSent := by
      rw [step_refused hphase]
      rfl
    exact hbefore.trans (hafter.symm.trans hlast)
  book_other table := table.elim
  book_returns table := table.elim
  book_refused table := table.elim

end Walk

end SmartMarket

-- ============================================================================
-- Both loops
-- ============================================================================

/-- A call of `amend_order` meets an order that the client knows, and refuses to amend or
    finds acknowledged in time. -/
def CallReaches {σ ι ρ κ : Type*} (c : Caller σ ι (AmendView × ρ) κ ℚ) (ibOrderId : String) (w : World σ ℚ) :
    ι ⊕ (AmendView × ρ) → Prop
  | .inl _ => True
  | .inr call => c.pending w.program = none ∨ call.1.Reaches ibOrderId

theorem heeded_iff_callReaches {σ ι ρ κ : Type*} {c : Caller σ ι (AmendView × ρ) κ ℚ} {ibOrderId : String}
    (hanswer : ∀ newPrice call, c.answer newPrice call = amendAnswer ibOrderId newPrice call.1) (w : World σ ℚ)
    (input : ι ⊕ (AmendView × ρ)) : c.Heeded w input ↔ CallReaches c ibOrderId w input := by
  cases input with
  | inl i => exact Iff.rfl
  | inr call =>
    cases hpending : c.pending w.program with
    | none =>
      rw [Caller.Heeded, CallReaches, hpending]
      refine iff_of_true (fun newPrice hsome => ?_) (.inl rfl)
      cases hsome
    | some newPrice =>
      rw [Caller.heeded_of_pending hpending, hanswer, ne_eq, amendAnswer_ignored_iff, not_not, CallReaches, hpending]
      exact ⟨.inr, fun h => h.resolve_left (Option.some_ne_none newPrice)⟩

/-- The lawful callers of `amend_order`: what they believe and book is what was placed at IB
    throughout a run, exactly where each of their calls reaches the order. -/
theorem truthful_iff_callReaches {σ ι ρ κ : Type*} {c : Caller σ ι (AmendView × ρ) κ ℚ} {I : σ → Prop}
    {ibOrderId : String} (hlawful : c.Lawful I)
    (hanswer : ∀ newPrice call, c.answer newPrice call = amendAnswer ibOrderId newPrice call.1) {first : ℚ} {s : σ}
    (hs : I s) (hbelieved : ∀ b ∈ c.believed s, b = first) (hbook : ∀ k, c.book k s = [])
    (inputs : List (ι ⊕ (AmendView × ρ))) :
    (∀ before, before <+: inputs → c.Truthful first (before.foldl c.step { program := s })) ↔
      Along c.step (CallReaches c ibOrderId) { program := s } inputs := by
  rw [hlawful.truthful_iff hs hbelieved hbook inputs]
  exact Along.iff_of_invariant (I := fun _ => True) (fun _ _ _ => trivial)
    (fun w input _ => heeded_iff_callReaches hanswer w input) inputs trivial

/-- In every run of either loop: the last-sent price and the rows are of amendments that were
    placed at IB, exactly as long as each call of `amend_order` reaches the order. -/
theorem amends_truthful_iff (ibOrderId : String) :
    (∀ (args : RepriceLoop.Args) (inputs : List (RepriceLoop.Input ⊕ (AmendView × RepriceLoop.Reading))),
      (∀ before, before <+: inputs → (RepriceLoop.caller args ibOrderId).Truthful args.initialPrice
        (before.foldl (RepriceLoop.caller args ibOrderId).step { program := args.start })) ↔
      Along (RepriceLoop.caller args ibOrderId).step (CallReaches (RepriceLoop.caller args ibOrderId) ibOrderId)
        { program := args.start } inputs) ∧
    ∀ (args : SmartMarket.WalkArgs) (order : SmartMarket.Order)
      (inputs : List (SmartMarket.Input ⊕ (AmendView × SmartMarket.Reading))),
      (∀ before, before <+: inputs → (SmartMarket.caller order ibOrderId).Truthful args.triggerPrice
        (before.foldl (SmartMarket.caller order ibOrderId).step { program := args.start order })) ↔
      Along (SmartMarket.caller order ibOrderId).step (CallReaches (SmartMarket.caller order ibOrderId) ibOrderId)
        { program := args.start order } inputs := by
  constructor
  · intro args inputs
    refine truthful_iff_callReaches (RepriceLoop.caller_lawful args ibOrderId) (fun _ _ => rfl) ?_ ?_ (fun _ => rfl) inputs
    · exact nofun
    · exact fun price hprice => (Option.some.inj hprice).symm
  · intro args order inputs
    refine truthful_iff_callReaches (SmartMarket.caller_lawful order ibOrderId) (fun _ _ => rfl) ?_ ?_ nofun inputs
    · exact ⟨trivial, trivial⟩
    · exact fun price hprice => (Option.some.inj hprice).symm

/-- A working limit order that IB has not acknowledged. -/
def pendingView : AmendView where
  activeTrades := (∅ : Dict String Trade).put "7" { order := { orderId := 7 } }
  statuses _ := "PendingSubmit"

/-- The first step of a BUY: nothing is sent, and the price and both rows say it was. -/
theorem amends_truthful_fails : ¬ ∀ (ibOrderId : String),
    (∀ (args : RepriceLoop.Args) (inputs : List (RepriceLoop.Input ⊕ (AmendView × RepriceLoop.Reading))),
      (RepriceLoop.caller args ibOrderId).Truthful args.initialPrice
        (inputs.foldl (RepriceLoop.caller args ibOrderId).step { program := args.start })) ∧
    ∀ (args : SmartMarket.WalkArgs) (order : SmartMarket.Order)
      (inputs : List (SmartMarket.Input ⊕ (AmendView × SmartMarket.Reading))),
      (SmartMarket.caller order ibOrderId).Truthful args.triggerPrice
        (inputs.foldl (SmartMarket.caller order ibOrderId).step { program := args.start order }) := by
  intro h
  have htrue := (h "7").1 ⟨.buy, 2, 10005 / 100, none⟩
    (List.replicate 3 (.inl (.resume RepriceLoop.tenCents)) ++ [.inr (pendingView, RepriceLoop.tenCents)])
  have hrow := (htrue.book .transactions).length_le
  exact absurd hrow (by decide +kernel)

end IbTrader.Engine
