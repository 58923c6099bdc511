/-
  IbTrader.Engine.CommandOutcome

  The audit row, the terminal marker and the answer of a command tell the same outcome.

  The bookkeeping of a success and that of a failure share one `try`, so an exception of
  the first runs the second.  When the three agree is read off the calls of a run
  (`Sound`): up to the end of the execution nothing goes wrong, and from then on every
  call counts.
-/

import IbTrader.Engine.SingleCommand

namespace IbTrader.Engine.SingleCommand

open Lib Fallible Data
open OrderRef (encode encode_eq_ok_iff split split_intercalate fields)
open Repl (Command CloseCommand parseLine)

-- ============================================================================
-- Agreement
-- ============================================================================

/-- The outcome of an answer or of what is raised. -/
def outcome : Except Raised Result → Status
  | .ok result => result.status
  | .error _ => .failure

/-- The reference of an answer is the tag of every order placed, of which there is one. -/
def Tagged (result : Result) (s : State) : Prop :=
  ∀ ref, result.orderRef = some ref → s.orders ≠ [] ∧ ∀ tag ∈ s.orders, tag = some ref

/-- The row is completed at most once and the marker published at most once, both with the
    outcome that is returned or raised.  What has been executed is not a FAILURE in the row,
    and the reference that is returned is the tag of what has been placed. -/
structure Agrees (returned : Except Raised Result) (s : State) : Prop where
  rowOnce : s.completions.length ≤ 1
  markerOnce : s.markers.length ≤ 1
  row : ∀ c ∈ s.completions, c.status = outcome returned
  marker : ∀ m ∈ s.markers, m.status = outcome returned
  executed : s.executed → ∀ c ∈ s.completions, c.status = .success
  tagged : ∀ result, returned = .ok result → Tagged result s

/-- The row, the marker and the answer of a run agree. -/
def RunAgrees (env : Env) (commandText : String) (botRef : Option String) (cmdId : String) (r : Replies) : Prop :=
  wp (executeSingleCommand env commandText botRef cmdId r) (fun result => Agrees (.ok result))
    (fun e => Agrees (.error e)) {}

-- ============================================================================
-- When it holds
-- ============================================================================

/-- A buy, sell or close. -/
def isTrade : Command → Bool
  | .order _ | .close _ => true
  | .modify _ | .builtin _ => false

/-- The execution of a command returns. -/
def Performs (env : Env) (botRef : Option String) (r : Replies) : Command → Prop
  | .builtin _ => ∃ output, r.builtin = .ok output
  | cmd => wp (execute env botRef r cmd) (fun _ _ => True) (fun _ _ => False) {}

/-- SUCCESS is in the row. -/
def InRow (env : Env) (r : Replies) : Prop := env.audited ∧ r.completed = .ok true

/-- The bookkeeping of a success comes as far as the marker. -/
def ReachesMarker (env : Env) (r : Replies) : Prop :=
  env.audited → (∃ written, r.completed = .ok written) ∧ ¬ (env.redis ∧ r.notified)

/-- The marker returns. -/
def Answers (env : Env) (r : Replies) : Prop := ReachesMarker env r ∧ ¬ (env.redis ∧ r.published.cancelled)

/-- The bookkeeping of a success keeps to it.  Where SUCCESS cannot be written for a trade,
    nor can FAILURE, and after SUCCESS is told nothing is cancelled. -/
structure Booked (env : Env) (r : Replies) (cmd : Command) : Prop where
  row : isTrade cmd → env.audited → ∀ text, r.completed = .error text → r.failed ≠ .ok true
  notified : InRow env r → ¬ (env.redis ∧ r.notified)
  published : ReachesMarker env r → env.redis ∧ r.published.cancelled → ¬ InRow env r ∧ ¬ r.published.added

/-- A close of a ticker sells, under the name it is given, if the answer has a reference for
    an order. -/
def Sells (env : Env) (botRef : Option String) (r : Replies) : Command → Prop
  | .close cmd => ∀ symbol bot serial ref, given cmd.symbol = some symbol → given botRef = some bot →
      positionQty env (env.py.upper symbol) ≠ 0 → r.close.order.checked = .ok true →
      r.close.order.serial = .ok serial → encode env.py env.host bot symbol "S" serial = .ok ref →
      0 < positionQty env (env.py.upper symbol) ∧ env.py.upper symbol = symbol
  | _ => True

/-- When the row, the marker and the answer of a run agree: from the return of the execution
    on all is well. -/
def Sound (env : Env) (commandText : String) (botRef : Option String) (r : Replies) : Prop :=
  (env.audited → r.inserted = none ∧ ¬ (env.redis ∧ r.announced)) →
    ∀ cmd, parseLine env.py env.isalnum commandText = .ok (some cmd) → Performs env botRef r cmd →
      Booked env r cmd ∧ (Answers env r → Sells env botRef r cmd)

-- ============================================================================
-- Bookkeeping
-- ============================================================================

/-- Neither the row nor the marker tells anything yet. -/
def Untold (s : State) : Prop := s.completions = [] ∧ s.markers = []

section Rules

variable {α : Type} {Q : α → State → Prop} {R : Unit → State → Prop} {E : Raised → State → Prop}
  {env : Env} {s : State}

@[simp] theorem wp_call (x : Reply α) : wp (call x) Q E s ↔
    match x with
    | .ok a => Q a s
    | .error e => E e s := by
  cases x <;> rfl

@[simp] theorem wp_emit (lines : List String) :
    wp (emit lines) R E s ↔ R () { s with messages := lines.foldl append s.messages } := Iff.rfl

@[simp] theorem wp_updateOrderRow (serial : ℤ) (ibOrderId : Option String) :
    wp (updateOrderRow serial ibOrderId) R E s ↔
      R () { s with serial := some serial, ibOrderId := (given ibOrderId).or s.ibOrderId } := Iff.rfl

@[simp] theorem wp_placeOrder (tag : Option String) :
    wp (placeOrder tag) R E s ↔ R () { s with orders := s.orders ++ [tag] } := Iff.rfl

theorem wp_notifyCommandsChanged (cancelled : Bool) :
    wp (notifyCommandsChanged env cancelled) R E s ↔
      if env.redis ∧ cancelled then E .taskCancelled s else R () s := by
  unfold notifyCommandsChanged
  rw [wp_ite]
  rfl

/-- The row of a command that is audited. -/
theorem wp_complete (c : Completion) (reply : Except String Bool) (cancelled : Bool) :
    wp (complete env c reply cancelled) R E s ↔
      if env.audited then
        match reply with
        | .error text => E (.exception text) s
        | .ok written =>
          if env.redis ∧ cancelled then E .taskCancelled (s.withRow c written) else R () (s.withRow c written)
      else R () s := by
  unfold complete
  rw [wp_ite]
  cases reply with
  | error text => rfl
  | ok written =>
    dsimp only
    rw [wp_bind, wp_modify, wp_notifyCommandsChanged]
    rfl

theorem wp_publishTerminal (m : Marker) (p : Publish) :
    wp (publishTerminal env m p) R E s ↔
      if env.redis ∧ p.cancelled then E .taskCancelled (s.withMarker m p.added)
      else R () (s.withMarker m (env.redis && p.added)) := by
  unfold publishTerminal
  cases env.redis with
  | false => rfl
  | true =>
    rw [if_pos rfl, wp_bind, wp_modify, runIf, wp_ite]
    simp only [true_and, Bool.true_and]
    rfl

end Rules

section Bookkeeping

variable {env : Env} {r : Replies} {s : State} {c : Completion} {m : Marker} {status : Status}

/-- What a row and a marker of one status agree with. -/
theorem agrees_told {returned : Except Raised Result} (h : Untold s) (hc : c.status = status)
    (hm : m.status = status) (written added : Bool) :
    Agrees returned ((s.withRow c written).withMarker m added) ↔
      (written ∨ added → status = outcome returned) ∧ (s.executed → written → status = .success) ∧
        ∀ result, returned = .ok result → Tagged result s := by
  obtain ⟨hcompletions, hmarkers⟩ := h
  have hrow : ((s.withRow c written).withMarker m added).completions = if written then [c] else [] := by
    unfold State.withRow State.withMarker
    cases written <;> cases added <;> simp [hcompletions]
  have hmarker : ((s.withRow c written).withMarker m added).markers = if added then [m] else [] := by
    unfold State.withRow State.withMarker
    cases written <;> cases added <;> simp [hmarkers]
  have hexecuted : ((s.withRow c written).withMarker m added).executed = s.executed := by
    unfold State.withRow State.withMarker
    cases written <;> cases added <;> rfl
  have horders : ((s.withRow c written).withMarker m added).orders = s.orders := by
    unfold State.withRow State.withMarker
    cases written <;> cases added <;> rfl
  constructor
  · intro hagrees
    have hr := hagrees.row
    have hk := hagrees.marker
    have he := hagrees.executed
    rw [hrow] at hr he
    rw [hmarker] at hk
    rw [hexecuted] at he
    refine ⟨?_, ?_, ?_⟩
    · rintro (rfl | rfl)
      · rw [← hc]
        exact hr c List.mem_cons_self
      · rw [← hm]
        exact hk m List.mem_cons_self
    · rintro hrun rfl
      rw [← hc]
      exact he hrun c List.mem_cons_self
    · intro result hresult ref href
      rw [← horders]
      exact hagrees.tagged result hresult ref href
  · rintro ⟨hstatus, hrun, htag⟩
    refine ⟨?_, ?_, ?_, ?_, ?_, ?_⟩
    · rw [hrow]
      cases written <;> simp
    · rw [hmarker]
      cases added <;> simp
    · rw [hrow]
      cases written with
      | false => simp
      | true => simpa [hc] using hstatus (.inl rfl)
    · rw [hmarker]
      cases added with
      | false => simp
      | true => simpa [hm] using hstatus (.inr rfl)
    · rw [hrow, hexecuted]
      cases written with
      | false => simp
      | true => simpa [hc] using hrun
    · intro result hresult ref href
      rw [horders]
      exact htag result hresult ref href

/-- What the handler of the `try` makes of a raise agrees. -/
def Handled (env : Env) (r : Replies) (e : Raised) (s : State) : Prop :=
  wp (handle env r e) (fun result => Agrees (.ok result)) (fun e => Agrees (.error e)) s

theorem handled_taskCancelled : Handled env r .taskCancelled s ↔ Agrees (.error .taskCancelled) s := Iff.rfl

/-- The handler is wrong where it records the FAILURE of what has been executed. -/
theorem handled_exception (h : Untold s) (text : String) :
    Handled env r (.exception text) s ↔ (s.executed → env.audited → r.failed ≠ .ok true) := by
  have hfailure : ∀ (e : Raised) (error : String) (written added : Bool), Agrees (.error e)
      ((s.withRow { status := .failure, error := some error } written).withMarker
        { status := .failure, error } added) ↔ (s.executed → written = false) := by
    intro e error written added
    rw [agrees_told h rfl rfl]
    cases written <;> simp [outcome]
  have huntold : ∀ (e : Raised) (error : String) (added : Bool), Agrees (.error e)
      (s.withMarker { status := .failure, error } added) := fun e error added =>
    (hfailure e error false added).mpr fun _ => rfl
  have hmarked : ∀ (written : Bool), wp (do
      publishTerminal env { status := .failure, error := text } r.failPublished
      throw (.exception text) : Service Result) (fun result => Agrees (.ok result)) (fun e => Agrees (.error e))
        (s.withRow { status := .failure, error := some text } written) ↔ (s.executed → written = false) := by
    intro written
    rw [wp_bind, wp_publishTerminal]
    split <;> exact hfailure _ text written _
  unfold Handled handle
  rw [wp_bind, wp_complete]
  split
  case isTrue haudited =>
    cases hfailed : r.failed with
    | error other =>
      exact iff_of_true (huntold (.exception other) other false) fun _ _ h => nomatch h
    | ok written =>
      have hgoal : (s.executed → env.audited → (.ok written : Except String Bool) ≠ .ok true) ↔
          (s.executed → written = false) := by
        cases written <;> simp [haudited]
      rw [hgoal]
      dsimp only
      split
      case isTrue => exact hfailure .taskCancelled text written false
      case isFalse => exact hmarked written
  case isFalse haudited =>
    exact iff_of_true ((hmarked false).mpr fun _ => rfl) fun _ h => absurd h haudited

/-- The row of a success, and then what is left to do. -/
theorem wp_complete_success {R : Unit → State → Prop} (h : Untold s) (hc : c.status = .success) :
    wp (complete env c r.completed r.notified) R (Handled env r) s ↔
      (s.executed → env.audited → ∀ text, r.completed = .error text → r.failed ≠ .ok true) ∧
      (InRow env r → ¬ (env.redis ∧ r.notified)) ∧
      (ReachesMarker env r → R () (s.withRow c (env.audited && r.completed = .ok true))) := by
  rw [wp_complete]
  unfold InRow ReachesMarker
  split
  case isTrue haudited =>
    cases hcompleted : r.completed with
    | error text =>
      dsimp only
      rw [handled_exception h]
      simp [haudited]
    | ok written =>
      have hcancelled : Handled env r .taskCancelled (s.withRow c written) ↔ written = false := by
        rw [handled_taskCancelled]
        have htold : Agrees (.error .taskCancelled) ((s.withRow c written).withMarker ⟨.success, ""⟩ false) ↔ _ :=
          agrees_told h hc rfl written false
        refine Iff.trans htold ?_
        cases written <;> simp [outcome]
      dsimp only
      by_cases hnotified : env.redis ∧ r.notified
      · rw [if_pos hnotified, hcancelled]
        cases written <;> simp [haudited, hnotified]
      · rw [if_neg hnotified]
        cases written <;> simp [haudited, hnotified]
  case isFalse haudited =>
    simp [haudited, State.withRow]

/-- The marker of a success, and the answer. -/
theorem wp_publish_success {result : Result} (h : Untold s) (hc : c.status = .success) (hm : m.status = .success)
    (hresult : result.status = .success) (written : Bool) :
    wp (do publishTerminal env m r.published; pure result : Service Result) (fun result => Agrees (.ok result))
        (Handled env r) (s.withRow c written) ↔
      (env.redis ∧ r.published.cancelled → ¬ written ∧ ¬ r.published.added) ∧
      (¬ (env.redis ∧ r.published.cancelled) → Tagged result s) := by
  rw [wp_bind, wp_publishTerminal]
  split
  case isTrue hcancelled =>
    rw [handled_taskCancelled, agrees_told h hc hm]
    simp only [hcancelled, and_self, forall_const, not_true_eq_false, false_implies, and_true]
    cases written <;> cases r.published.added <;> simp [outcome]
  case isFalse hkept =>
    rw [wp_pure, agrees_told h hc hm]
    simp [hkept, outcome, hresult]

end Bookkeeping

-- ============================================================================
-- The order and its reference
-- ============================================================================

section Tags

variable {env : Env} {r : Replies} {cmd : Command} {botRef own : Option String} {bot symbol symbol' ref : String}
  {side : Repl.Side} {serial : ℤ} {s : State}

/-- The tag of an order, where a bot places it. -/
def IsTag (env : Env) (botRef : Option String) (symbol : String) (side : Repl.Side) (serial : ℤ) (tag : Option String) :
    Prop :=
  ∀ bot ∈ given botRef, ∃ ref, tag = some ref ∧ encode env.py env.host bot symbol (sideCode side) serial = .ok ref

/-- An order has been placed, under its own tag. -/
structure Placed (env : Env) (botRef : Option String) (symbol : String) (side : Repl.Side) (serial : ℤ) (s : State) :
    Prop where
  known : s.serial = some serial
  orders : s.orders ≠ []
  tag : ∀ tag ∈ s.orders, IsTag env botRef symbol side serial tag

/-- Nothing has been placed that has a serial. -/
def Unplaced (s : State) : Prop := s.serial = none

/-- What the execution of a command has placed. -/
def Traded (env : Env) (botRef : Option String) (r : Replies) (s : State) : Command → Prop
  | .order cmd => Unplaced s ∨ ∃ serial, Placed env (injected botRef cmd.botRef) cmd.symbol cmd.side serial s
  | .close cmd => (Unplaced s ∧ ∀ symbol, given cmd.symbol = some symbol →
      positionQty env (env.py.upper symbol) ≠ 0 → r.close.order.checked ≠ .ok true) ∨
    ∃ symbol serial, given cmd.symbol = some symbol ∧
      positionQty env (env.py.upper symbol) ≠ 0 ∧ r.close.order.checked = .ok true ∧
      r.close.order.serial = .ok serial ∧ Placed env (injected botRef cmd.botRef) (env.py.upper symbol)
        (if 0 < positionQty env (env.py.upper symbol) then .sell else .buy) serial s
  | .modify _ | .builtin _ => Unplaced s

/-- What is kept of a state while a command is executed. -/
def Quiet (s s' : State) : Prop :=
  s'.completions = s.completions ∧ s'.markers = s.markers ∧ s'.executed = s.executed

instance : IsPreorder State Quiet where
  refl _ := ⟨rfl, rfl, rfl⟩
  trans _ _ _ h h' := ⟨h'.1.trans h.1, h'.2.1.trans h.2.1, h'.2.2.trans h.2.2⟩

theorem wp_orderTag :
    wp (orderTag env botRef symbol side serial) (fun tag s' => s' = s ∧ IsTag env botRef symbol side serial tag)
      (fun _ s' => s' = s) s := by
  unfold orderTag IsTag
  cases given botRef with
  | none => exact ⟨rfl, fun _ h => nomatch h⟩
  | some bot =>
    dsimp only
    cases hencode : encode env.py env.host bot symbol (sideCode side) serial with
    | error text => rfl
    | ok ref =>
      refine ⟨rfl, fun bot' hbot => ⟨ref, rfl, ?_⟩⟩
      obtain rfl := Option.some.inj hbot
      exact hencode

/-- The calls of an order from its placement on. -/
theorem wp_placement {tag : Option String} {a : OrderReplies} (horders : s.orders = [])
    (htag : IsTag env botRef symbol side serial tag) :
    wp (do
      call a.priced
      let ibOrderId ← call a.placed
      placeOrder tag
      updateOrderRow serial (some ibOrderId)
      runIf a.crossed (placeOrder tag)
      call a.finished : Service Unit)
      (fun _ s' => Quiet s s' ∧ Placed env botRef symbol side serial s') (fun _ s' => Quiet s s') s := by
  have hquiet : Quiet s s := refl_of Quiet s
  simp only [wp_bind, wp_call]
  cases a.priced with
  | error e => exact hquiet
  | ok u =>
    cases a.placed with
    | error e => exact hquiet
    | ok ibOrderId =>
      simp only [wp_bind, wp_placeOrder, wp_updateOrderRow, runIf, wp_ite, wp_pure, wp_call, horders, List.nil_append]
      cases a.finished with
      | error e => split <;> exact hquiet
      | ok u =>
        split
        · exact ⟨hquiet, rfl, by simp, by simpa using htag⟩
        · exact ⟨hquiet, rfl, by simp, by simpa using htag⟩

/-- What an order leaves if it returns, and what it keeps. -/
theorem wp_executeOrder {a : OrderReplies} (hserial : s.serial = none) (horders : s.orders = []) :
    wp (executeOrder env side symbol botRef a)
      (fun _ s' => Quiet s s' ∧ (Unplaced s' ∧ a.checked ≠ .ok true ∨
        a.checked = .ok true ∧ ∃ serial, a.serial = .ok serial ∧ Placed env botRef symbol side serial s'))
      (fun _ s' => Quiet s s') s := by
  have hquiet : Quiet s s := refl_of Quiet s
  unfold executeOrder
  rw [wp_bind, wp_call]
  cases hchecked : a.checked with
  | error e => exact hquiet
  | ok pass =>
    cases pass with
    | false => exact ⟨hquiet, .inl ⟨hserial, by simp⟩⟩
    | true =>
      simp only [if_true]
      rw [wp_bind, wp_call]
      cases ha : a.serial with
      | error e => exact hquiet
      | ok serial =>
        dsimp only
        rw [wp_bind, wp_updateOrderRow, wp_bind, wp_call]
        cases a.created with
        | error e => exact hquiet
        | ok u =>
          dsimp only
          rw [wp_bind]
          refine wp_mono wp_orderTag (fun tag s' htag => ?_) fun e s' hs => hs ▸ hquiet
          obtain ⟨rfl, htag⟩ := htag
          exact wp_mono (wp_placement horders htag)
            (fun _ s' h => ⟨h.1, .inr ⟨trivial, serial, rfl, h.2⟩⟩) fun _ _ h => h

/-- A close by serial hands no serial to the renderer. -/
theorem wp_executeCloseSerial {a : CloseReplies} (hserial : s.serial = none) :
    wp (executeCloseSerial env serial botRef a) (fun _ s' => Quiet s s' ∧ Unplaced s') (fun _ s' => Quiet s s') s := by
  have hquiet : Quiet s s := refl_of Quiet s
  unfold executeCloseSerial
  rw [wp_bind, wp_call]
  cases a.found with
  | error e => exact hquiet
  | ok found =>
    cases found with
    | none => exact ⟨hquiet, hserial⟩
    | some found =>
      dsimp only
      rw [wp_bind, wp_call]
      cases a.prepared with
      | error e => exact hquiet
      | ok u =>
        dsimp only
        rw [wp_bind]
        refine wp_mono wp_orderTag (fun tag s' htag => ?_) fun e s' hs => hs ▸ hquiet
        obtain ⟨rfl, -⟩ := htag
        simp only [wp_bind, wp_call]
        cases a.order.priced with
        | error e => exact hquiet
        | ok u =>
          cases a.order.placed with
          | error e => exact hquiet
          | ok ibOrderId =>
            simp only [wp_bind, wp_placeOrder, runIf, wp_ite, wp_pure, wp_call]
            cases a.order.finished with
            | error e => split <;> exact hquiet
            | ok u => split <;> exact ⟨hquiet, hserial⟩

/-- A close by ticker places the order that nets the position. -/
theorem wp_executeCloseSymbol {a : CloseReplies} (hserial : s.serial = none) (horders : s.orders = []) :
    wp (executeCloseSymbol env symbol botRef a)
      (fun _ s' => Quiet s s' ∧ (Unplaced s' ∧ (positionQty env (env.py.upper symbol) ≠ 0 →
          a.order.checked ≠ .ok true) ∨
        positionQty env (env.py.upper symbol) ≠ 0 ∧ a.order.checked = .ok true ∧
          ∃ serial, a.order.serial = .ok serial ∧
          Placed env botRef (env.py.upper symbol)
            (if 0 < positionQty env (env.py.upper symbol) then .sell else .buy) serial s'))
      (fun _ s' => Quiet s s') s := by
  have hquiet : Quiet s s := refl_of Quiet s
  unfold executeCloseSymbol
  rw [wp_bind, wp_call]
  cases a.listed with
  | error e => exact hquiet
  | ok u =>
    dsimp only
    rw [wp_ite]
    split
    case isTrue hflat =>
      rw [wp_call]
      cases a.swept with
      | error e => exact hquiet
      | ok u => exact ⟨hquiet, .inl ⟨hserial, fun hheld => absurd hflat hheld⟩⟩
    case isFalse hheld =>
      rw [wp_bind]
      refine wp_mono (wp_executeOrder hserial horders) (fun _ s' h => ?_) fun _ _ h => h
      rw [wp_call]
      cases a.swept with
      | error e => exact h.1
      | ok u => exact ⟨h.1, h.2.imp (fun hno => ⟨hno.1, fun _ => hno.2⟩) fun hplaced => ⟨hheld, hplaced⟩⟩

/-- What the execution of a command leaves if it returns, and what it keeps. -/
theorem wp_execute :
    wp (execute env botRef r cmd)
      (fun _ s => Untold s ∧ s.executed = isTrade cmd ∧ Traded env botRef r s cmd)
      (fun _ s => Untold s ∧ s.executed = false) {} := by
  have hraised : ∀ s : State, Quiet {} s → Untold s ∧ s.executed = false := fun s h => ⟨⟨h.1, h.2.1⟩, h.2.2⟩
  unfold execute
  cases cmd with
  | order cmd =>
    dsimp only
    rw [wp_bind]
    refine wp_mono (wp_executeOrder rfl rfl) (fun _ s h => ?_) fun _ s h => hraised s h
    refine ⟨(hraised s h.1).1, rfl, ?_⟩
    rcases h.2 with ⟨hno, -⟩ | ⟨-, serial, -, hplaced⟩
    · exact .inl hno
    · exact .inr ⟨serial, hplaced.known, hplaced.orders, hplaced.tag⟩
  | close cmd =>
    dsimp only
    rw [wp_bind]
    unfold executeClose Traded
    cases hsymbol : given cmd.symbol with
    | none =>
      dsimp only
      cases cmd.serial with
      | none => exact hraised {} (refl_of Quiet {})
      | some serial =>
        refine wp_mono (wp_executeCloseSerial rfl) (fun _ s h => ?_) fun _ s h => hraised s h
        exact ⟨(hraised s h.1).1, rfl, .inl ⟨h.2, fun symbol h =>
          absurd (hsymbol.symm.trans h) (Option.some_ne_none symbol).symm⟩⟩
    | some symbol =>
      refine wp_mono (wp_executeCloseSymbol rfl rfl) (fun _ s h => ?_) fun _ s h => hraised s h
      refine ⟨(hraised s h.1).1, rfl, ?_⟩
      rcases h.2 with ⟨hno, hunchecked⟩ | ⟨hheld, hchecked, serial, hserial, hplaced⟩
      · refine .inl ⟨hno, fun symbol' h => ?_⟩
        obtain rfl := Option.some.inj (hsymbol.symm.trans h)
        exact hunchecked
      · exact .inr ⟨symbol, serial, hsymbol, hheld, hchecked, hserial, hplaced.known, hplaced.orders, hplaced.tag⟩
  | modify cmd => exact ⟨⟨rfl, rfl⟩, rfl, rfl⟩
  | builtin name => exact ⟨⟨rfl, rfl⟩, rfl, rfl⟩

/-- A tag determines its symbol and its side. -/
theorem encode_inj {py : Python} {host code code' : String} (h : encode py host bot symbol code serial = .ok ref)
    (h' : encode py host bot symbol' code' serial = .ok ref) : symbol = symbol' ∧ code = code' := by
  obtain ⟨hhost, hbot, hsymbol, hcode, text, htext, href, -⟩ := encode_eq_ok_iff.mp h
  obtain ⟨-, -, hsymbol', hcode', text', htext', href', -⟩ := encode_eq_ok_iff.mp h'
  obtain rfl := Option.some.inj (htext.symm.trans htext')
  have hcodes : ∀ s ∈ ["B", "S"], ':' ∉ s.toList := by decide
  have hfields : ∀ (symbol code : String), ':' ∉ symbol.toList → code ∈ ["B", "S"] →
      ∀ s ∈ fields host bot symbol code text, ':' ∉ s.toList := by
    intro symbol code hsymbol hcode
    have hmark : ':' ∉ OrderRef.refPrefix.toList := by decide
    simp only [fields, List.forall_mem_cons]
    exact ⟨hmark, hhost, hbot, hsymbol, hcodes code hcode, OrderRef.not_mem_integerText htext, by simp⟩
  have hsplit := split_intercalate (by simp [fields]) (hfields symbol code hsymbol hcode)
  have hsplit' := split_intercalate (by simp [fields]) (hfields symbol' code' hsymbol' hcode')
  rw [← href] at hsplit
  rw [← href'] at hsplit'
  have heq := hsplit.symm.trans hsplit'
  simp only [fields, List.cons.injEq, and_true, true_and] at heq
  exact heq

/-- The reference of a command under its own name. -/
def refWith (env : Env) (bot : String) (serial : ℤ) : Command → Option String
  | .order cmd => (encode env.py env.host bot cmd.symbol (sideCode cmd.side) serial).toOption
  | .close cmd => cmd.symbol.bind fun symbol => (encode env.py env.host bot symbol "S" serial).toOption
  | .modify _ | .builtin _ => none

/-- The reference that is worked out for an answer. -/
def refOf (env : Env) (botRef : Option String) (cmd : Command) (s : State) : Option String :=
  (given botRef).bind fun bot => s.serial.bind fun serial => refWith env bot serial cmd

theorem refOf_unplaced (h : Unplaced s) : refOf env botRef cmd s = none := by
  unfold refOf
  rw [show s.serial = none from h]
  cases given botRef <;> rfl

/-- No reference is looked for under a symbol that is missing. -/
theorem resultRef_eq (h : Traded env botRef r s cmd) :
    resultRef env botRef cmd s.serial = pure (refOf env botRef cmd s) := by
  unfold resultRef refOf
  cases hbot : given botRef with
  | none => rfl
  | some bot =>
    cases hserial : s.serial with
    | none => rfl
    | some serial =>
      cases cmd with
      | order cmd => rfl
      | modify cmd => rfl
      | builtin name => rfl
      | close cmd =>
        simp only [Option.bind_some, refWith]
        rcases h with ⟨hno, -⟩ | ⟨symbol, -, hsymbol, -⟩
        · exact absurd (hserial.symm.trans hno) (Option.some_ne_none serial)
        · rw [(Option.filter_eq_some_iff.mp hsymbol).1]
          rfl

theorem given_injected (h : given botRef = some bot) : given (injected botRef own) = some bot := by
  rw [injected, h, Option.some_or]
  obtain ⟨hbot, hne⟩ := Option.filter_eq_some_iff.mp h
  exact Option.filter_eq_some_iff.mpr ⟨rfl, hne⟩

/-- The reference of the answer is the tag of the order, unless a close of a ticker buys or
    changes the name. -/
theorem tagged_refOf {result : Result} (hresult : result.orderRef = refOf env botRef cmd s)
    (h : Traded env botRef r s cmd) : Tagged result s ↔ Sells env botRef r cmd := by
  have hnone : Unplaced s → Tagged result s := by
    intro hno ref href
    rw [hresult, refOf_unplaced hno] at href
    exact absurd href (Option.some_ne_none ref).symm
  cases cmd with
  | modify cmd => exact iff_of_true (hnone h) trivial
  | builtin name => exact iff_of_true (hnone h) trivial
  | order cmd =>
    refine iff_of_true ?_ trivial
    rcases h with hno | ⟨serial, hplaced⟩
    · exact hnone hno
    · intro ref href
      rw [hresult, refOf, hplaced.known] at href
      obtain ⟨bot, hbot, href⟩ := Option.bind_eq_some_iff.mp href
      refine ⟨hplaced.orders, fun tag htag => ?_⟩
      obtain ⟨ref', rfl, hencode⟩ := hplaced.tag tag htag bot (given_injected hbot)
      rw [Option.bind_some, refWith, hencode] at href
      exact href
  | close cmd =>
    rcases h with ⟨hno, hunchecked⟩ | ⟨symbol, serial, hsymbol, hheld, hchecked, hserial, hplaced⟩
    · refine iff_of_true (hnone hno) ?_
      intro symbol bot serial ref hsymbol _ hheld hchecked
      exact absurd hchecked (hunchecked symbol hsymbol hheld)
    · have hname : cmd.symbol = some symbol := (Option.filter_eq_some_iff.mp hsymbol).1
      unfold Tagged
      rw [hresult, refOf, hplaced.known]
      cases hbot : given botRef with
      | none => exact iff_of_true (fun ref href => nomatch href) fun _ _ _ _ _ h => nomatch hbot.symm.trans h
      | some bot =>
        simp only [Option.bind_some, refWith, hname]
        have htag := fun tag htag => hplaced.tag tag htag bot (given_injected hbot)
        constructor
        · intro htagged symbol' bot' serial' ref hsymbol' hbot' _ _ hserial' hencode
          obtain rfl := Option.some.inj (hsymbol.symm.trans hsymbol')
          obtain rfl := Option.some.inj (hbot.symm.trans hbot')
          obtain rfl := Except.ok.inj (hserial.symm.trans hserial')
          obtain ⟨hne, hall⟩ := htagged ref (by rw [hencode]; rfl)
          obtain ⟨tag, hmem⟩ := List.exists_mem_of_ne_nil s.orders hne
          obtain ⟨ref', rfl, hencode'⟩ := htag tag hmem
          obtain rfl := Option.some.inj (hall _ hmem)
          obtain ⟨hsame, hside⟩ := encode_inj hencode hencode'
          refine ⟨?_, hsame.symm⟩
          by_contra hshort
          rw [if_neg hshort] at hside
          exact absurd hside (by decide)
        · intro hsells ref href
          refine ⟨hplaced.orders, fun tag hmem => ?_⟩
          obtain ⟨ref', rfl, hencode'⟩ := htag tag hmem
          cases hencode : encode env.py env.host bot symbol "S" serial with
          | error text =>
            rw [hencode] at href
            cases href
          | ok ref'' =>
            obtain ⟨hlong, hupper⟩ := hsells symbol bot serial ref'' hsymbol hbot hheld hchecked hserial hencode
            rw [if_pos hlong, hupper] at hencode'
            rw [hencode] at href
            obtain rfl := Option.some.inj href
            exact congrArg some (Except.ok.inj (hencode'.symm.trans hencode))

end Tags

-- ============================================================================
-- A run
-- ============================================================================

section Run

variable {env : Env} {botRef : Option String} {r : Replies} {commandText cmdId : String} {s : State} {cmd : Command}

theorem agrees_of_untold {returned : Except Raised Result} (h : Untold s)
    (htagged : ∀ result, returned = .ok result → Tagged result s) : Agrees returned s :=
  (agrees_told (c := ⟨.success, none, none⟩) (m := ⟨.success, ""⟩) h rfl rfl false false).mpr
    ⟨fun h => by simp at h, fun _ h => by simp at h, htagged⟩

/-- A raise before the execution has returned. -/
theorem handled_of_untold (h : Untold s) (hexecuted : s.executed = false) (e : Raised) : Handled env r e s := by
  cases e with
  | taskCancelled => exact agrees_of_untold h fun _ hok => nomatch hok
  | exception text => exact (handled_exception h text).mpr fun hrun => absurd (hexecuted.symm.trans hrun) (by decide)

theorem inRow_iff : (env.audited && r.completed = .ok true) = true ↔ InRow env r := by
  unfold InRow
  rw [Bool.and_eq_true, decide_eq_true_eq]

/-- A text that is no command. -/
theorem wp_answerUnknown (h : Untold s) (hexecuted : s.executed = false) :
    wp (answerUnknown env commandText cmdId r) (fun result => Agrees (.ok result)) (Handled env r) s := by
  have hfailure : ∀ (returned : Except Raised Result) (error : String) (written added : Bool),
      outcome returned = .failure → (∀ result, returned = .ok result → result.orderRef = none) →
      Agrees returned ((s.withRow { status := .failure, error := some error } written).withMarker
        { status := .failure, error } added) := by
    intro returned error written added hreturned hnone
    rw [agrees_told h rfl rfl]
    refine ⟨fun _ => hreturned.symm, fun hrun => absurd (hexecuted.symm.trans hrun) (by decide), ?_⟩
    intro result hresult ref href
    rw [hnone result hresult] at href
    exact absurd href (Option.some_ne_none ref).symm
  have hmarked : ∀ (error : String) (written : Bool), wp (do
      publishTerminal env { status := .failure, error } r.published
      pure { status := .failure, output := error, cmdId } : Service Result) (fun result => Agrees (.ok result))
        (Handled env r) (s.withRow { status := .failure, error := some error } written) := by
    intro error written
    rw [wp_bind, wp_publishTerminal]
    split
    · exact hfailure (.error .taskCancelled) error written _ rfl fun _ hok => nomatch hok
    · refine hfailure (.ok _) error written _ rfl fun result hok => ?_
      obtain rfl := Except.ok.inj hok
      rfl
  unfold answerUnknown
  dsimp only
  rw [wp_bind, wp_complete]
  split
  case isTrue =>
    cases r.completed with
    | error text => exact handled_of_untold h hexecuted (.exception text)
    | ok written =>
      dsimp only
      split
      · exact hfailure (.error .taskCancelled) _ written false rfl fun _ hok => nomatch hok
      · exact hmarked _ written
  case isFalse => exact hmarked _ false

/-- A built-in command. -/
theorem wp_answerBuiltin (name : String) :
    wp (answerBuiltin env cmdId r) (fun result => Agrees (.ok result)) (Handled env r) {} ↔
      (Performs env botRef r (.builtin name) → Booked env r (.builtin name)) := by
  unfold answerBuiltin Performs
  rw [wp_bind, wp_call]
  cases r.builtin with
  | error text =>
    exact iff_of_true (handled_of_untold ⟨rfl, rfl⟩ rfl (.exception text)) fun ⟨_, hok⟩ => nomatch hok
  | ok output =>
    have huntold : Untold {} := ⟨rfl, rfl⟩
    have htagged : ∀ s, Tagged { status := .success, output, cmdId } s := fun _ _ href => nomatch href
    dsimp only [Except.mapError]
    rw [wp_bind, wp_complete_success huntold rfl, wp_publish_success huntold rfl rfl rfl, inRow_iff]
    constructor
    · exact fun ⟨_, hnotified, hpublished⟩ _ =>
        ⟨(fun h => nomatch h), hnotified, fun hreaches => (hpublished hreaches).1⟩
    · intro h
      obtain ⟨-, hnotified, hpublished⟩ := h ⟨output, rfl⟩
      exact ⟨(fun h => nomatch h), hnotified, fun hreaches => ⟨hpublished hreaches, fun _ => htagged _⟩⟩

/-- A buy, sell, close or modify. -/
theorem wp_answerCommand (hcmd : Performs env botRef r cmd ↔
      wp (execute env botRef r cmd) (fun _ _ => True) (fun _ _ => False) {}) :
    wp (answerCommand env botRef cmdId r cmd) (fun result => Agrees (.ok result)) (Handled env r) {} ↔
      (Performs env botRef r cmd → Booked env r cmd ∧ (Answers env r → Sells env botRef r cmd)) := by
  have hspec : wp (execute env botRef r cmd) _ _ {} := wp_execute
  unfold answerCommand
  rw [wp_bind, hcmd]
  cases hrun : execute env botRef r cmd {} with
  | error e s =>
    rw [wp_of_error hrun] at hspec
    rw [wp_of_error hrun, wp_of_error hrun]
    exact iff_of_true (handled_of_untold hspec.1 hspec.2 e) fun h => h.elim
  | ok u s =>
    rw [wp_of_ok hrun] at hspec
    obtain ⟨huntold, hexecuted, htraded⟩ := hspec
    rw [wp_of_ok hrun, wp_of_ok hrun, true_imp_iff, wp_bind, wp_get, wp_bind, wp_complete_success huntold rfl]
    have hserial : ∀ (c : Completion) (written : Bool), (s.withRow c written).serial = s.serial := by
      intro c written
      cases written <;> rfl
    rw [wp_bind, wp_get, hserial, resultRef_eq htraded, wp_bind, wp_pure, wp_publish_success huntold rfl rfl rfl,
      inRow_iff, tagged_refOf rfl htraded, hexecuted]
    constructor
    · intro ⟨hrow, hnotified, hpublished⟩
      exact ⟨⟨hrow, hnotified, fun hreaches => (hpublished hreaches).1⟩,
        fun hanswers => (hpublished hanswers.1).2 hanswers.2⟩
    · exact fun ⟨hbooked, hsells⟩ => ⟨hbooked.row, hbooked.notified, fun hreaches =>
        ⟨hbooked.published hreaches, fun hkept => hsells ⟨hreaches, hkept⟩⟩⟩

/-- The body of the `try`. -/
theorem wp_answer :
    wp (answer env commandText botRef cmdId r) (fun result => Agrees (.ok result)) (Handled env r) {} ↔
      ∀ cmd, parseLine env.py env.isalnum commandText = .ok (some cmd) → Performs env botRef r cmd →
        Booked env r cmd ∧ (Answers env r → Sells env botRef r cmd) := by
  unfold answer
  cases parseLine env.py env.isalnum commandText with
  | error failure =>
    refine iff_of_true ?_ fun cmd hparse => nomatch hparse
    cases failure with
    | raised => exact handled_of_untold ⟨rfl, rfl⟩ rfl (.exception _)
    | emitted message => exact wp_answerUnknown ⟨rfl, rfl⟩ rfl
  | ok parsed =>
    cases parsed with
    | none => exact iff_of_true (wp_answerUnknown ⟨rfl, rfl⟩ rfl) fun cmd hparse => nomatch hparse
    | some cmd =>
      simp only [Except.ok.injEq, Option.some.injEq, forall_eq']
      cases cmd with
      | builtin name =>
        have hsells : Answers env r → Sells env botRef r (.builtin name) := fun _ => trivial
        rw [and_iff_left hsells]
        exact wp_answerBuiltin name
      | order cmd => exact wp_answerCommand Iff.rfl
      | close cmd => exact wp_answerCommand Iff.rfl
      | modify cmd => exact wp_answerCommand Iff.rfl

/-- The row, the marker and the answer of a run agree exactly when it is sound. -/
theorem runAgrees_iff (env : Env) (commandText : String) (botRef : Option String) (cmdId : String) (r : Replies) :
    RunAgrees env commandText botRef cmdId r ↔ Sound env commandText botRef r := by
  have hraised : ∀ e, Agrees (.error e) {} := fun e => agrees_of_untold ⟨rfl, rfl⟩ fun _ hok => nomatch hok
  have hbody : wp (tryCatch (answer env commandText botRef cmdId r) (handle env r))
      (fun result => Agrees (.ok result)) (fun e => Agrees (.error e)) {} ↔
        ∀ cmd, parseLine env.py env.isalnum commandText = .ok (some cmd) → Performs env botRef r cmd →
          Booked env r cmd ∧ (Answers env r → Sells env botRef r cmd) :=
    (wp_tryCatch _ _ _).trans wp_answer
  unfold RunAgrees executeSingleCommand insertRow Sound
  rw [wp_bind, wp_ite]
  split
  case isFalse haudited =>
    rw [wp_pure, hbody]
    exact ⟨fun h _ => h, fun h => h fun haudit => absurd haudit haudited⟩
  case isTrue haudited =>
    rw [imp_iff_right haudited]
    cases r.inserted with
    | some text => exact iff_of_true (hraised (.exception text)) fun h => nomatch h.1
    | none =>
      dsimp only
      rw [wp_notifyCommandsChanged]
      split
      case isTrue hcancelled => exact iff_of_true (hraised .taskCancelled) fun h => absurd hcancelled h.2
      case isFalse hkept =>
        rw [hbody]
        exact ⟨fun h _ => h, fun h => h ⟨rfl, hkept⟩⟩

end Run

/-- A box on which one QQQ is short. -/
def shortBox : Env where
  py := ascii
  isalnum := Char.isAlphanum
  host := "box"
  positions := [{ symbol := some "QQQ", quantity := -1 }]

/-- The row of a bought QQQ cannot be written as SUCCESS and is written as FAILURE.  A task
    that is cancelled after SUCCESS is in the row raises.  A close that buys answers with the
    reference of a sale. -/
theorem runAgrees_fails :
    ¬ RunAgrees shortBox "buy QQQ 1 mid" none "cmd" { completed := .error "database is locked" } ∧
      ¬ RunAgrees shortBox "buy QQQ 1 mid" none "cmd" { notified := true } ∧
      ¬ RunAgrees shortBox "close QQQ" (some "bot") "cmd" { close := { order := { serial := .ok 7 } } } := by
  refine ⟨?_, ?_, ?_⟩
  · have hrun : wp (executeSingleCommand shortBox "buy QQQ 1 mid" none "cmd"
        { completed := .error "database is locked" }) (fun _ _ => False)
        (fun _ s => s.executed ∧ ∃ c ∈ s.completions, c.status ≠ .success) {} := by decide +kernel
    refine not_wp hrun (fun _ _ hno => hno.elim) fun _ s ⟨hexecuted, c, hc, hfailure⟩ hagrees => ?_
    exact hfailure (hagrees.executed hexecuted c hc)
  · have hrun : wp (executeSingleCommand shortBox "buy QQQ 1 mid" none "cmd" { notified := true })
        (fun _ _ => False) (fun _ s => ∃ c ∈ s.completions, c.status = .success) {} := by decide +kernel
    refine not_wp hrun (fun _ _ hno => hno.elim) fun _ s ⟨c, hc, hsuccess⟩ hagrees => ?_
    have hfailure : c.status = .failure := hagrees.row c hc
    exact absurd (hsuccess.symm.trans hfailure) (by decide)
  · have hrun : wp (executeSingleCommand shortBox "close QQQ" (some "bot") "cmd"
        { close := { order := { serial := .ok 7 } } })
        (fun result s => result.orderRef = some "IBT:box:bot:QQQ:S:7" ∧ some "IBT:box:bot:QQQ:B:7" ∈ s.orders)
        (fun _ _ => False) {} := by decide +kernel
    refine not_wp hrun (fun result s ⟨href, hplaced⟩ hagrees => ?_) fun _ _ hno => hno.elim
    exact absurd ((hagrees.tagged result rfl _ href).2 _ hplaced) (by decide)

end IbTrader.Engine.SingleCommand
