/-
  IbTrader.Bots.PositionPull

  What a position event makes of the bot document when the position is pulled to
  confirm it (`_apply_position_event` in `ib_trader/bots/runtime.py`).

  The document is read before the pull, and what is written after it is what was read,
  with another quantity; the transitions that may follow read the document again.  So
  what else is written while the pull is awaited is kept exactly where the write would
  have left it so anyway (`positionEventAfterPull_confirms_iff`).
-/

import IbTrader.Bots.FlatState

namespace IbTrader.Bots.Runtime

-- ============================================================================
-- The event
-- ============================================================================

/-- `_verify_position_via_pull`; nothing where the pull fails. -/
def verifyPositionViaPull (answer : Option ℚ) : Option ℚ := answer.map (|·|)

/-- A position that has been reduced by hand. -/
def reduced (qty : ℚ) (doc : BotDoc) : BotDoc :=
  if qty = 0 then (handled onManualClose { doc with qty }).1 else { doc with qty }

/-- The document that `_apply_position_event` leaves, from the one it has read and the
    one that is stored when the pull is answered. -/
def positionEventAfterPull (ibQty : ℚ) (answer : Option ℚ) (existing stored : BotDoc) : BotDoc :=
  if existing.state = .off ∨ existing.state = .errored ∨ existing.state = .awaitingEntryTrigger then stored
  else if existing.qty ≤ |ibQty| then stored
  else match verifyPositionViaPull answer with
    | none => stored
    | some verified =>
      if verified = existing.qty then stored
      else if verified < existing.qty then reduced verified existing
      else (handled onIbPositionMismatch stored).1

/-- Where nothing else is written it is the event of one document. -/
theorem positionEventAfterPull_self (ibQty : ℚ) (answer : Option ℚ) (doc : BotDoc) :
    positionEventAfterPull ibQty answer doc doc = positionEvent ibQty (verifyPositionViaPull answer) doc := by
  unfold positionEventAfterPull positionEvent applyPositionEvent
  split
  case isTrue => rfl
  case isFalse =>
    split
    case isTrue => rfl
    case isFalse =>
      cases verifyPositionViaPull answer with
      | none => rfl
      | some verified =>
        dsimp only
        rcases lt_trichotomy verified doc.qty with hless | hsame | hmore
        · rw [if_neg hless.ne, if_pos hless, if_pos hless]
          rfl
        · rw [if_pos hsame, if_neg (by rw [hsame]; exact lt_irrefl _)]
          exact (if_neg (by rw [hsame]; exact lt_irrefl _)).symm
        · rw [if_neg hmore.ne', if_neg hmore.asymm, if_neg hmore.asymm]
          exact (if_pos hmore).symm

/-- What else is written in the meantime. -/
def writtenMeanwhile (config : StrategyConfig) (meanwhile : List StateOp) (doc : BotDoc) : BotDoc :=
  meanwhile.foldl (fun doc op => (op.apply config doc).getD doc) doc

-- ============================================================================
-- What is confirmed
-- ============================================================================

/-- The document is left as it is stored, or the pull has shown a smaller position than
    is tracked and it is reduced, or a larger one and it is in `ERRORED`. -/
def Confirms (answer : Option ℚ) (stored left : BotDoc) : Prop :=
  left = stored ∨ ∃ verified ∈ verifyPositionViaPull answer,
    (verified < stored.qty ∧ left = reduced verified stored) ∨
      (stored.qty < verified ∧ left = (handled onIbPositionMismatch stored).1)

/-- The bot is out to sell its position. -/
def Closable (doc : BotDoc) : Prop := doc.state = .awaitingExitTrigger ∨ doc.state = .exitOrderPlaced

instance (doc : BotDoc) : Decidable (Closable doc) := inferInstanceAs (Decidable (_ ∨ _))

/-- The documents differ in the quantity at most. -/
def SameButQty (existing stored : BotDoc) : Prop := stored = { existing with qty := stored.qty }

/-- The documents differ at most in the state and in what a manual close clears. -/
structure SameButPosition (existing stored : BotDoc) : Prop where
  avgPrice : stored.avgPrice = existing.avgPrice
  exitRetries : stored.exitRetries = existing.exitRetries
  entrySerial : stored.entrySerial = existing.entrySerial
  entryIbOrderId : stored.entryIbOrderId = existing.entryIbOrderId
  symbol : stored.symbol = existing.symbol
  orderOrigin : stored.orderOrigin = existing.orderOrigin
  lastRealizedPnl : stored.lastRealizedPnl = existing.lastRealizedPnl
  errorReason : stored.errorReason = existing.errorReason
  armed : stored.armed = existing.armed

/-- What the stored document may differ in from the one read, for a reduction of the one
    read to be one of the other: in the quantity only, as long as it is no smaller than
    what was pulled.  Where the position is closed, in what the close clears, or it is
    closed already. -/
def Untouched (verified : ℚ) (existing stored : BotDoc) : Prop :=
  if verified = 0 ∧ Closable existing then
    (Closable stored ∧ 0 < stored.qty ∧ SameButPosition existing stored) ∨
      (SameButQty (existing.clearPositionFields.withState .awaitingEntryTrigger) stored ∧ 0 ≤ stored.qty)
  else SameButQty existing stored ∧ verified ≤ stored.qty

/-- The event writes nothing; or it reduces the document it has read and the stored one is
    untouched in what it does not write; or it parks a bot that tracks less than was
    pulled, or one that is not running. -/
def Current (ibQty : ℚ) (answer : Option ℚ) (existing stored : BotDoc) : Prop :=
  existing.state = .off ∨ existing.state = .errored ∨ existing.state = .awaitingEntryTrigger ∨
    existing.qty ≤ |ibQty| ∨ ∀ verified ∈ verifyPositionViaPull answer,
      (verified < existing.qty → Untouched verified existing stored) ∧
      (existing.qty < verified → stored.qty < verified ∨ stored.state = .off ∨ stored.state = .errored)

section Confirms

variable {ibQty verified : ℚ} {answer : Option ℚ} {existing stored : BotDoc}

/-- A reduction to nothing closes the position that is held. -/
theorem reduced_closes (hclose : verified = 0 ∧ Closable existing) :
    reduced verified existing = existing.clearPositionFields.withState .awaitingEntryTrigger := by
  obtain ⟨hzero, hclosable⟩ := hclose
  rw [reduced, if_pos hzero]
  have hclosed : onManualClose { existing with qty := verified } =
      some (existing.clearPositionFields.withState .awaitingEntryTrigger, []) := if_pos hclosable
  rw [handled, hclosed]
  rfl

/-- Any other writes the quantity. -/
theorem reduced_keeps (hkeep : ¬ (verified = 0 ∧ Closable existing)) :
    reduced verified existing = { existing with qty := verified } := by
  unfold reduced
  split
  case isTrue hzero =>
    have hrefused : onManualClose { existing with qty := verified } = none :=
      if_neg fun hclosable => hkeep ⟨hzero, hclosable⟩
    rw [handled, hrefused]
    rfl
  case isFalse => rfl

theorem closed_eq_iff : existing.clearPositionFields.withState .awaitingEntryTrigger =
    stored.clearPositionFields.withState .awaitingEntryTrigger ↔ SameButPosition existing stored := by
  constructor
  · intro h
    exact ⟨congrArg (·.avgPrice) h.symm, congrArg (·.exitRetries) h.symm, congrArg (·.entrySerial) h.symm,
      congrArg (·.entryIbOrderId) h.symm, congrArg (·.symbol) h.symm, congrArg (·.orderOrigin) h.symm,
      congrArg (·.lastRealizedPnl) h.symm, congrArg (·.errorReason) h.symm, congrArg (·.armed) h.symm⟩
  · intro h
    simp only [BotDoc.clearPositionFields, BotDoc.clearPositionFieldsForEntryTimeout, BotDoc.withState, h.avgPrice,
      h.exitRetries, h.entrySerial, h.entryIbOrderId, h.symbol, h.orderOrigin, h.lastRealizedPnl, h.errorReason, h.armed]

theorem withQty_eq_iff (qty : ℚ) :
    { existing with qty } = { stored with qty } ↔ SameButQty existing stored := by
  unfold SameButQty
  constructor
  · intro h
    have hback := congrArg (fun d : BotDoc => { d with qty := stored.qty }) h
    exact hback.symm
  · intro h
    rw [h]

theorem withQty_eq_stored_iff (qty : ℚ) :
    { existing with qty } = stored ↔ SameButQty existing stored ∧ stored.qty = qty := by
  unfold SameButQty
  constructor
  · rintro rfl
    exact ⟨rfl, rfl⟩
  · rintro ⟨hsame, rfl⟩
    exact hsame.symm

/-- A quantity is written over one that was larger, or is the one stored. -/
theorem withQty_alike_iff (qty : ℚ) :
    (qty < stored.qty ∧ { existing with qty } = { stored with qty }) ∨ { existing with qty } = stored ↔
      SameButQty existing stored ∧ qty ≤ stored.qty := by
  rw [withQty_eq_iff, withQty_eq_stored_iff, le_iff_lt_or_eq, and_comm, ← and_or_left, eq_comm]

theorem SameButQty.state_eq (h : SameButQty existing stored) : stored.state = existing.state := by
  rw [h]

theorem Closable.ne_awaitingEntryTrigger (h : Closable existing) : existing.state ≠ .awaitingEntryTrigger := by
  rcases h with h | h <;> rw [h] <;> decide

/-- The reduction of the document read is one of the stored one, or that is what is stored,
    exactly where the stored one is untouched. -/
theorem reduced_alike_iff (hentry : existing.state ≠ .awaitingEntryTrigger) :
    (verified < stored.qty ∧ reduced verified existing = reduced verified stored) ∨
        reduced verified existing = stored ↔ Untouched verified existing stored := by
  unfold Untouched
  split
  case isTrue hclose =>
    rw [reduced_closes hclose]
    obtain ⟨rfl, -⟩ := hclose
    by_cases hclosable : Closable stored
    · have hopen : existing.clearPositionFields.withState .awaitingEntryTrigger ≠ stored := fun h =>
        hclosable.ne_awaitingEntryTrigger (congrArg (·.state) h).symm
      have hclosed : ¬ SameButQty (existing.clearPositionFields.withState .awaitingEntryTrigger) stored :=
        fun h => hclosable.ne_awaitingEntryTrigger h.state_eq
      rw [reduced_closes ⟨rfl, hclosable⟩, closed_eq_iff, or_iff_left hopen, and_iff_right hclosable,
        or_iff_left fun h => hclosed h.1]
    · have hheld : ¬ (Closable stored ∧ 0 < stored.qty ∧ SameButPosition existing stored) := fun h =>
        hclosable h.1
      rw [reduced_keeps fun h => hclosable h.2, or_iff_right hheld]
      exact @withQty_alike_iff (existing.clearPositionFields.withState .awaitingEntryTrigger) stored 0
  case isFalse hkeep =>
    rw [reduced_keeps hkeep]
    by_cases hclose : verified = 0 ∧ Closable stored
    · -- only the stored one would be closed: the states tell the two apart
      have hstate : stored.state ≠ existing.state := fun h =>
        hkeep ⟨hclose.1, by unfold Closable; rw [← h]; exact hclose.2⟩
      rw [reduced_closes hclose]
      refine iff_of_false ?_ fun h => hstate h.1.state_eq
      rintro (⟨-, h⟩ | h)
      · exact hentry (congrArg (·.state) h)
      · exact hstate (congrArg (·.state) h).symm
    · rw [reduced_keeps hclose]
      exact withQty_alike_iff verified

/-- A reduction leaves no bot in `ERRORED`. -/
theorem reduced_state_ne (qty : ℚ) (h : existing.state ≠ .errored) : (reduced qty existing).state ≠ .errored := by
  unfold reduced
  split
  · unfold handled onManualClose
    dsimp only
    split
    · exact BotState.noConfusion
    · exact h
  · exact h

theorem mismatch_of_idle (h : stored.state = .off ∨ stored.state = .errored) :
    (handled onIbPositionMismatch stored).1 = stored := by
  rw [handled, onIbPositionMismatch, if_pos h]
  rfl

theorem mismatch_state (h : ¬ (stored.state = .off ∨ stored.state = .errored)) :
    (handled onIbPositionMismatch stored).1.state = .errored := by
  rw [handled, onIbPositionMismatch, if_neg h]
  rfl

/-- The event writes nothing where there is nothing tracked, or no smaller position has
    been reported. -/
theorem positionEventAfterPull_of_not_pulled (h : existing.state = .off ∨ existing.state = .errored ∨
    existing.state = .awaitingEntryTrigger ∨ existing.qty ≤ |ibQty|) :
    positionEventAfterPull ibQty answer existing stored = stored := by
  unfold positionEventAfterPull
  rw [← or_assoc, ← or_assoc] at h
  rcases h with hidle | hqty
  · exact if_pos (or_assoc.mp hidle)
  · rw [if_pos hqty, ite_self]

theorem positionEventAfterPull_of_pulled (hidle : ¬ (existing.state = .off ∨ existing.state = .errored ∨
    existing.state = .awaitingEntryTrigger)) (hqty : ¬ existing.qty ≤ |ibQty|)
    (hverified : verifyPositionViaPull answer = some verified) :
    positionEventAfterPull ibQty answer existing stored =
      if verified = existing.qty then stored
      else if verified < existing.qty then reduced verified existing
      else (handled onIbPositionMismatch stored).1 := by
  rw [positionEventAfterPull, if_neg hidle, if_neg hqty, hverified]

/-- A reduction is confirmed where it is the one of the stored document. -/
theorem confirms_reduced_iff (herrored : existing.state ≠ .errored)
    (hverified : verifyPositionViaPull answer = some verified) :
    Confirms answer stored (reduced verified existing) ↔
      (verified < stored.qty ∧ reduced verified existing = reduced verified stored) ∨
        reduced verified existing = stored := by
  unfold Confirms
  rw [hverified]
  constructor
  · rintro (hsame | ⟨v, hv, hless | ⟨hmore, hleft⟩⟩)
    · exact .inr hsame
    · obtain rfl := Option.some.inj hv
      exact .inl hless
    · by_cases hstored : stored.state = .off ∨ stored.state = .errored
      · rw [mismatch_of_idle hstored] at hleft
        exact .inr hleft
      · have hstate := mismatch_state hstored
        rw [← hleft] at hstate
        exact absurd hstate (reduced_state_ne verified herrored)
  · rintro (hless | hsame)
    · exact .inr ⟨verified, rfl, .inl hless⟩
    · exact .inl hsame

/-- A bot is rightly parked where it tracks less than was pulled, or is not running. -/
theorem confirms_mismatch_iff (hverified : verifyPositionViaPull answer = some verified) :
    Confirms answer stored (handled onIbPositionMismatch stored).1 ↔
      stored.qty < verified ∨ stored.state = .off ∨ stored.state = .errored := by
  by_cases hstored : stored.state = .off ∨ stored.state = .errored
  · exact iff_of_true (.inl (mismatch_of_idle hstored)) (.inr hstored)
  · have hstate := mismatch_state hstored
    rw [or_iff_left hstored]
    unfold Confirms
    rw [hverified]
    constructor
    · rintro (hsame | ⟨v, hv, ⟨-, hleft⟩ | ⟨hmore, -⟩⟩)
      · rw [hsame] at hstate
        exact absurd (.inr hstate) hstored
      · rw [hleft] at hstate
        exact absurd hstate (reduced_state_ne v fun herrored => hstored (.inr herrored))
      · obtain rfl := Option.some.inj hv
        exact hmore
    · exact fun hmore => .inr ⟨verified, rfl, .inr ⟨hmore, rfl⟩⟩

/-- Whatever is written while the pull is awaited: the event changes the document as
    stored only as the pull confirms, exactly where it writes nothing, reduces what is
    still stored, or parks a bot that still tracks less. -/
theorem positionEventAfterPull_confirms_iff (config : StrategyConfig) (existing : BotDoc)
    (meanwhile : List StateOp) (ibQty : ℚ) (answer : Option ℚ) :
    let stored := writtenMeanwhile config meanwhile existing
    Confirms answer stored (positionEventAfterPull ibQty answer existing stored) ↔
      Current ibQty answer existing stored := by
  intro stored
  by_cases hnot : existing.state = .off ∨ existing.state = .errored ∨ existing.state = .awaitingEntryTrigger ∨
      existing.qty ≤ |ibQty|
  · rw [positionEventAfterPull_of_not_pulled hnot]
    refine iff_of_true (.inl rfl) ?_
    rcases hnot with h | h | h | h
    · exact .inl h
    · exact .inr (.inl h)
    · exact .inr (.inr (.inl h))
    · exact .inr (.inr (.inr (.inl h)))
  · obtain ⟨hoff, herrored, hentry, hqty⟩ : ¬ existing.state = .off ∧ ¬ existing.state = .errored ∧
        ¬ existing.state = .awaitingEntryTrigger ∧ ¬ existing.qty ≤ |ibQty| := by
      rw [← not_or, ← not_or, ← not_or]
      exact hnot
    have hidle : ¬ (existing.state = .off ∨ existing.state = .errored ∨
        existing.state = .awaitingEntryTrigger) := by
      rintro (h | h | h)
      · exact hoff h
      · exact herrored h
      · exact hentry h
    rw [Current, or_iff_right hoff, or_iff_right herrored, or_iff_right hentry, or_iff_right hqty]
    cases hverified : verifyPositionViaPull answer with
    | none =>
      have hleft : positionEventAfterPull ibQty answer existing stored = stored := by
        rw [positionEventAfterPull, if_neg hidle, if_neg hqty, hverified]
      rw [hleft]
      exact iff_of_true (.inl rfl) nofun
    | some verified =>
      have hone {P : ℚ → Prop} : (∀ v ∈ some verified, P v) ↔ P verified := by simp
      rw [positionEventAfterPull_of_pulled hidle hqty hverified, hone]
      rcases lt_trichotomy verified existing.qty with hless | hsame | hmore
      · rw [if_neg hless.ne, if_pos hless, confirms_reduced_iff herrored hverified, reduced_alike_iff hentry,
          and_iff_left fun h => absurd h hless.asymm]
        exact ⟨fun h _ => h, fun h => h hless⟩
      · rw [if_pos hsame]
        exact iff_of_true (.inl rfl) ⟨fun h => absurd hsame h.ne, fun h => absurd hsame h.ne'⟩
      · rw [if_neg hmore.ne', if_neg hmore.asymm, confirms_mismatch_iff hverified,
          and_iff_right fun h => absurd h hmore.asymm]
        exact ⟨fun h _ => h, fun h => h hmore⟩

/-- A bot holds ten, the position stream says none, and the bot is stopped by force while
    the pull is awaited, which confirms it. -/
theorem positionEventAfterPull_confirms_fails : ¬ ∀ (config : StrategyConfig) (existing : BotDoc)
    (meanwhile : List StateOp) (ibQty : ℚ) (answer : Option ℚ),
    let stored := writtenMeanwhile config meanwhile existing
    Confirms answer stored (positionEventAfterPull ibQty answer existing stored) := by
  intro h
  have hconfirms := h {} { state := .awaitingExitTrigger, qty := 10, positionDirection := some .long }
    [.transition .forceStop] 0 (some 0)
  have hnone : verifyPositionViaPull (some 0) = some 0 := by decide +kernel
  dsimp only at hconfirms
  rw [positionEventAfterPull_of_pulled (by decide) (by decide +kernel) hnone, if_neg (by decide +kernel),
    if_pos (by decide +kernel), confirms_reduced_iff (by decide) hnone] at hconfirms
  rcases hconfirms with ⟨-, halike⟩ | hsame
  · exact absurd halike (by decide +kernel)
  · exact absurd hsame (by decide +kernel)

end Confirms

end IbTrader.Bots.Runtime
