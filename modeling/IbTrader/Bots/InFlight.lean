/-
  IbTrader.Bots.InFlight

  How many orders of one bot pass the gate until the order in flight is settled.

  Every order passes its gate under the state lock and from one state only, so a
  second order of its kind can pass only after something has led back to that
  state (`Tallied.step`).  A settlement does, and so do the ways in which the code
  gives an order up without one.  A stale write of the document would, too: the runs
  are those in which no write without the lock brings a state back.
-/

import IbTrader.Lib.Run
import IbTrader.Bots.Fleet

namespace IbTrader.Bots.Runtime

open Lib

-- ============================================================================
-- One order in flight
-- ============================================================================

/-- An order of the kind passes its gate. -/
def Mark.gates (isExit : Bool) : Mark → Bool
  | .pipeline _ (.gated order) => order.isExit = isExit
  | _ => false

/-- The order that passes its gate reaches the execution stage later on. -/
def Mark.executedIn (later : List Mark) : Mark → Bool
  | .pipeline pid (.gated order) => .pipeline pid (.executed order) ∈ later
  | _ => false

/-- How many orders of the kind pass the gate in a stretch of the run and reach the
    execution stage. -/
def submissions (isExit : Bool) (after : List Mark) : List Mark → ℕ
  | [] => 0
  | m :: stretch =>
    (if m.gates isExit ∧ m.executedIn (stretch ++ after) then 1 else 0) +
      submissions isExit after stretch

def Mark.isSettlement (m : Mark) : Bool := m = .settled

/-- The order in flight is settled or given up. -/
def Mark.isEnd : Mark → Bool
  | .settled | .gaveUp | .pipeline _ (.reverted _) => true
  | .pipeline _ _ => false

/-- Between two ends at most one entry and at most one exit pass the gate and reach
    the execution stage. -/
def OneInFlight (isEnd : Mark → Bool) (ms : List Mark) : Prop :=
  ∀ before stretch after, ms = before ++ stretch ++ after → (∀ m ∈ stretch, isEnd m = false) →
    ∀ isExit, submissions isExit after stretch ≤ 1

-- ============================================================================
-- Counting
-- ============================================================================

/-- The orders that have passed their gates since the last end. -/
structure Tally where
  entries : ℕ := 0
  exits : ℕ := 0
  deriving DecidableEq, Repr

def Tally.next (t : Tally) (m : Mark) : Tally :=
  if m.isEnd then {}
  else
    { entries := t.entries + if m.gates false then 1 else 0
      exits := t.exits + if m.gates true then 1 else 0 }

def Tally.count (t : Tally) (isExit : Bool) : ℕ := if isExit then t.exits else t.entries

def Tally.AtMostOne (t : Tally) : Prop := t.entries ≤ 1 ∧ t.exits ≤ 1

theorem Tally.next_count {m : Mark} (h : m.isEnd = false) (t : Tally) (isExit : Bool) :
    (t.next m).count isExit = t.count isExit + if m.gates isExit then 1 else 0 := by
  have hnext : t.next m =
      { entries := t.entries + if m.gates false then 1 else 0
        exits := t.exits + if m.gates true then 1 else 0 } := if_neg (by simp [h])
  rw [hnext]
  cases isExit <;> rfl

/-- At every mark the tally is at most one of each kind. -/
def Tally.Bounded (t : Tally) (ms : List Mark) : Prop :=
  Along Tally.next (fun t m => (t.next m).AtMostOne) t ms

/-- Without an end in it a stretch adds the orders that pass their gates in it. -/
theorem submissions_le_count (isExit : Bool) (after : List Mark) :
    ∀ (stretch : List Mark) (t : Tally), (∀ m ∈ stretch, m.isEnd = false) →
      t.count isExit + submissions isExit after stretch ≤
        (stretch.foldl Tally.next t).count isExit := by
  intro stretch
  induction stretch with
  | nil => intro t _; exact le_of_eq (Nat.add_zero _)
  | cons m stretch ih =>
    intro t h
    have hrest := ih (t.next m) (fun k hk => h k (List.mem_cons_of_mem m hk))
    rw [Tally.next_count (h m List.mem_cons_self)] at hrest
    have hm : (if m.gates isExit ∧ m.executedIn (stretch ++ after) then 1 else 0) ≤
        if m.gates isExit then 1 else 0 := by
      by_cases hgates : m.gates isExit = true
      · rw [if_pos hgates]
        split <;> decide
      · rw [if_neg (fun hboth => hgates hboth.1)]
        exact Nat.zero_le _
    rw [List.foldl_cons, submissions]
    omega

/-- What holds of the tally at every mark bounds the submissions of every stretch. -/
theorem oneInFlight_of_bounded {ms : List Mark} (h : Tally.Bounded {} ms) :
    OneInFlight Mark.isEnd ms := by
  rintro before stretch after rfl hstretch isExit
  have hprefix : Tally.Bounded {} (before ++ stretch) := ((Along.append _ _).mp h).1
  have hstart : ({} : Tally).AtMostOne := ⟨Nat.zero_le _, Nat.zero_le _⟩
  have hbound : ((before ++ stretch).foldl Tally.next {}).AtMostOne :=
    Along.invariant (I := Tally.AtMostOne) (fun _ _ _ hnext => hnext) _ hstart hprefix
  rw [List.foldl_append] at hbound
  have hle := submissions_le_count isExit after stretch (before.foldl Tally.next {}) hstretch
  have hone : (stretch.foldl Tally.next (before.foldl Tally.next {})).count isExit ≤ 1 := by
    cases isExit with
    | false => exact hbound.1
    | true => exact hbound.2
  omega

-- ============================================================================
-- The gates
-- ============================================================================

/-- After an entry the bot cannot place an order until the entry is over, and after
    an exit it cannot place an exit. -/
structure Tallied (state : BotState) (t : Tally) : Prop where
  atMostOne : t.AtMostOne
  entry : t.entries = 1 → state = .entryOrderPlaced ∨ state = .off ∨ state = .errored
  exit : t.exits = 1 → state ≠ .awaitingExitTrigger

theorem Tallied.fresh (state : BotState) : Tallied state {} where
  atMostOne := ⟨Nat.zero_le _, Nat.zero_le _⟩
  entry := fun h => absurd h (by decide)
  exit := fun h => absurd h (by decide)

/-- What a transition that is no end does to the state. -/
theorem lifecycle_move {config : StrategyConfig} {t : Transition} {doc : BotDoc}
    {r : BotDoc × List Effect} (h : t.handler config doc = some r) (hpipeline : t.ofPipeline = false)
    (hsettles : t.settles = false) (hgivesUp : t.givesUp = false) :
    r.1.state = doc.state ∨ r.1.state = .off ∨ r.1.state = .errored ∨
      (r.1.state = .awaitingEntryTrigger ∧ doc.state ≠ .entryOrderPlaced ∧ doc.state ≠ .off ∧
        doc.state ≠ .errored) := by
  cases t with
  | placeEntryOrder | placeExitOrder | captureOrderId | revertToState => cases hpipeline
  | entryTimeout | entryCancelled | exitCancelled => cases hsettles
  | forceQuitCancelAndReplace | start => cases hgivesUp
  | stop =>
    simp only [Transition.handler, onStop] at h
    split at h
    · cases h
    · obtain rfl := Option.some.inj h
      exact .inr (.inl rfl)
  | forceStop =>
    obtain rfl := Option.some.inj h
    exact .inr (.inr (.inl rfl))
  | crash =>
    simp only [Transition.handler, onCrash] at h
    split at h
    · cases h
    · obtain rfl := Option.some.inj h
      exact .inr (.inr (.inl rfl))
  | ibPositionMismatch =>
    simp only [Transition.handler, onIbPositionMismatch] at h
    split at h
    · cases h
    · obtain rfl := Option.some.inj h
      exact .inr (.inr (.inl rfl))
  | manualClose =>
    simp only [Transition.handler, onManualClose] at h
    split at h
    case isFalse => cases h
    case isTrue hstate =>
      obtain rfl := Option.some.inj h
      refine .inr (.inr (.inr ⟨rfl, ?_⟩))
      rcases hstate with hstate | hstate <;> simp [hstate]
  | entryFilled args =>
    have hprogress : args.terminal = false := hsettles
    simp only [Transition.handler, onEntryFilled, hprogress, if_true] at h
    split at h
    · obtain rfl := Option.some.inj h
      exact .inl rfl
    · cases h
  | exitFilled args =>
    have hprogress : args.terminal = false := hsettles
    simp only [Transition.handler, onExitFilled, hprogress, if_true] at h
    split at h
    · obtain rfl := Option.some.inj h
      exact .inl rfl
    · cases h

/-- A move that is no end keeps the tally apart from the gates. -/
theorem Tallied.move {state state' : BotState} {t : Tally} (h : Tallied state t)
    (hmove : state' = state ∨ state' = .off ∨ state' = .errored ∨
      (state' = .awaitingEntryTrigger ∧ state ≠ .entryOrderPlaced ∧ state ≠ .off ∧
        state ≠ .errored)) :
    Tallied state' t := by
  rcases hmove with rfl | rfl | rfl | ⟨rfl, hplaced, hoff, herrored⟩
  · exact h
  · exact ⟨h.atMostOne, fun _ => .inr (.inl rfl), fun _ => nofun⟩
  · exact ⟨h.atMostOne, fun _ => .inr (.inr rfl), fun _ => nofun⟩
  · refine ⟨h.atMostOne, fun hone => ?_, fun _ => nofun⟩
    rcases h.entry hone with hstate | hstate | hstate
    · exact absurd hstate hplaced
    · exact absurd hstate hoff
    · exact absurd hstate herrored

/-- An order that passes its gate is the first of its kind. -/
theorem Tallied.gated {order : PlaceOrder} {t : Tally} (h : Tallied order.originState t) (pid : ℕ) :
    (t.next (.pipeline pid (.gated order))).AtMostOne ∧
      Tallied order.placedState (t.next (.pipeline pid (.gated order))) := by
  have hnext : t.next (.pipeline pid (.gated order)) =
      { entries := t.entries + if order.isExit = false then 1 else 0
        exits := t.exits + if order.isExit = true then 1 else 0 } := by
    simp [Tally.next, Mark.isEnd, Mark.gates]
  obtain ⟨⟨hentries, hexits⟩, hentry, hexit⟩ := h
  rw [hnext]
  unfold PlaceOrder.originState at hentry hexit
  unfold PlaceOrder.placedState
  cases hkind : order.isExit with
  | true =>
    have hnoEntry : t.entries ≠ 1 := by
      intro hone
      rw [hkind] at hentry
      rcases hentry hone with hs | hs | hs <;> cases hs
    have hnoExit : t.exits ≠ 1 := by
      intro hone
      rw [hkind] at hexit
      exact hexit hone rfl
    have hbound : t.entries + 0 ≤ 1 ∧ t.exits + 1 ≤ 1 := by omega
    exact ⟨hbound, hbound, fun hone => absurd hone hnoEntry, fun _ => nofun⟩
  | false =>
    have hnoEntry : t.entries ≠ 1 := by
      intro hone
      rw [hkind] at hentry
      rcases hentry hone with hs | hs | hs <;> cases hs
    have hbound : t.entries + 1 ≤ 1 ∧ t.exits + 0 ≤ 1 := by omega
    exact ⟨hbound, hbound, fun _ => .inl rfl, fun _ => nofun⟩

/-- The marks of an end start the tally afresh. -/
theorem Tallied.ended {m : Mark} (hm : m.isEnd = true) (t : Tally) (state : BotState) :
    t.Bounded [m] ∧ Tallied state ([m].foldl Tally.next t) := by
  have hreset : t.next m = {} := if_pos hm
  rw [List.foldl_cons, List.foldl_nil, hreset]
  refine ⟨⟨?_, trivial⟩, .fresh state⟩
  change (t.next m).AtMostOne
  rw [hreset]
  exact ⟨Nat.zero_le _, Nat.zero_le _⟩

/-- A transition outside the pipelines keeps the tally. -/
theorem Tallied.lifecycle {config : StrategyConfig} {transition : Transition} {doc : BotDoc}
    {r : BotDoc × List Effect} {t : Tally} (h : Tallied doc.state t)
    (hpipeline : transition.ofPipeline = false) (hr : transition.handler config doc = some r) :
    t.Bounded transition.marks ∧ Tallied r.1.state (transition.marks.foldl Tally.next t) := by
  by_cases hsettles : transition.settles = true
  · rw [Transition.marks, if_pos hsettles]
    exact Tallied.ended rfl t r.1.state
  · by_cases hgivesUp : transition.givesUp = true
    · rw [Transition.marks, if_neg hsettles, if_pos hgivesUp]
      exact Tallied.ended rfl t r.1.state
    · rw [Transition.marks, if_neg hsettles, if_neg hgivesUp]
      exact ⟨trivial, h.move (lifecycle_move hr hpipeline (by simpa using hsettles)
        (by simpa using hgivesUp))⟩

/-- A step of a pipeline keeps it. -/
theorem Tallied.change {state state' : BotState} {events : List PipelineEvent} {t : Tally}
    (h : Tallied state t) (hchange : StateChange state state' events) (pid : ℕ) :
    t.Bounded (events.map (.pipeline pid)) ∧
      Tallied state' ((events.map (Mark.pipeline pid)).foldl Tally.next t) := by
  cases hchange with
  | kept => exact ⟨trivial, h⟩
  | executed order => exact ⟨⟨h.atMostOne, trivial⟩, h⟩
  | handed order => exact ⟨⟨h.atMostOne, h.atMostOne, trivial⟩, h⟩
  | stopped => exact ⟨trivial, h.move (.inr (.inl rfl))⟩
  | gated order horigin =>
    rw [horigin] at h
    obtain ⟨hone, hnext⟩ := h.gated pid
    exact ⟨⟨hone, trivial⟩, hnext⟩
  | reverted prior => exact Tallied.ended rfl t state'

/-- What the holder of the state lock has read is in the state that is there. -/
def LiveFleet.Held (f : LiveFleet) : Prop :=
  ∀ holder copy, f.lock = some (holder, copy) → copy.state = f.shared.doc.state

section Accesses

variable {config : FleetConfig} {f : LiveFleet} {t : Tally}

/-- What one input makes of a bot: its marks keep the tally, and the lock keeps the
    state. -/
structure Kept (t : Tally) (r : LiveFleet × List Mark) : Prop where
  held : r.1.Held
  bounded : t.Bounded r.2
  tallied : Tallied r.1.shared.doc.state (r.2.foldl Tally.next t)

/-- An input that shows nothing and leaves the state. -/
theorem Kept.quiet {f' : LiveFleet} (hheld : f'.Held)
    (hstate : f'.shared.doc.state = f.shared.doc.state) (h : Tallied f.shared.doc.state t) :
    Kept t (f', []) := ⟨hheld, trivial, hstate.symm ▸ h⟩

/-- A document read just now. -/
theorem LiveFleet.Held.fresh (holder : LockHolder) :
    LiveFleet.Held { f with lock := some (holder, f.shared.doc) } := by
  intro holder' copy hlock
  obtain ⟨-, rfl⟩ := Prod.mk.inj (Option.some.inj hlock)
  rfl

/-- A lock that is given back, or not taken. -/
theorem LiveFleet.Held.filter {f f' : LiveFleet} (h : f.Held) {pid : ℕ}
    (hlock : f'.lock = f.lock.filter (·.1 ≠ .pipeline pid))
    (hstate : f'.shared.doc.state = f.shared.doc.state) : f'.Held := by
  intro holder copy hsome
  rw [hlock] at hsome
  rw [hstate]
  exact h holder copy (Option.filter_eq_some_iff.mp hsome).1

theorem LiveFleet.Held.free {f : LiveFleet} (h : f.lock = none) : f.Held :=
  fun _ _ hsome => absurd (h.symm.trans hsome) nofun

/-- The transition that holds the lock is over. -/
theorem Kept.leave (hheld : f.Held) (h : Tallied f.shared.doc.state t) : Kept t (f.leave config) := by
  unfold LiveFleet.leave
  split
  case h_1 transition copy hlock =>
    rw [← hheld _ _ hlock] at h
    split
    · exact ⟨.free rfl, trivial, hheld _ _ hlock ▸ h⟩
    case h_2 r hr =>
      obtain ⟨hbounded, htallied⟩ := h.lifecycle transition.2 hr
      exact ⟨.free rfl, hbounded, htallied⟩
  case h_2 => exact ⟨hheld, trivial, h⟩

/-- A fresh write without the lock keeps the state. -/
theorem Kept.set (hheld : f.Held) (h : Tallied f.shared.doc.state t) {k : ℕ}
    (hfresh : f.Fresh (.set k)) : Kept t (f.set config k, []) := by
  unfold LiveFleet.set
  split
  · exact ⟨hheld, trivial, h⟩
  case h_2 op copy hwriter =>
    dsimp only
    split
    · exact ⟨hheld, trivial, h⟩
    case h_2 doc hdoc =>
      have hsame : doc.state = f.shared.doc.state :=
        (op.apply_state hdoc).trans (hfresh (op, copy) hwriter)
      refine .quiet (fun holder read hlock => ?_) hsame h
      exact (hheld holder read hlock).trans hsame.symm

/-- A pipeline that goes on from a document of the state that is there. -/
theorem advance_some {pid : ℕ} {p : Pipeline} (hp : f.pipelines[pid]? = some p) (answer : Answer)
    (doc : BotDoc) :
    let r := p.step config.manualEntryOnly { f.shared with doc } answer
    f.advance config pid answer doc =
      ({ f with
          toFleet := { shared := r.1, pipelines := f.pipelines.set pid r.2.1 }
          lock := f.lock.filter (·.1 ≠ .pipeline pid)
          copies := Function.update f.copies pid none }, r.2.2.map (.pipeline pid)) := by
  have hsame : (f.toFleet.withDoc doc).pipelines[pid]? = some p := hp
  have hresume := @resume_some config _ _ _ hsame answer
  simp only [LiveFleet.advance, hresume]
  rfl

/-- Without the lock. -/
theorem Kept.unlocked (hheld : f.Held) (h : Tallied f.shared.doc.state t) {pid : ℕ} {p : Pipeline}
    (hp : f.pipelines[pid]? = some p) {answer : Answer} (hunlocked : p.locks answer = none)
    {doc : BotDoc} (hdoc : doc.state = f.shared.doc.state) :
    Kept t (f.advance config pid answer doc) := by
  have hchange := step_stateChange config.manualEntryOnly { f.shared with doc } p answer
  have hsame := step_state_of_unlocked (s := { f.shared with doc }) config.manualEntryOnly hunlocked
  rw [advance_some hp]
  rw [← hdoc] at h
  obtain ⟨hbounded, htallied⟩ := h.change hchange pid
  exact ⟨hheld.filter rfl (hsame.trans hdoc), hbounded, htallied⟩

/-- Under the lock. -/
theorem Kept.locked (hheld : f.Held) (h : Tallied f.shared.doc.state t) {pid : ℕ} {p : Pipeline}
    (hp : f.pipelines[pid]? = some p) {answer : Answer} {handler : Handler}
    (hlocks : p.locks answer = some handler) {copy : BotDoc}
    (hlock : f.lock = some (.pipeline pid, copy)) :
    Kept t (if (handler copy).isNone then (f.advance config pid answer copy).1.withDoc f.shared.doc
      else (f.advance config pid answer copy).1, (f.advance config pid answer copy).2) := by
  have hcopy := hheld _ _ hlock
  have hchange := step_stateChange config.manualEntryOnly { f.shared with doc := copy } p answer
  rw [← hcopy] at h
  obtain ⟨hbounded, htallied⟩ := h.change hchange pid
  have hreleased : (f.advance config pid answer copy).1.lock = none := by
    rw [advance_some hp, hlock]
    simp
  rw [advance_some hp] at hreleased ⊢
  split
  case isTrue hrefused =>
    have hsame := step_refused (s := { f.shared with doc := copy }) config.manualEntryOnly hlocks
      (Option.isNone_iff_eq_none.mp hrefused)
    rw [hsame] at htallied
    exact ⟨.free hreleased, hbounded, hcopy ▸ htallied⟩
  case isFalse => exact ⟨.free hreleased, hbounded, htallied⟩

/-- A pipeline goes on. -/
theorem Kept.resume (hheld : f.Held) (h : Tallied f.shared.doc.state t) {pid : ℕ} {answer : Answer}
    (hfresh : f.Fresh (.resume pid answer)) : Kept t (f.resume config pid answer) := by
  unfold LiveFleet.resume
  split
  · exact ⟨hheld, trivial, h⟩
  case h_2 p hp =>
    split
    case h_1 handler hlocks =>
      split
      · exact .quiet (.fresh _) rfl h
      case h_2 holder copy hlock =>
        split
        case isTrue hholder => exact .locked hheld h hp hlocks (hholder ▸ hlock)
        case isFalse => exact ⟨hheld, trivial, h⟩
    case h_2 hunlocked =>
      split
      case isTrue hwrites =>
        split
        · exact .quiet hheld rfl h
        case h_2 copy hcopy => exact .unlocked hheld h hp hunlocked (hfresh p hp hwrites copy hcopy)
      case isFalse => exact .unlocked hheld h hp hunlocked rfl

/-- One input. -/
theorem Kept.step (hheld : f.Held) (h : Tallied f.shared.doc.state t) {i : FleetInput}
    (hfresh : f.Fresh i) : Kept t (f.step config i) := by
  cases i with
  | enter transition =>
    show Kept t (if f.lock.isSome then (f, []) else _)
    split
    · exact ⟨hheld, trivial, h⟩
    · exact .quiet (.fresh _) rfl h
  | leave => exact .leave hheld h
  | get op => exact .quiet hheld rfl h
  | set k => exact .set hheld h hfresh
  | launch actions => exact .quiet hheld rfl h
  | resume pid answer => exact .resume hheld h hfresh

end Accesses

theorem marks_cons (config : FleetConfig) (f : LiveFleet) (i : FleetInput) (inputs : List FleetInput) :
    ((fleetMachine config).trace f (i :: inputs)).map Prod.snd =
      (f.step config i).2 ++
        ((fleetMachine config).trace (f.step config i).1 inputs).map Prod.snd := by
  simp [Mealy.trace_cons, fleetMachine, Function.comp_def]

/-- The marks of a run keep it. -/
theorem Tallied.run (config : FleetConfig) (inputs : List FleetInput) :
    ∀ {f : LiveFleet} {t : Tally}, f.Held → Tallied f.shared.doc.state t →
      Along (fleetMachine config).next LiveFleet.Fresh f inputs →
      t.Bounded (((fleetMachine config).trace f inputs).map Prod.snd) := by
  induction inputs with
  | nil => intro f t _ _ _; trivial
  | cons i inputs ih =>
    intro f t hheld h hfresh
    have hkept : Kept t (f.step config i) := .step hheld h hfresh.1
    rw [marks_cons]
    exact (Along.append _ _).mpr ⟨hkept.bounded, ih hkept.held hkept.tallied hfresh.2⟩

-- ============================================================================
-- Executed orders
-- ============================================================================

/-- Every order executed has passed its gate before. -/
def GatedFirst (ms : List Mark) : Prop :=
  ∀ before after pid order, ms = before ++ .pipeline pid (.executed order) :: after →
    .pipeline pid (.gated order) ∈ before

/-- After some marks, the orders the pipelines can still execute have passed their
    gates. -/
def Fleet.Vetted (f : Fleet) (before : List Mark) : Prop :=
  ∀ pid (p : Pipeline), f.pipelines[pid]? = some p →
    p.Vetted fun order => .pipeline pid (.gated order) ∈ before

/-- Every mark that executes an order comes after one that gates it. -/
def VettedMarks (before : List Mark) (ms : List Mark) : Prop :=
  Along (fun before m => before ++ [m])
    (fun before m => ∀ pid order, m = .pipeline pid (.executed order) →
      .pipeline pid (.gated order) ∈ before) before ms

theorem foldl_append_singleton (before ms : List Mark) :
    ms.foldl (fun before m => before ++ [m]) before = before ++ ms := by
  induction ms generalizing before with
  | nil => simp
  | cons m ms ih => rw [List.foldl_cons, ih, List.append_assoc, List.singleton_append]

theorem gatedFirst_of_vettedMarks {ms : List Mark} (h : VettedMarks [] ms) : GatedFirst ms := by
  rintro before after pid order rfl
  have hafter := ((Along.append _ _).mp h).2.1
  rw [foldl_append_singleton] at hafter
  exact hafter pid order rfl

/-- More orders pass their gates. -/
theorem vetted_mono {gated gated' : PlaceOrder → Prop} {p : Pipeline} (h : p.Vetted gated)
    (hsub : ∀ o, gated o → gated' o) : p.Vetted gated' := by
  unfold Pipeline.Vetted at h ⊢
  cases hphase : p.phase with
  | reading order rest | gating order rest =>
    rw [hphase] at h
    obtain ⟨passed, horders, hpassed⟩ := h
    exact ⟨passed, horders, fun o ho => hsub o (hpassed o ho)⟩
  | filtering left actions | persisting left actions =>
    rw [hphase] at h
    exact fun o ho => hsub o (h o ho)
  | executing left =>
    rw [hphase] at h
    exact fun o ho => hsub o (h o ho)
  | checking | rollingBack | capturing | reverting | done => trivial

theorem Fleet.Vetted.mono {f : Fleet} {before : List Mark} (h : f.Vetted before) (ms : List Mark) :
    f.Vetted (before ++ ms) :=
  fun pid p hp => vetted_mono (h pid p hp) fun _ ho => List.mem_append_left ms ho

/-- The marks of one pipeline step execute vetted orders only. -/
theorem vettedMarks_of_step {pid : ℕ} {before : List Mark} {state state' : BotState}
    {events : List PipelineEvent} (hchange : StateChange state state' events)
    (h : ∀ order, .executed order ∈ events → .pipeline pid (.gated order) ∈ before) :
    VettedMarks before (events.map (.pipeline pid)) := by
  cases hchange with
  | kept => trivial
  | stopped => trivial
  | gated order _ => exact ⟨fun _ _ heq => (by cases heq), trivial⟩
  | reverted prior => exact ⟨fun _ _ heq => (by cases heq), trivial⟩
  | executed order =>
    refine ⟨fun pid' order' heq => ?_, trivial⟩
    cases heq
    exact h order List.mem_cons_self
  | handed order =>
    refine ⟨fun pid' order' heq => ?_, fun _ _ heq => (by cases heq), trivial⟩
    cases heq
    exact h order List.mem_cons_self

/-- A pipeline that starts has executed nothing. -/
theorem Fleet.Vetted.launch {f : Fleet} {before : List Mark} (h : f.Vetted before)
    (actions : List Action) : (f.launch actions).Vetted before := by
  intro pid p hp
  change (f.pipelines ++ [Pipeline.start actions f.shared.doc])[pid]? = some p at hp
  by_cases hold : pid < f.pipelines.length
  · rw [List.getElem?_append_left hold] at hp
    exact h pid p hp
  · rw [List.getElem?_append_right (not_lt.mp hold)] at hp
    rw [List.mem_singleton.mp (List.mem_of_getElem? hp)]
    exact start_vetted _ actions f.shared.doc

/-- The methods of the bot execute no order. -/
theorem vettedMarks_marks (before : List Mark) (transition : Transition) :
    VettedMarks before transition.marks := by
  unfold Transition.marks
  split
  · exact ⟨fun _ _ heq => (by cases heq), trivial⟩
  · split
    · exact ⟨fun _ _ heq => (by cases heq), trivial⟩
    · trivial

/-- A pipeline that goes on executes what it has vetted, and the others keep theirs. -/
theorem Fleet.Vetted.resume {f : Fleet} {before : List Mark} (h : f.Vetted before)
    (config : FleetConfig) (pid : ℕ) (answer : Answer) :
    VettedMarks before (f.resume config pid answer).2 ∧
      (f.resume config pid answer).1.Vetted (before ++ (f.resume config pid answer).2) := by
  cases hp : f.pipelines[pid]? with
  | none =>
    have hsame : f.resume config pid answer = (f, []) := by simp only [Fleet.resume, hp]
    rw [hsame]
    exact ⟨trivial, h.mono []⟩
  | some p =>
    have hstep := (h pid p hp).step config.manualEntryOnly f.shared answer
    have hchange := step_stateChange config.manualEntryOnly f.shared p answer
    rw [resume_some hp]
    refine ⟨vettedMarks_of_step hchange hstep.executed, fun pid' p' hp' => ?_⟩
    change (f.pipelines.set pid _)[pid']? = some p' at hp'
    by_cases heq : pid = pid'
    · subst heq
      rw [List.getElem?_set_self (List.getElem?_eq_some_iff.mp hp).1] at hp'
      obtain rfl := Option.some.inj hp'
      refine vetted_mono hstep.vetted fun o ho => ?_
      rcases ho with ho | ho
      · exact List.mem_append_left _ ho
      · exact List.mem_append_right _ (List.mem_map.mpr ⟨_, ho, rfl⟩)
    · rw [List.getElem?_set_ne heq] at hp'
      exact h.mono _ pid' p' hp'

section Live

variable {f : LiveFleet} {before : List Mark}

/-- A document changes nothing in the pipelines. -/
theorem Fleet.Vetted.advance (h : f.toFleet.Vetted before) (config : FleetConfig) (pid : ℕ)
    (answer : Answer) (doc : BotDoc) :
    VettedMarks before (f.advance config pid answer doc).2 ∧
      (f.advance config pid answer doc).1.toFleet.Vetted
        (before ++ (f.advance config pid answer doc).2) := by
  have hsame : (f.toFleet.withDoc doc).Vetted before := h
  exact hsame.resume config pid answer

theorem Fleet.Vetted.leave (h : f.toFleet.Vetted before) (config : FleetConfig) :
    VettedMarks before (f.leave config).2 ∧
      (f.leave config).1.toFleet.Vetted (before ++ (f.leave config).2) := by
  unfold LiveFleet.leave
  split
  case h_1 t copy hlock =>
    split
    · exact ⟨trivial, h.mono []⟩
    case h_2 r hr =>
      have hsame : (f.toFleet.withDoc r.1).Vetted before := h
      exact ⟨vettedMarks_marks before t.1, hsame.mono _⟩
  case h_2 => exact ⟨trivial, h.mono []⟩

theorem Fleet.Vetted.set (h : f.toFleet.Vetted before) (config : FleetConfig) (k : ℕ) :
    (f.set config k).toFleet.Vetted before := by
  unfold LiveFleet.set
  split
  · exact h
  · dsimp only
    split <;> exact h

theorem Fleet.Vetted.resumed (h : f.toFleet.Vetted before) (config : FleetConfig) (pid : ℕ)
    (answer : Answer) :
    VettedMarks before (f.resume config pid answer).2 ∧
      (f.resume config pid answer).1.toFleet.Vetted
        (before ++ (f.resume config pid answer).2) := by
  have hidle : VettedMarks before [] ∧ f.toFleet.Vetted (before ++ []) := ⟨trivial, h.mono []⟩
  unfold LiveFleet.resume
  split
  · exact hidle
  · split
    · split
      · exact hidle
      case h_2 holder copy hlock =>
        split
        · obtain ⟨hmarks, hnext⟩ := h.advance config pid answer copy
          refine ⟨hmarks, ?_⟩
          dsimp only
          split <;> exact hnext
        · exact hidle
    · split
      · split
        · exact hidle
        case h_2 copy hcopy => exact h.advance config pid answer copy
      · exact h.advance config pid answer f.shared.doc

/-- One input keeps the pipelines vetted. -/
theorem Fleet.Vetted.step (h : f.toFleet.Vetted before) (config : FleetConfig) (i : FleetInput) :
    VettedMarks before (f.step config i).2 ∧
      (f.step config i).1.toFleet.Vetted (before ++ (f.step config i).2) := by
  cases i with
  | enter t =>
    show VettedMarks before (if f.lock.isSome then (f, []) else _).2 ∧ _
    unfold LiveFleet.step
    split <;> exact ⟨trivial, h.mono []⟩
  | leave => exact h.leave config
  | get op => exact ⟨trivial, h.mono []⟩
  | set k => exact ⟨trivial, (h.set config k).mono []⟩
  | launch actions => exact ⟨trivial, (h.launch actions).mono []⟩
  | resume pid answer => exact h.resumed config pid answer

end Live

theorem Fleet.Vetted.run (config : FleetConfig) (inputs : List FleetInput) :
    ∀ {f : LiveFleet} {before : List Mark}, f.toFleet.Vetted before →
      VettedMarks before (((fleetMachine config).trace f inputs).map Prod.snd) := by
  induction inputs with
  | nil => intro f before _; trivial
  | cons i inputs ih =>
    intro f before h
    obtain ⟨hmarks, hnext⟩ := h.step config i
    rw [marks_cons]
    refine (Along.append _ _).mpr ⟨hmarks, ?_⟩
    rw [foldl_append_singleton]
    exact ih hnext

-- ============================================================================
-- One order in flight, over every run
-- ============================================================================

/-- Over every run of a bot, its pipelines and the other writers of its document, in any
    order of their steps, as long as no write without the lock brings a state back that
    has changed since it was read: until the order in flight is settled or given up, at
    most one entry and at most one exit pass the gate and reach the execution stage, and
    none reaches it without having passed. -/
theorem oneInFlight (config : FleetConfig) (doc : BotDoc) (inputs : List FleetInput)
    (h : Along (fleetMachine config).next LiveFleet.Fresh (.init doc) inputs) :
    OneInFlight Mark.isEnd (marks config doc inputs) ∧ GatedFirst (marks config doc inputs) := by
  refine ⟨oneInFlight_of_bounded ?_, gatedFirst_of_vettedMarks ?_⟩
  · exact Tallied.run config inputs (.free rfl) (.fresh doc.state) h
  · refine Fleet.Vetted.run config inputs (f := .init doc) ?_
    intro pid p hp
    cases hp

/-- A pipeline that is resumed until its only order has been handed to the engine. -/
def launchAndHand (pid : ℕ) (order : PlaceOrder) : List FleetInput :=
  .launch [.placeOrder order] ::
    (List.replicate 15 (.resume pid { ibOrderId := some "1" }))

/-- An exit of ten. -/
def sellTen : PlaceOrder := { symbol := "QQQ", side := "SELL", qty := 10, origin := "exit" }

/-- The bot is armed and a quote's fields are written while the exit is on its way. -/
theorem oneInFlight_exit :
    let inputs := .launch [.updateState { qty := some 10 }] :: List.replicate 5 (.resume 0 {}) ++
      .get ⟨.writeState { armed := some true }, nofun⟩ :: .set 0 :: launchAndHand 1 sellTen ++
      List.replicate 4 (.resume 0 {})
    OneInFlight Mark.isEnd (marks {} { state := .awaitingExitTrigger, qty := 10 } inputs) ∧
      GatedFirst (marks {} { state := .awaitingExitTrigger, qty := 10 } inputs) :=
  oneInFlight _ _ _ (by decide +kernel)

/-- With a write that is not: the fields of a quote, read before an exit passes its gate
    and written after it, let a second exit pass. -/
example :
    let inputs := .launch [.updateState { qty := some 10 }] :: List.replicate 6 (.resume 0 {}) ++
      launchAndHand 1 sellTen ++ .resume 0 {} :: launchAndHand 2 sellTen
    ¬OneInFlight Mark.isEnd (marks {} { state := .awaitingExitTrigger, qty := 10 } inputs) := by
  intro inputs h
  have hone := h [] _ [] (by rw [List.append_nil]; rfl) (by decide +kernel) true
  exact absurd hone (by decide +kernel)

/-- Force-quit cancels and replaces an exit: a second one is executed before the
    first is settled. -/
theorem oneInFlight_fails :
    ¬ ∀ (config : FleetConfig) (doc : BotDoc) (inputs : List FleetInput),
      OneInFlight Mark.isSettlement (marks config doc inputs) := by
  intro h
  have hone := h {} { state := .awaitingExitTrigger, qty := 10 }
    (launchAndHand 0 sellTen ++ .enter ⟨.forceQuitCancelAndReplace, rfl⟩ :: .leave ::
      launchAndHand 1 sellTen)
    [] _ [] (by rw [List.append_nil]; rfl) (by decide +kernel) true
  exact absurd hone (by decide +kernel)

end IbTrader.Bots.Runtime
