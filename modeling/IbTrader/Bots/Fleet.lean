/-
  IbTrader.Bots.Fleet

  The pipelines of one bot that run at the same time, between the other transitions
  of its lifecycle and the other writers of its document.

  Whoever writes the document GETs it, awaits, and SETs it whole.  A transition, of a
  pipeline or from outside, holds the state lock meanwhile; `_write_state` and the
  writers beside it do not, so what they SET may be older than what is there
  (`LiveFleet.Fresh` says when its state is not).
-/

import IbTrader.Lib.Mealy
import IbTrader.Bots.Pipeline

namespace IbTrader.Bots.Runtime

open Lib

-- ============================================================================
-- A bot and its pipelines
-- ============================================================================

structure Fleet where
  shared : Shared := {}
  /-- The pipelines started so far. -/
  pipelines : List Pipeline := []
  deriving DecidableEq, Repr

/-- The transitions only a pipeline makes. -/
def Transition.ofPipeline : Transition → Bool
  | .placeEntryOrder .. | .placeExitOrder .. | .captureOrderId _ | .revertToState _ => true
  | _ => false

/-- The transitions that settle the order in flight: its terminal event, its
    timeout. -/
def Transition.settles : Transition → Bool
  | .entryTimeout | .entryCancelled | .exitCancelled => true
  | .entryFilled args | .exitFilled args => args.terminal
  | _ => false

/-- The transitions that give an order up without a settlement: force-quit cancels
    and replaces it, a start begins a new session. -/
def Transition.givesUp : Transition → Bool
  | .forceQuitCancelAndReplace | .start _ => true
  | _ => false

/-- What can be seen of a fleet. -/
inductive Mark where
  | pipeline (pid : ℕ) (event : PipelineEvent)
  | settled
  | gaveUp
  deriving DecidableEq, Repr

def Transition.marks (t : Transition) : List Mark :=
  if t.settles then [.settled] else if t.givesUp then [.gaveUp] else []

/-- The settings of the bot that its handlers and middlewares read. -/
structure FleetConfig where
  strategy : StrategyConfig := {}
  manualEntryOnly : Bool := false
  deriving DecidableEq, Repr

def Fleet.withDoc (f : Fleet) (doc : BotDoc) : Fleet := { f with shared := { f.shared with doc } }

/-- A pipeline is started. -/
def Fleet.launch (f : Fleet) (actions : List Action) : Fleet :=
  { f with pipelines := f.pipelines ++ [.start actions f.shared.doc] }

/-- A transition, if its handler accepts it. -/
def Fleet.lifecycle (config : FleetConfig) (f : Fleet) (t : Transition) : Fleet × List Mark :=
  if t.ofPipeline then (f, [])
  else
    match t.handler config.strategy f.shared.doc with
    | none => (f, [])
    | some r => (f.withDoc r.1, t.marks)

/-- A pipeline goes on. -/
def Fleet.resume (config : FleetConfig) (f : Fleet) (pid : ℕ) (answer : Answer) :
    Fleet × List Mark :=
  match f.pipelines[pid]? with
  | none => (f, [])
  | some p =>
    let (shared, next, events) := p.step config.manualEntryOnly f.shared answer
    ({ shared, pipelines := f.pipelines.set pid next }, events.map (.pipeline pid))

theorem resume_some {config : FleetConfig} {f : Fleet} {pid : ℕ} {p : Pipeline}
    (h : f.pipelines[pid]? = some p) (answer : Answer) :
    f.resume config pid answer =
      ({ shared := (p.step config.manualEntryOnly f.shared answer).1
         pipelines := f.pipelines.set pid (p.step config.manualEntryOnly f.shared answer).2.1 },
        (p.step config.manualEntryOnly f.shared answer).2.2.map (.pipeline pid)) := by
  simp only [Fleet.resume, h]

-- ============================================================================
-- Reading and writing the document
-- ============================================================================

/-- The transition a pipeline is about to make under the state lock. -/
def Pipeline.locks (p : Pipeline) (answer : Answer) : Option Handler :=
  match p.phase with
  | .checking => if answer.tripped then some onStop else none
  | .gating order _ => if answer.raises then none else some (order.gate answer.tradeSerial)
  | .capturing cmdId => if answer.raises then none else some (captureOrderId cmdId)
  | .reverting prior _ _ => if answer.raises then none else some (revertToState prior)
  | _ => none

/-- A pipeline is in `_write_state`, for an action or the rollback. -/
def Pipeline.writesState (p : Pipeline) (answer : Answer) : Bool :=
  match p.phase with
  | .persisting (.updateState _ :: _) _ | .rollingBack => !answer.raises
  | _ => false

/-- A transition that is not made by a pipeline: an order event, a timeout, a
    command. -/
abbrev OutsideTransition := {t : Transition // t.ofPipeline = false}

/-- A writer of the document that does not hold the state lock. -/
abbrev UnlockedOp := {op : StateOp // op.lock ≠ some .state}

inductive LockHolder where
  | transition (t : OutsideTransition)
  | pipeline (pid : ℕ)
  deriving DecidableEq, Repr

/-- A bot whose document is read and written one access at a time. -/
structure LiveFleet extends Fleet where
  /-- The holder of the state lock, with the document it has read. -/
  lock : Option (LockHolder × BotDoc) := none
  /-- What the `_write_state` of each pipeline has read. -/
  copies : ℕ → Option BotDoc := fun _ => none
  /-- The other writers without the lock, with what they have read. -/
  writers : List (UnlockedOp × BotDoc) := []

inductive FleetInput where
  /-- A transition takes the lock and reads the document. -/
  | enter (t : OutsideTransition)
  /-- It writes the document and gives the lock back. -/
  | leave
  /-- A writer without the lock reads the document. -/
  | get (op : UnlockedOp)
  /-- The writer in this place writes it. -/
  | set (k : ℕ)
  | launch (actions : List Action)
  /-- The await of a pipeline answers. -/
  | resume (pid : ℕ) (answer : Answer)

namespace LiveFleet

variable (config : FleetConfig) (f : LiveFleet)

def withDoc (doc : BotDoc) : LiveFleet := { f with toFleet := f.toFleet.withDoc doc }

def leave : LiveFleet × List Mark :=
  match f.lock with
  | some (.transition t, copy) =>
    match t.1.handler config.strategy copy with
    | none => ({ f with lock := none }, [])
    | some r => ({ f.withDoc r.1 with lock := none }, t.1.marks)
  | _ => (f, [])

def set (k : ℕ) : LiveFleet :=
  match f.writers[k]? with
  | none => f
  | some (op, copy) =>
    let rest := { f with writers := f.writers.eraseIdx k }
    match op.1.apply config.strategy copy with
    | none => rest
    | some doc => rest.withDoc doc

/-- A pipeline goes on from a document, and is done with what it has read. -/
def advance (pid : ℕ) (answer : Answer) (doc : BotDoc) : LiveFleet × List Mark :=
  let (next, marks) := (f.toFleet.withDoc doc).resume config pid answer
  ({ f with
      toFleet := next
      lock := f.lock.filter (·.1 ≠ .pipeline pid)
      copies := Function.update f.copies pid none }, marks)

/-- A pipeline goes on, or it reads the document it is going to write. -/
def resume (pid : ℕ) (answer : Answer) : LiveFleet × List Mark :=
  match f.pipelines[pid]? with
  | none => (f, [])
  | some p =>
    match p.locks answer with
    | some handler =>
      match f.lock with
      | none => ({ f with lock := some (.pipeline pid, f.shared.doc) }, [])
      | some (holder, copy) =>
        if holder = .pipeline pid then
          let (next, marks) := f.advance config pid answer copy
          -- a handler that refuses writes nothing
          (if (handler copy).isNone then next.withDoc f.shared.doc else next, marks)
        else (f, [])
    | none =>
      if p.writesState answer then
        match f.copies pid with
        | none => ({ f with copies := Function.update f.copies pid (some f.shared.doc) }, [])
        | some copy => f.advance config pid answer copy
      else f.advance config pid answer f.shared.doc

def step : FleetInput → LiveFleet × List Mark
  | .enter t =>
    if f.lock.isSome then (f, []) else ({ f with lock := some (.transition t, f.shared.doc) }, [])
  | .leave => f.leave config
  | .get op => ({ f with writers := f.writers ++ [(op, f.shared.doc)] }, [])
  | .set k => (f.set config k, [])
  | .launch actions => ({ f with toFleet := f.toFleet.launch actions }, [])
  | .resume pid answer => f.resume config pid answer

/-- What a writer without the lock SETs has the state that is there. -/
def Fresh : FleetInput → Prop
  | .set k => ∀ writer ∈ f.writers[k]?, writer.2.state = f.shared.doc.state
  | .resume pid answer =>
    ∀ p ∈ f.pipelines[pid]?, p.writesState answer = true →
      ∀ copy ∈ f.copies pid, copy.state = f.shared.doc.state
  | .enter _ | .leave | .get _ | .launch _ => True

instance (i : FleetInput) : Decidable (f.Fresh i) := by
  cases i <;> unfold Fresh <;> infer_instance

end LiveFleet

/-- The bot as a machine: inputs in, marks out. -/
def fleetMachine (config : FleetConfig) : Mealy LiveFleet FleetInput Mark where
  next f i := (f.step config i).1
  emit f i := (f.step config i).2

/-- A bot in some document. -/
def LiveFleet.init (doc : BotDoc) : LiveFleet := { shared := { doc } }

/-- What a run of a bot in some document shows. -/
def marks (config : FleetConfig) (doc : BotDoc) (inputs : List FleetInput) : List Mark :=
  ((fleetMachine config).trace (.init doc) inputs).map Prod.snd

-- ============================================================================
-- What the accesses do to the state
-- ============================================================================

/-- A writer without the lock writes the state it has read. -/
theorem UnlockedOp.apply_state {config : StrategyConfig} (op : UnlockedOp) {copy doc : BotDoc}
    (h : op.1.apply config copy = some doc) : doc.state = copy.state := by
  obtain ⟨op, hlock⟩ := op
  cases op with
  | transition t => exact absurd rfl hlock
  | writeState fields =>
    obtain rfl := Option.some.inj h
    rfl
  | applyCancel =>
    obtain rfl := Option.some.inj h
    rfl
  | applyReconciled qty avgPrice =>
    obtain rfl := Option.some.inj h
    rfl
  | applyPositionEvent ibQty verified =>
    simp only [StateOp.apply, applyPositionEvent] at h
    split at h
    · cases h
    · split at h
      · cases h
      · split at h
        · cases h
        · split at h
          · obtain rfl := Option.some.inj h
            rfl
          · cases h

section Step

variable {p : Pipeline} {s : Shared} {answer : Answer} (manualEntryOnly : Bool)

theorem handled_of_none {handler : Handler} {doc : BotDoc} (h : handler doc = none) :
    (handled handler doc).1 = doc := by
  rw [handled, h]
  rfl

/-- A pipeline whose transition is refused leaves the document as it is. -/
theorem step_refused {handler : Handler} (h : p.locks answer = some handler)
    (hnone : handler s.doc = none) : (p.step manualEntryOnly s answer).1.doc = s.doc := by
  unfold Pipeline.locks at h
  unfold Pipeline.step
  cases hphase : p.phase with
  | checking =>
    simp only [hphase] at h
    split at h
    case isTrue htripped =>
      obtain rfl := Option.some.inj h
      simp [htripped, handled_of_none hnone]
    case isFalse => cases h
  | gating order rest =>
    simp only [hphase] at h
    split at h
    · cases h
    case isFalse hraises =>
      obtain rfl := Option.some.inj h
      simp [hraises, hnone]
  | capturing cmdId =>
    simp only [hphase] at h
    split at h
    · cases h
    case isFalse hraises =>
      obtain rfl := Option.some.inj h
      simp [hraises, handled_of_none hnone]
  | reverting prior rest raised =>
    simp only [hphase] at h
    split at h
    · cases h
    case isFalse hraises =>
      obtain rfl := Option.some.inj h
      simp [hraises, handled_of_none hnone]
  | reading | filtering | persisting | executing | rollingBack | done =>
    simp only [hphase] at h
    cases h

/-- Without the state lock a pipeline does not change the state. -/
theorem step_state_of_unlocked (h : p.locks answer = none) :
    (p.step manualEntryOnly s answer).1.doc.state = s.doc.state := by
  unfold Pipeline.locks at h
  unfold Pipeline.step
  cases hphase : p.phase with
  | checking =>
    cases htripped : answer.tripped with
    | true => simp [hphase, htripped] at h
    | false => rfl
  | gating order rest =>
    cases hraises : answer.raises with
    | true => rfl
    | false => simp [hphase, hraises] at h
  | capturing cmdId =>
    cases hraises : answer.raises with
    | true => rfl
    | false => simp [hphase, hraises] at h
  | reverting prior rest raised =>
    cases hraises : answer.raises with
    | true => rfl
    | false => simp [hphase, hraises] at h
  | reading order rest => cases answer.raises <;> rfl
  | filtering left actions =>
    cases left with
    | nil => rfl
    | cons filter left => cases answer.raises <;> rfl
  | persisting left actions =>
    cases left with
    | nil => cases answer.raises <;> rfl
    | cons action left =>
      cases action with
      | updateState fields => cases answer.raises <;> rfl
      | placeOrder order => rfl
      | cancelOrder tradeSerial => rfl
      | report => rfl
  | executing left =>
    cases left with
    | nil => rfl
    | cons action left =>
      cases action with
      | placeOrder order => unfold Pipeline.execute; cases answer.raises <;> rfl
      | cancelOrder tradeSerial => unfold Pipeline.execute; cases answer.raises <;> rfl
      | updateState fields => rfl
      | report => rfl
  | rollingBack => cases answer.raises <;> rfl
  | done raised => rfl

end Step

end IbTrader.Bots.Runtime
