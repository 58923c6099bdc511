/-
  IbTrader.Ib.OrderedDispatch

  The dispatch of IB's events to the callbacks of orders
  (`ib_trader/ib/insync_client.py`).

  The inputs are the events of all orders, the registrations, the ends of cancel
  verifications and the turns of the event loop, in any order.  The loop starts tasks in
  the order in which they were created; a task that waits for its lock runs at any time
  after it was woken, and a callback runs for any time and ends by returning or by
  raising.  Nothing cancels these tasks while the loop runs.  The locks are made when they
  are first asked for and stay.  Logging, the error and retry records that
  `unregister_callbacks` also drops and figures that do not read as numbers are left out.

  What an event brings to the callbacks of an order is settled when the event arrives
  (`arrivals`); the tasks that ask for the order's lock are those arrivals, in their order
  (`Ordered`).
-/

import Mathlib.Algebra.Order.Ring.Rat
import IbTrader.Data.Python
import IbTrader.Ib.CancelGate
import IbTrader.Lib.FifoLock
import IbTrader.Lib.KeyedList

namespace IbTrader.Ib.OrderedDispatch

open Lib Data CancelGate

-- ============================================================================
-- Events
-- ============================================================================

/-- What `_on_exec_details` reads of the trade and the fill. -/
structure ExecDetails where
  orderId : ℤ
  shares : ℚ
  price : ℚ
  commission : Option ℚ := none
  deriving DecidableEq, Repr

/-- What `_on_commission_report` reads; a missing text is empty. -/
structure CommissionReport where
  orderId : ℤ
  execId : String := ""
  commission : Option ℚ := none
  realizedPnl : Option ℚ := none
  deriving DecidableEq, Repr

/-- A status event of an order. -/
structure OrderStatus where
  orderId : ℤ
  event : StatusEvent
  deriving DecidableEq, Repr

/-- What a callback is called with, after the order's id. -/
inductive Args
  | fill (qtyFilled avgPrice commission : ℚ)
  | commission (execId : String) (commission : ℚ) (realizedPnl : Option ℚ)
  | status (status : String)
  deriving DecidableEq, Repr

/-- A callback and its arguments. -/
structure Body (γ : Type) where
  callback : γ
  ibOrderId : String
  args : Args
  deriving DecidableEq, Repr

inductive Event (γ : Type)
  | registerFillCallback (callback : γ) (ibOrderId : Option String)
  | registerStatusCallback (callback : γ) (ibOrderId : Option String)
  | registerCommissionCallback (callback : γ) (ibOrderId : Option String)
  | unregisterCallbacks (ibOrderId : String)
  | execDetails (e : ExecDetails)
  | commissionReport (r : CommissionReport)
  | orderStatus (e : OrderStatus)
  /-- The query of a cancel verification has ended. -/
  | verifyCancel (ibOrderId : String) (answer : Answer)
  deriving DecidableEq, Repr

-- ============================================================================
-- The handlers
-- ============================================================================

/-- What the handlers keep. -/
structure Handlers (γ : Type) where
  fillCallbacks : Dict String (List γ) := ∅
  statusCallbacks : Dict String (List γ) := ∅
  commissionCallbacks : Dict String (List γ) := ∅
  seenCommissionExecs : List String := []
  /-- `_previous_clean_status_map`. -/
  previousCleanStatus : Dict String String := ∅
  /-- `trade.orderStatus.status`, of each order. -/
  tradeStatus : Dict String String := ∅
  /-- The orders of the verifications that wait for their answer. -/
  verifying : List String := []

/-- The key of the callbacks of all orders. -/
def globalKey : String := "_GLOBAL"

section Handle

variable {γ : Type}

/-- `callbacks.setdefault(key, []).append(callback)`. -/
def register (callbacks : Dict String (List γ)) (callback : γ) (ibOrderId : Option String) :
    Dict String (List γ) :=
  let key := (given ibOrderId).getD globalKey
  callbacks.put key ((callbacks.value key).getD [] ++ [callback])

/-- The tasks of an event: the callbacks of the order, then those of all orders. -/
def bodies (callbacks : Dict String (List γ)) (ibOrderId : String) (args : Args) : List (Body γ) :=
  ((callbacks.value ibOrderId).getD [] ++ (callbacks.value globalKey).getD []).map
    fun callback => { callback, ibOrderId, args }

namespace Handlers

variable (h : Handlers γ)

/-- `unregister_callbacks`. -/
def unregisterCallbacks (ibOrderId : String) : Handlers γ :=
  { h with
    fillCallbacks := h.fillCallbacks.erase ibOrderId
    statusCallbacks := h.statusCallbacks.erase ibOrderId
    previousCleanStatus := h.previousCleanStatus.erase ibOrderId }

/-- `_on_exec_details`. -/
def onExecDetails (e : ExecDetails) : Handlers γ × List (Body γ) :=
  (h, bodies h.fillCallbacks (toString e.orderId) (.fill e.shares e.price (e.commission.getD 0)))

/-- `_on_commission_report`. -/
def onCommissionReport (r : CommissionReport) : Handlers γ × List (Body γ) :=
  let realizedPnl := r.realizedPnl.filter fun pnl => |pnl| < 10 ^ 15
  if r.execId ≠ "" ∧ r.execId ∈ h.seenCommissionExecs then (h, [])
  else
    (if r.execId ≠ "" then { h with seenCommissionExecs := r.execId :: h.seenCommissionExecs } else h,
      bodies h.commissionCallbacks (toString r.orderId)
        (.commission r.execId (r.commission.getD 0) realizedPnl))

/-- `_dispatch_status_to_callbacks`. -/
def dispatchStatus (ibOrderId status : String) : Handlers γ × List (Body γ) :=
  (if status ∈ terminalStatuses then h.unregisterCallbacks ibOrderId else h,
    bodies h.statusCallbacks ibOrderId (.status status))

/-- `_on_order_status`.  The event has written the trade's status before it is handled. -/
def onOrderStatus (e : OrderStatus) : Handlers γ × List (Body γ) :=
  let ibOrderId := toString e.orderId
  let status := e.event.status
  let h := { h with tradeStatus := h.tradeStatus.put ibOrderId status }
  if e.event.isPreroutingCancel then (h, [])
  else if status ∈ cancelStatuses then
    let previousClean := (h.previousCleanStatus.value ibOrderId).getD "Submitted"
    ({ h with
        tradeStatus := h.tradeStatus.put ibOrderId previousClean
        verifying := h.verifying ++ [ibOrderId] }, [])
  else
    ({ h with previousCleanStatus := h.previousCleanStatus.put ibOrderId status } : Handlers γ).dispatchStatus
      ibOrderId status

/-- `_verify_cancel`, once its query has ended. -/
def verifyCancel (ibOrderId : String) (answer : Answer) : Handlers γ × List (Body γ) :=
  if ibOrderId ∈ h.verifying then
    let h := { h with verifying := h.verifying.erase ibOrderId }
    match answer with
    -- a failed query counts as open
    | .stillOpen | .failed => (h, [])
    | .gone =>
      if h.tradeStatus.value ibOrderId = some "Filled" then (h, [])
      else
        ({ h with tradeStatus := h.tradeStatus.put ibOrderId "Cancelled" } : Handlers γ).dispatchStatus
          ibOrderId "Cancelled"
  else (h, [])

/-- What the handlers keep of an event, and the tasks they create. -/
def handle : Event γ → Handlers γ × List (Body γ)
  | .registerFillCallback callback ibOrderId =>
    ({ h with fillCallbacks := register h.fillCallbacks callback ibOrderId }, [])
  | .registerStatusCallback callback ibOrderId =>
    ({ h with statusCallbacks := register h.statusCallbacks callback ibOrderId }, [])
  | .registerCommissionCallback callback ibOrderId =>
    ({ h with commissionCallbacks := register h.commissionCallbacks callback ibOrderId }, [])
  | .unregisterCallbacks ibOrderId => (h.unregisterCallbacks ibOrderId, [])
  | .execDetails e => h.onExecDetails e
  | .commissionReport r => h.onCommissionReport r
  | .orderStatus e => h.onOrderStatus e
  | .verifyCancel ibOrderId answer => h.verifyCancel ibOrderId answer

end Handlers

end Handle

-- ============================================================================
-- The event loop
-- ============================================================================

/-- The client: its handlers, its locks, and the tasks that have not been started. -/
structure Client (γ : Type) where
  handlers : Handlers γ := {}
  orderLocks : Dict String (FifoLock (Body γ)) := ∅
  tasks : List (Body γ) := []

inductive Input (γ : Type)
  | event (e : Event γ)
  /-- The first task that has not been started runs up to its lock. -/
  | start
  /-- The callback that runs under the lock of an order ends. -/
  | finish (ibOrderId : String)
  /-- The task that the lock of an order has woken runs. -/
  | wake (ibOrderId : String)
  deriving DecidableEq, Repr

/-- What is seen of the client: a task is created, a callback begins or ends. -/
inductive Output (γ : Type)
  | spawned (body : Body γ)
  | ran (ibOrderId : String) (mark : Mark (Body γ))
  deriving DecidableEq, Repr

section Loop

variable {γ : Type}

namespace Client

variable (c : Client γ)

/-- `_get_order_lock`, which makes the lock where there is none. -/
def getOrderLock (ibOrderId : String) : FifoLock (Body γ) := (c.orderLocks.value ibOrderId).getD {}

/-- The lock of an order after one of its operations, and what is seen of it. -/
def putOrderLock (ibOrderId : String) (result : FifoLock (Body γ) × List (Mark (Body γ))) :
    Client γ × List (Output γ) :=
  ({ c with orderLocks := c.orderLocks.put ibOrderId result.1 }, result.2.map (.ran ibOrderId))

/-- `_dispatch_ordered`, up to the lock. -/
def dispatchOrdered (body : Body γ) : Client γ × List (Output γ) :=
  c.putOrderLock body.ibOrderId ((c.getOrderLock body.ibOrderId).acquire body)

def step : Input γ → Client γ × List (Output γ)
  | .event e =>
    let (handlers, bodies) := c.handlers.handle e
    ({ c with handlers, tasks := c.tasks ++ bodies }, bodies.map .spawned)
  | .start =>
    match c.tasks with
    | [] => (c, [])
    | body :: tasks => ({ c with tasks } : Client γ).dispatchOrdered body
  | .finish ibOrderId =>
    match c.orderLocks.value ibOrderId with
    | none => (c, [])
    | some lock => c.putOrderLock ibOrderId lock.release
  | .wake ibOrderId =>
    match c.orderLocks.value ibOrderId with
    | none => (c, [])
    | some lock => c.putOrderLock ibOrderId lock.wake

end Client

/-- The client as a machine. -/
def machine (γ : Type) : Mealy (Client γ) (Input γ) (Output γ) where
  next c i := (c.step i).1
  emit c i := (c.step i).2

end Loop

-- ============================================================================
-- What is seen of an order
-- ============================================================================

section Seen

variable {γ : Type}

/-- The tasks that were created for an order. -/
def spawnedFor (ibOrderId : String) (os : List (Output γ)) : List (Body γ) :=
  os.filterMap fun
    | .spawned body => if body.ibOrderId = ibOrderId then some body else none
    | .ran .. => none

/-- The beginnings and ends of the callbacks of an order. -/
def marksFor (ibOrderId : String) (os : List (Output γ)) : List (Mark (Body γ)) :=
  os.filterMap fun
    | .spawned _ => none
    | .ran ibOrderId' mark => if ibOrderId' = ibOrderId then some mark else none

/-- Nothing is left to do: every task was started and no lock is held or about to be. -/
structure Client.Idle (c : Client γ) : Prop where
  tasks : c.tasks = []
  free : ∀ ibOrderId, (c.getOrderLock ibOrderId).holder = none ∧ (c.getOrderLock ibOrderId).woken = false

/-- The tasks of an order: some asked for its lock, in the order in which they were created,
    and the others have not been started. -/
def Ordered (ibOrderId : String) (c : Client γ) (os : List (Output γ)) : Prop :=
  ∃ asked, spawnedFor ibOrderId os = asked ++ c.tasks.filter (·.ibOrderId = ibOrderId) ∧
    Served asked (marksFor ibOrderId os) (c.getOrderLock ibOrderId)

variable {c : Client γ} {os : List (Output γ)} {ibOrderId : String}

@[simp] theorem spawnedFor_append (os os' : List (Output γ)) :
    spawnedFor ibOrderId (os ++ os') = spawnedFor ibOrderId os ++ spawnedFor ibOrderId os' :=
  List.filterMap_append

@[simp] theorem marksFor_append (os os' : List (Output γ)) :
    marksFor ibOrderId (os ++ os') = marksFor ibOrderId os ++ marksFor ibOrderId os' :=
  List.filterMap_append

theorem spawnedFor_spawned (bodies : List (Body γ)) :
    spawnedFor ibOrderId (bodies.map .spawned) = bodies.filter (·.ibOrderId = ibOrderId) := by
  unfold spawnedFor
  rw [List.filterMap_map, ← List.filterMap_eq_filter]
  refine List.filterMap_congr fun body _ => ?_
  by_cases h : body.ibOrderId = ibOrderId <;> simp [h, Option.guard]

theorem marksFor_spawned (bodies : List (Body γ)) : marksFor ibOrderId (bodies.map .spawned) = [] := by
  unfold marksFor
  rw [List.filterMap_map, List.filterMap_eq_nil_iff]
  exact fun _ _ => rfl

theorem spawnedFor_ran (ibOrderId' : String) (marks : List (Mark (Body γ))) :
    spawnedFor ibOrderId (marks.map (.ran ibOrderId')) = [] := by
  unfold spawnedFor
  rw [List.filterMap_map, List.filterMap_eq_nil_iff]
  exact fun _ _ => rfl

theorem marksFor_ran_self (marks : List (Mark (Body γ))) :
    marksFor ibOrderId (marks.map (.ran ibOrderId)) = marks := by
  unfold marksFor
  rw [List.filterMap_map]
  refine (List.filterMap_congr fun mark _ => ?_).trans List.filterMap_some
  exact if_pos rfl

theorem marksFor_ran_ne {ibOrderId' : String} (h : ibOrderId' ≠ ibOrderId) (marks : List (Mark (Body γ))) :
    marksFor ibOrderId (marks.map (.ran ibOrderId')) = [] := by
  unfold marksFor
  rw [List.filterMap_map, List.filterMap_eq_nil_iff]
  exact fun _ _ => if_neg h

-- ============================================================================
-- The order of the callbacks
-- ============================================================================

theorem getOrderLock_put_self (c : Client γ) (ibOrderId : String)
    (result : FifoLock (Body γ) × List (Mark (Body γ))) :
    (c.putOrderLock ibOrderId result).1.getOrderLock ibOrderId = result.1 := by
  unfold Client.putOrderLock Client.getOrderLock
  rw [Dict.value_put_self]
  rfl

theorem getOrderLock_put_ne {ibOrderId' : String} (h : ibOrderId ≠ ibOrderId') (c : Client γ)
    (result : FifoLock (Body γ) × List (Mark (Body γ))) :
    (c.putOrderLock ibOrderId' result).1.getOrderLock ibOrderId = c.getOrderLock ibOrderId := by
  unfold Client.putOrderLock Client.getOrderLock
  rw [Dict.value_put_ne h]

/-- An operation of another order's lock does not matter. -/
theorem Ordered.put_ne {ibOrderId' : String} (h : Ordered ibOrderId c os) (hne : ibOrderId ≠ ibOrderId')
    (result : FifoLock (Body γ) × List (Mark (Body γ))) :
    Ordered ibOrderId (c.putOrderLock ibOrderId' result).1 (os ++ (c.putOrderLock ibOrderId' result).2) := by
  obtain ⟨asked, hspawned, hserved⟩ := h
  have houtputs : (c.putOrderLock ibOrderId' result).2 = result.2.map (.ran ibOrderId') := rfl
  refine ⟨asked, ?_, ?_⟩
  · rw [houtputs, spawnedFor_append, spawnedFor_ran, List.append_nil, hspawned]
    rfl
  · rw [houtputs, marksFor_append, marksFor_ran_ne hne.symm, List.append_nil, getOrderLock_put_ne hne]
    exact hserved

/-- An operation of the order's lock. -/
theorem Ordered.put_self {asked : List (Body γ)} {result : FifoLock (Body γ) × List (Mark (Body γ))}
    (hspawned : spawnedFor ibOrderId os = asked ++ c.tasks.filter (·.ibOrderId = ibOrderId))
    (hserved : Served asked (marksFor ibOrderId os ++ result.2) result.1) :
    Ordered ibOrderId (c.putOrderLock ibOrderId result).1 (os ++ (c.putOrderLock ibOrderId result).2) := by
  have houtputs : (c.putOrderLock ibOrderId result).2 = result.2.map (.ran ibOrderId) := rfl
  refine ⟨asked, ?_, ?_⟩
  · rw [houtputs, spawnedFor_append, spawnedFor_ran, List.append_nil, hspawned]
    rfl
  · rw [houtputs, marksFor_append, marksFor_ran_self, getOrderLock_put_self]
    exact hserved

theorem Ordered.start (ibOrderId : String) : Ordered ibOrderId ({} : Client γ) [] := ⟨[], rfl, served_nil⟩

/-- A task that starts asks for its lock after all that were created before it. -/
theorem Ordered.dispatchOrdered {body : Body γ} {tasks : List (Body γ)} (htasks : c.tasks = body :: tasks)
    (h : Ordered ibOrderId c os) :
    Ordered ibOrderId (({ c with tasks } : Client γ).dispatchOrdered body).1
      (os ++ (({ c with tasks } : Client γ).dispatchOrdered body).2) := by
  obtain ⟨asked, hspawned, hserved⟩ := h
  rw [htasks] at hspawned
  unfold Client.dispatchOrdered
  by_cases hid : body.ibOrderId = ibOrderId
  · subst hid
    rw [List.filter_cons_of_pos (by simp), List.append_cons] at hspawned
    exact Ordered.put_self hspawned (hserved.acquire body)
  · rw [List.filter_cons_of_neg (by simpa using hid)] at hspawned
    have hrest : Ordered ibOrderId ({ c with tasks } : Client γ) os := ⟨asked, hspawned, hserved⟩
    exact hrest.put_ne (Ne.symm hid) _

/-- An operation of a lock after which those that asked are still served. -/
theorem Ordered.operate {op : FifoLock (Body γ) → FifoLock (Body γ) × List (Mark (Body γ))}
    (hop : ∀ {asked marks l}, Served asked marks l → Served asked (marks ++ (op l).2) (op l).1)
    {ibOrderId' : String} {lock : FifoLock (Body γ)} (hlock : c.orderLocks.value ibOrderId' = some lock)
    (h : Ordered ibOrderId c os) :
    Ordered ibOrderId (c.putOrderLock ibOrderId' (op lock)).1
      (os ++ (c.putOrderLock ibOrderId' (op lock)).2) := by
  by_cases hid : ibOrderId = ibOrderId'
  · subst hid
    obtain ⟨asked, hspawned, hserved⟩ := h
    have hget : c.getOrderLock ibOrderId = lock := by
      unfold Client.getOrderLock
      rw [hlock]
      rfl
    rw [hget] at hserved
    exact Ordered.put_self hspawned (hop hserved)
  · exact h.put_ne hid _

theorem Ordered.step (h : Ordered ibOrderId c os) (i : Input γ) :
    Ordered ibOrderId (c.step i).1 (os ++ (c.step i).2) := by
  cases i with
  | event e =>
    obtain ⟨asked, hspawned, hserved⟩ := h
    refine ⟨asked, ?_, ?_⟩
    · show spawnedFor ibOrderId (os ++ (c.handlers.handle e).2.map .spawned) =
        asked ++ (c.tasks ++ (c.handlers.handle e).2).filter (·.ibOrderId = ibOrderId)
      rw [spawnedFor_append, spawnedFor_spawned, hspawned, List.filter_append, List.append_assoc]
    · show Served asked (marksFor ibOrderId (os ++ (c.handlers.handle e).2.map .spawned)) _
      rw [marksFor_append, marksFor_spawned, List.append_nil]
      exact hserved
  | start =>
    unfold Client.step
    cases htasks : c.tasks with
    | nil => rwa [List.append_nil]
    | cons body tasks => exact h.dispatchOrdered htasks
  | finish ibOrderId' =>
    unfold Client.step
    dsimp only
    cases hlock : c.orderLocks.value ibOrderId' with
    | none => rwa [List.append_nil]
    | some lock => exact h.operate Served.release hlock
  | wake ibOrderId' =>
    unfold Client.step
    dsimp only
    cases hlock : c.orderLocks.value ibOrderId' with
    | none => rwa [List.append_nil]
    | some lock => exact h.operate Served.wake hlock

-- ============================================================================
-- Runs
-- ============================================================================

/-- The callbacks that the events bring to an order, with their arguments, in the order in
    which the events arrive.  A cancel that is verified arrives when its verification ends. -/
def arrivals (ibOrderId : String) : Handlers γ → List (Input γ) → List (Body γ)
  | _, [] => []
  | h, .event e :: inputs =>
    (h.handle e).2.filter (·.ibOrderId = ibOrderId) ++ arrivals ibOrderId (h.handle e).1 inputs
  | h, _ :: inputs => arrivals ibOrderId h inputs

/-- What is seen of the client over a run. -/
def outputs (inputs : List (Input γ)) : List (Output γ) := ((machine γ).trace {} inputs).map Prod.snd

/-- The loop neither creates tasks nor touches what the handlers keep. -/
theorem loop_handlers (c : Client γ) (ibOrderId : String) (i : Input γ) (h : ∀ e, i ≠ .event e) :
    (c.step i).1.handlers = c.handlers ∧ spawnedFor ibOrderId (c.step i).2 = [] := by
  cases i with
  | event e => exact absurd rfl (h e)
  | start =>
    unfold Client.step
    cases c.tasks with
    | nil => exact ⟨rfl, rfl⟩
    | cons body tasks => exact ⟨rfl, spawnedFor_ran _ _⟩
  | finish ibOrderId' =>
    unfold Client.step
    dsimp only
    cases c.orderLocks.value ibOrderId' with
    | none => exact ⟨rfl, rfl⟩
    | some lock => exact ⟨rfl, spawnedFor_ran _ _⟩
  | wake ibOrderId' =>
    unfold Client.step
    dsimp only
    cases c.orderLocks.value ibOrderId' with
    | none => exact ⟨rfl, rfl⟩
    | some lock => exact ⟨rfl, spawnedFor_ran _ _⟩

/-- The tasks of an order are what arrives for it, however the loop runs them. -/
theorem spawnedFor_trace (ibOrderId : String) (inputs : List (Input γ)) (c : Client γ) :
    spawnedFor ibOrderId (((machine γ).trace c inputs).map Prod.snd) = arrivals ibOrderId c.handlers inputs := by
  induction inputs generalizing c with
  | nil => rfl
  | cons i inputs ih =>
    have hemit : ((machine γ).emit c i).map (Prod.snd ∘ fun o => (i, o)) = (c.step i).2 := List.map_id _
    rw [Mealy.trace_cons, List.map_append, List.map_map, hemit, spawnedFor_append, ih]
    by_cases hevent : ∃ e, i = .event e
    · obtain ⟨e, rfl⟩ := hevent
      exact congrArg (· ++ _) (spawnedFor_spawned _)
    · have hloop := loop_handlers c ibOrderId i fun e he => hevent ⟨e, he⟩
      have hsame : arrivals ibOrderId c.handlers (i :: inputs) = arrivals ibOrderId c.handlers inputs := by
        cases i with
        | event e => exact absurd ⟨e, rfl⟩ hevent
        | start => rfl
        | finish => rfl
        | wake => rfl
      rw [hsame, hloop.2, List.nil_append]
      exact congrArg (arrivals ibOrderId · inputs) hloop.1

/-- The callbacks of an order run one at a time and in the order in which its events
    arrive, whatever else happens, and once nothing is left to do all of them have run. -/
theorem callbacks_inTurn (inputs : List (Input γ)) (ibOrderId : String) :
    InTurn (arrivals ibOrderId {} inputs) (marksFor ibOrderId (outputs inputs)) ∧
      (((machine γ).run {} inputs).Idle →
        marksFor ibOrderId (outputs inputs) = serial (arrivals ibOrderId {} inputs)) := by
  have hordered : Ordered ibOrderId ((machine γ).run {} inputs) (outputs inputs) :=
    (machine γ).run_history (fun _ _ i h => h.step i) inputs {} [] (Ordered.start ibOrderId)
  obtain ⟨asked, hspawned, hserved⟩ := hordered
  have harrivals : arrivals ibOrderId {} inputs = spawnedFor ibOrderId (outputs inputs) :=
    (spawnedFor_trace ibOrderId inputs {}).symm
  rw [harrivals]
  refine ⟨hserved.inTurn.mono ⟨_, hspawned.symm⟩, fun hidle => ?_⟩
  rw [hidle.tasks, List.filter_nil, List.append_nil] at hspawned
  rw [hspawned]
  exact hserved.all_ran (hidle.free ibOrderId).1 (hidle.free ibOrderId).2

end Seen

/-- An order's cancel, a fill that comes while it is verified, and the loop. -/
def filledWhileVerifying : List (Input String) :=
  [.event (.registerFillCallback "on_fill" (some "42")),
   .event (.registerStatusCallback "on_status" none),
   .event (.orderStatus { orderId := 42, event := { status := "Cancelled", permId := 7, filled := 0 } }),
   .event (.execDetails { orderId := 42, shares := 1, price := 6500 }),
   .start,
   .event (.verifyCancel "42" .gone),
   .start,
   .finish "42",
   .wake "42",
   .finish "42"]

/-- The fill came after the cancel, and its callback runs first: the callbacks do not run in
    the order in which IB delivered the two events. -/
theorem callbacks_inTurn_fails :
    marksFor "42" (outputs filledWhileVerifying) =
        serial [⟨"on_fill", "42", .fill 1 6500 0⟩, ⟨"on_status", "42", .status "Cancelled"⟩] ∧
      ¬ InTurn [⟨"on_status", "42", .status "Cancelled"⟩, ⟨"on_fill", "42", .fill 1 6500 0⟩]
        (marksFor "42" (outputs filledWhileVerifying)) := by
  have hmarks : marksFor "42" (outputs filledWhileVerifying) =
      serial [⟨"on_fill", "42", .fill 1 6500 0⟩, ⟨"on_status", "42", .status "Cancelled"⟩] := by
    decide +kernel
  refine ⟨hmarks, fun h => ?_⟩
  rw [hmarks] at h
  exact absurd (h.head?_eq (by decide)) (by decide)

end IbTrader.Ib.OrderedDispatch
