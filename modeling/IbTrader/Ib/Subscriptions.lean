/-
  IbTrader.Ib.Subscriptions

  The bookkeeping of market-data and real-time-bar subscriptions
  (`ib_trader/ib/insync_client.py`), the passes that run after a reconnect
  (`_resubscribe_all_after_reconnect` in `ib_trader/engine/main.py`, `reconnect_ib` in
  `ib_trader/engine/ib_resilience.py`), and their interleavings.

  A call is the list of what it does between its awaits; it waits where it sleeps or is
  throttled, and the others go on.  An entry has a reference as long as it is there.
  Left out are the contracts, tickers and bars that an entry holds, the names under
  which IB is asked, and the upgrade of entries without enriched ticks, of which none
  is made.
-/

import IbTrader.Lib.Coroutines
import IbTrader.Lib.KeyedList
import IbTrader.Lib.Run

namespace IbTrader.Ib

open Lib Lib.Coroutines

-- ============================================================================
-- The client
-- ============================================================================

/-- `_streaming` and `_realtime_bars`. -/
inductive Feed
  | marketData
  | realtimeBars
  deriving DecidableEq, Repr

variable {κ : Type} [DecidableEq κ]

/-- An entry of either; only bars have callbacks. -/
structure Entry (κ : Type) where
  refs : ℕ
  pos : 0 < refs
  callbacks : List κ
  deriving DecidableEq

/-- Callbacks are added where they are not there yet. -/
def addCallbacks (callbacks added : List κ) : List κ :=
  added.foldl (fun cbs cb => if cb ∈ cbs then cbs else cbs ++ [cb]) callbacks

/-- The entry of a subscription that is made. -/
def Entry.first (callbacks : List κ) : Entry κ := ⟨1, Nat.one_pos, addCallbacks [] callbacks⟩

/-- One more reference. -/
def Entry.bump (e : Entry κ) (callbacks : List κ) : Entry κ :=
  ⟨e.refs + 1, Nat.succ_pos _, addCallbacks e.callbacks callbacks⟩

/-- One reference less; none where it was the last. -/
def Entry.release (e : Entry κ) : Option (Entry κ) :=
  if h : 1 < e.refs then some { e with refs := e.refs - 1, pos := Nat.sub_pos_of_lt h } else none

structure Client (κ : Type) where
  subs : Feed → Dict ℤ (Entry κ) := fun _ => ∅
  /-- `_pending_resub_streaming` and `_pending_resub_rt_bars`. -/
  pending : Feed → List (ℤ × Entry κ) := fun _ => []

namespace Client

/-- The entry of a contract. -/
def entry (w : Client κ) (feed : Feed) (conId : ℤ) : Option (Entry κ) := (w.subs feed).value conId

def put (w : Client κ) (feed : Feed) (conId : ℤ) (e : Entry κ) : Client κ :=
  { w with subs := Function.update w.subs feed ((w.subs feed).put conId e) }

def erase (w : Client κ) (feed : Feed) (conId : ℤ) : Client κ :=
  { w with subs := Function.update w.subs feed ((w.subs feed).erase conId) }

/-- `_on_disconnected`. -/
def disconnected (w : Client κ) : Client κ where
  subs _ := ∅
  pending feed := (w.subs feed).items

end Client

-- ============================================================================
-- Calls
-- ============================================================================

/-- What a call does from one await to the next. -/
inductive Instr (κ : Type)
  /-- `subscribe_market_data` and `subscribe_realtime_bars`, to the throttle. -/
  | subscribe (feed : Feed) (conId : ℤ) (countRef : Bool) (callbacks : List κ)
  /-- The rest of them, after the throttle. -/
  | create (feed : Feed) (conId : ℤ) (callbacks : List κ)
  /-- `unsubscribe_market_data` and `unsubscribe_realtime_bars`. -/
  | unsubscribe (feed : Feed) (conId : ℤ)
  /-- Cancel and drop the entry. -/
  | drop (feed : Feed) (conId : ℤ)
  | sleep
  /-- `qualify_contract`, and where it has answered. -/
  | qualify
  | qualified
  /-- `connect`, and where the socket is open. -/
  | connect
  | connected
  /-- Where a call goes on after a request that fails. -/
  | endItem
  deriving DecidableEq, Repr

def Instr.run (w : Client κ) : Instr κ → Next (Client κ) (Instr κ)
  | .subscribe feed conId countRef callbacks =>
    match w.entry feed conId with
    | some e => .go (if countRef then w.put feed conId (e.bump callbacks) else w)
    | none => .wait [.create feed conId callbacks]
  -- the entry is set whether or not one has come in the meantime
  | .create feed conId callbacks => .go (w.put feed conId (.first callbacks))
  | .unsubscribe feed conId =>
    match w.entry feed conId with
    | some e =>
      match e.release with
      | some e' => .go (w.put feed conId e')
      | none => .go (w.erase feed conId)
    | none => .go w
  | .drop feed conId => .go (w.erase feed conId)
  | .sleep => .wait []
  | .qualify => .wait [.qualified]
  | .connect => .wait [.connected]
  | .qualified | .connected | .endItem => .go w

/-- As many subscriptions as an entry had references; the callbacks after the first are
    attached before anything else can run. -/
def restoreItem (feed : Feed) (item : ℤ × Entry κ) : List (Instr κ) :=
  .subscribe feed item.1 true item.2.callbacks ::
    List.replicate (item.2.refs - 1) (.subscribe feed item.1 true []) ++ [.endItem]

/-- An entry is dropped and restored. -/
def resubscribeItem (stagger : Bool) (feed : Feed) (item : ℤ × Entry κ) : List (Instr κ) :=
  .drop feed item.1 :: .sleep :: restoreItem feed item ++ if stagger then [.sleep] else []

/-- Subscribed to without a reference of its own. -/
def watchlistItem (conId : ℤ) : List (Instr κ) := [.qualify, .subscribe .marketData conId false [], .endItem]

/-- A position is subscribed to even where its contract is not qualified. -/
def positionItem (conId : ℤ) : List (Instr κ) := [.sleep, .subscribe .marketData conId false [], .endItem]

/-- The watchlist, and once they have come the positions. -/
def ambientItems (watchlist positions : List ℤ) : List (Instr κ) :=
  watchlist.flatMap watchlistItem ++ .sleep :: positions.flatMap positionItem ++ [.endItem]

/-- The feeds in the order of the passes. -/
def inOrder (items : Feed → List (Instr κ)) : List (Instr κ) := items .marketData ++ items .realtimeBars

inductive Call (κ : Type)
  | subscribeMarketData (conId : ℤ) (countRef : Bool)
  | unsubscribeMarketData (conId : ℤ) (countRef : Bool)
  | subscribeRealtimeBars (conId : ℤ) (callbacks : List κ)
  | unsubscribeRealtimeBars (conId : ℤ)
  | prophylacticResubscribeAll (stagger : Bool)
  | resubscribePending
  /-- `_resubscribe_all_after_reconnect`. -/
  | resubscribeAll (watchlist positions : List ℤ)
  /-- `reconnect_ib`. -/
  | reconnect (watchlist positions : List ℤ)
  deriving DecidableEq, Repr

/-- What a call does before its first instruction, and its instructions. -/
def Call.start (w : Client κ) : Call κ → Client κ × List (Instr κ)
  | .subscribeMarketData conId countRef => (w, [.subscribe .marketData conId countRef []])
  | .unsubscribeMarketData conId countRef =>
    (w, if countRef then [.unsubscribe .marketData conId] else [])
  | .subscribeRealtimeBars conId callbacks => (w, [.subscribe .realtimeBars conId true callbacks])
  | .unsubscribeRealtimeBars conId => (w, [.unsubscribe .realtimeBars conId])
  | .prophylacticResubscribeAll stagger =>
    (w, inOrder fun feed => (w.subs feed).items.flatMap (resubscribeItem stagger feed))
  | .resubscribePending =>
    ({ w with pending := fun _ => [] }, inOrder fun feed => (w.pending feed).flatMap (restoreItem feed))
  | .resubscribeAll watchlist positions =>
    ({ w with pending := fun _ => [] },
      inOrder (fun feed => (w.pending feed).flatMap (restoreItem feed)) ++ .sleep :: ambientItems watchlist positions)
  -- that the socket is dropped is an event of its own
  | .reconnect watchlist positions => (w, .sleep :: .connect :: ambientItems watchlist positions)

/-- The passes that restore subscriptions. -/
def Call.isPass : Call κ → Bool
  | .resubscribePending | .resubscribeAll .. | .reconnect .. => true
  | _ => false

-- ============================================================================
-- Interleavings
-- ============================================================================

inductive Event (κ : Type)
  | call (c : Call κ)
  /-- The connection is lost. -/
  | disconnected
  /-- A task that waits goes on; the request that it waits for has gone through or not. -/
  | resume (task : ℕ) (ok : Bool)
  deriving DecidableEq, Repr

/-- What is remembered of a call that waits. -/
structure Progress where
  pass : Bool
  failed : Bool
  deriving DecidableEq, Repr

/-- The client, the calls that wait, and what has been asked for market data so far. -/
structure World (κ : Type) where
  client : Client κ := {}
  tasks : List (Task Progress (Instr κ)) := []
  ambient : ℤ → Bool := fun _ => false
  subscribes : ℤ → ℕ := fun _ => 0
  unsubscribes : ℤ → ℕ := fun _ => 0

/-- What is asked for market data. -/
def World.account (w : World κ) : Call κ → World κ
  | .subscribeMarketData conId false => { w with ambient := Function.update w.ambient conId true }
  | .subscribeMarketData conId true =>
    { w with subscribes := Function.update w.subscribes conId (w.subscribes conId + 1) }
  | .unsubscribeMarketData conId true =>
    { w with unsubscribes := Function.update w.unsubscribes conId (w.unsubscribes conId + 1) }
  | _ => w

/-- Run instructions and let what is left wait. -/
def World.runTask (w : World κ) (client : Client κ) (tasks : List (Task Progress (Instr κ)))
    (progress : Progress) (instrs : List (Instr κ)) : World κ :=
  let (client, rest) := execute Instr.run client instrs
  { w with client, tasks := park tasks ⟨progress, rest⟩ }

/-- A request has been made where a task goes on. -/
def requests : List (Instr κ) → Bool
  | .create .. :: _ | .qualified :: _ | .connected :: _ => true
  | _ => false

/-- What a call leaves out after a request that fails: the rest of the item, and all
    that it does where there is no connection. -/
def lost : List (Instr κ) → List (Instr κ)
  | .connected :: is => .connected :: is
  | is => is.takeWhile (· ≠ .endItem)

/-- What it goes on with. -/
def afterFailure : List (Instr κ) → List (Instr κ)
  | .connected :: _ => []
  | is => is.dropWhile (· ≠ .endItem)

/-- The instructions of a task that goes on. -/
def resumed (ok : Bool) (instrs : List (Instr κ)) : List (Instr κ) :=
  if requests instrs && !ok then afterFailure instrs else instrs

def World.next (w : World κ) : Event κ → World κ
  | .call c =>
    let (client, instrs) := c.start w.client
    (w.account c).runTask client w.tasks ⟨c.isPass, false⟩ instrs
  | .disconnected => { w with client := w.client.disconnected }
  | .resume i ok =>
    match w.tasks[i]? with
    | none => w
    | some t =>
      let failed := t.tag.failed || requests t.instrs && !ok
      w.runTask w.client (w.tasks.eraseIdx i) ⟨t.tag.pass, failed⟩ (resumed ok t.instrs)

/-- A run of events. -/
def World.after (w : World κ) (events : List (Event κ)) : World κ := events.foldl World.next w

-- ============================================================================
-- References
-- ============================================================================

section References

variable {κ : Type} {w w' : Client κ} {feed feed' : Feed} {conId conId' : ℤ} {e : Entry κ} {i : Instr κ}
  {is : List (Instr κ)}

theorem Client.entry_put (w : Client κ) (feed feed' : Feed) (conId conId' : ℤ) (e : Entry κ) :
    (w.put feed conId e).entry feed' conId' =
      if feed' = feed ∧ conId' = conId then some e else w.entry feed' conId' := by
  unfold Client.put Client.entry
  dsimp only
  by_cases hfeed : feed' = feed
  · subst hfeed
    rw [Function.update_self]
    by_cases hcon : conId' = conId
    · rw [hcon, Dict.value_put_self, if_pos ⟨rfl, rfl⟩]
    · rw [Dict.value_put_ne hcon, if_neg fun h => hcon h.2]
  · rw [Function.update_of_ne hfeed, if_neg fun h => hfeed h.1]

theorem Client.entry_erase (w : Client κ) (feed feed' : Feed) (conId conId' : ℤ) :
    (w.erase feed conId).entry feed' conId' =
      if feed' = feed ∧ conId' = conId then none else w.entry feed' conId' := by
  unfold Client.erase Client.entry
  dsimp only
  by_cases hfeed : feed' = feed
  · subst hfeed
    rw [Function.update_self, Dict.value_erase]
    by_cases hcon : conId' = conId
    · rw [if_pos hcon, if_pos ⟨rfl, hcon⟩]
    · rw [if_neg hcon, if_neg fun h => hcon h.2]
  · rw [Function.update_of_ne hfeed, if_neg fun h => hfeed h.1]

/-- The references of an entry; zero where there is none. -/
def Client.refs (w : Client κ) (feed : Feed) (conId : ℤ) : ℕ := ((w.entry feed conId).map Entry.refs).getD 0

theorem Client.refs_of_entry (h : w.entry feed conId = some e) : w.refs feed conId = e.refs := by
  rw [Client.refs, h, Option.map_some, Option.getD_some]

theorem Client.refs_eq_zero : w.refs feed conId = 0 ↔ w.entry feed conId = none := by
  unfold Client.refs
  cases w.entry feed conId with
  | none => simp
  | some e =>
    have hpos := e.pos
    simp only [Option.map_some, Option.getD_some, reduceCtorEq, iff_false]
    omega

theorem Client.refs_put (w : Client κ) (feed feed' : Feed) (conId conId' : ℤ) (e : Entry κ) :
    (w.put feed conId e).refs feed' conId' =
      if feed' = feed ∧ conId' = conId then e.refs else w.refs feed' conId' := by
  unfold Client.refs
  rw [Client.entry_put]
  split <;> rfl

theorem Client.refs_erase (w : Client κ) (feed feed' : Feed) (conId conId' : ℤ) :
    (w.erase feed conId).refs feed' conId' =
      if feed' = feed ∧ conId' = conId then 0 else w.refs feed' conId' := by
  unfold Client.refs
  rw [Client.entry_erase]
  split <;> rfl

/-- The contract that an instruction is about. -/
def Instr.contract : Instr κ → Option (Feed × ℤ)
  | .subscribe feed conId _ _ | .create feed conId _ | .unsubscribe feed conId | .drop feed conId => some (feed, conId)
  | _ => none

/-- The contract that an instruction makes a reference of. -/
def Instr.restored : Instr κ → Option (Feed × ℤ)
  | .subscribe feed conId true _ | .create feed conId _ => some (feed, conId)
  | _ => none

theorem contract_of_restored {c : Feed × ℤ} (h : i.restored = some c) : i.contract = some c := by
  cases i with
  | subscribe feed conId countRef callbacks =>
    cases countRef with
    | true => exact h
    | false => cases h
  | create => exact h
  | _ => cases h

/-- The references that a task will make, up to where it drops the entry. -/
def owedRefs (feed : Feed) (conId : ℤ) : List (Instr κ) → ℕ
  | [] => 0
  | .subscribe feed' conId' true _ :: is => (if feed = feed' ∧ conId = conId' then 1 else 0) + owedRefs feed conId is
  | .create feed' conId' _ :: is => (if feed = feed' ∧ conId = conId' then 1 else 0) + owedRefs feed conId is
  | .drop feed' conId' :: is => if feed = feed' ∧ conId = conId' then 0 else owedRefs feed conId is
  | _ :: is => owedRefs feed conId is

/-- An instruction that keeps the references of a contract, with those that its task
    will make: a subscription is made where there is none, as many are dropped as will
    be made again, none is given back, and one that does not count finds an entry. -/
def Conserves (feed : Feed) (conId : ℤ) (w : Client κ) (i : Instr κ) (is : List (Instr κ)) : Prop :=
  match i with
  | .create feed' conId' _ => feed = feed' ∧ conId = conId' → w.entry feed conId = none
  | .drop feed' conId' => feed = feed' ∧ conId = conId' → w.refs feed conId = owedRefs feed conId is
  | .unsubscribe feed' conId' => ¬ (feed = feed' ∧ conId = conId')
  | .subscribe feed' conId' countRef _ =>
    countRef = false → feed = feed' ∧ conId = conId' → w.entry feed conId ≠ none
  | _ => True

theorem owedRefs_append (is js : List (Instr κ)) (h : ∀ i ∈ is, i ≠ .drop feed conId) :
    owedRefs feed conId (is ++ js) = owedRefs feed conId is + owedRefs feed conId js := by
  induction is with
  | nil => exact (Nat.zero_add _).symm
  | cons i is ih =>
    obtain ⟨hi, his⟩ := List.forall_mem_cons.mp h
    have hrest := ih his
    cases i with
    | subscribe feed' conId' countRef callbacks =>
      cases countRef with
      | true =>
        simp only [List.cons_append, owedRefs, hrest]
        omega
      | false => simp only [List.cons_append, owedRefs, hrest]
    | create feed' conId' callbacks =>
      simp only [List.cons_append, owedRefs, hrest]
      omega
    | drop feed' conId' =>
      have hne : ¬ (feed = feed' ∧ conId = conId') := by
        rintro ⟨rfl, rfl⟩
        exact hi rfl
      simp only [List.cons_append, owedRefs, if_neg hne, hrest]
    | _ => exact hrest

theorem owedRefs_eq_zero (h : ∀ i ∈ is, i.restored ≠ some (feed, conId)) : owedRefs feed conId is = 0 := by
  induction is with
  | nil => rfl
  | cons i is ih =>
    obtain ⟨hi, his⟩ := List.forall_mem_cons.mp h
    have hrest := ih his
    have hne (feed' : Feed) (conId' : ℤ) (hc : i.restored = some (feed', conId')) : ¬ (feed = feed' ∧ conId = conId') := by
      rintro ⟨rfl, rfl⟩
      exact hi hc
    cases i with
    | subscribe feed' conId' countRef callbacks =>
      cases countRef with
      | true => rw [owedRefs, if_neg (hne feed' conId' rfl), hrest]
      | false => exact hrest
    | create feed' conId' callbacks => rw [owedRefs, if_neg (hne feed' conId' rfl), hrest]
    | drop feed' conId' =>
      rw [owedRefs, hrest]
      exact ite_self 0
    | _ => exact hrest

@[simp] theorem owedRefs_sleep (is : List (Instr κ)) : owedRefs feed conId (.sleep :: is) = owedRefs feed conId is := rfl

@[simp] theorem owedRefs_endItem (is : List (Instr κ)) :
    owedRefs feed conId (.endItem :: is) = owedRefs feed conId is := rfl

/-- The subscriptions after the first. -/
theorem owedRefs_replicate (feed feed' : Feed) (conId conId' : ℤ) (n : ℕ) (is : List (Instr κ)) :
    owedRefs feed conId (List.replicate n (.subscribe feed' conId' true []) ++ is) =
      (if feed = feed' ∧ conId = conId' then n else 0) + owedRefs feed conId is := by
  induction n with
  | zero => simp
  | succ n ih =>
    rw [List.replicate_succ, List.cons_append, owedRefs, ih]
    split <;> omega

/-- An entry is restored with the references that it had. -/
theorem owedRefs_restoreItem (feed feed' : Feed) (conId : ℤ) (item : ℤ × Entry κ) (is : List (Instr κ)) :
    owedRefs feed conId (restoreItem feed' item ++ is) =
      (if feed = feed' ∧ conId = item.1 then item.2.refs else 0) + owedRefs feed conId is := by
  have hpos := item.2.pos
  unfold restoreItem
  rw [List.cons_append, List.cons_append, owedRefs, List.append_assoc, owedRefs_replicate, List.singleton_append, owedRefs_endItem]
  split <;> omega

variable [DecidableEq κ]

theorem lost_append (is : List (Instr κ)) : lost is ++ afterFailure is = is := by
  unfold lost afterFailure
  split
  · exact List.append_nil _
  · exact List.takeWhile_append_dropWhile

/-- A request that fails loses no reference that its item does not make. -/
theorem owedRefs_afterFailure (hnot : ∀ i ∈ lost is, i ≠ .drop feed conId)
    (h : ∀ i ∈ lost is, i.restored ≠ some (feed, conId)) :
    owedRefs feed conId (afterFailure is) = owedRefs feed conId is := by
  calc owedRefs feed conId (afterFailure is)
      = owedRefs feed conId (lost is) + owedRefs feed conId (afterFailure is) := by
        rw [owedRefs_eq_zero h, Nat.zero_add]
    _ = owedRefs feed conId (lost is ++ afterFailure is) := (owedRefs_append _ _ hnot).symm
    _ = owedRefs feed conId is := by rw [lost_append]

theorem mem_of_mem_lost (h : i ∈ lost is) : i ∈ is := by
  rw [← lost_append is]
  exact List.mem_append_left _ h

theorem mem_resumed {ok : Bool} (h : i ∈ resumed ok is) : i ∈ is := by
  unfold resumed at h
  split at h
  · rw [← lost_append is]
    exact List.mem_append_right _ h
  · exact h

theorem run_subscribe_some (h : w.entry feed conId = some e) (countRef : Bool) (callbacks : List κ) :
    (Instr.subscribe feed conId countRef callbacks).run w =
      .go (if countRef then w.put feed conId (e.bump callbacks) else w) := by
  simp only [Instr.run, h]

theorem run_subscribe_none (h : w.entry feed conId = none) (countRef : Bool) (callbacks : List κ) :
    (Instr.subscribe feed conId countRef callbacks).run w = .wait [.create feed conId callbacks] := by
  simp only [Instr.run, h]

/-- A subscription goes on where there is an entry, -/
theorem entry_of_subscribe_go {countRef : Bool} {callbacks : List κ}
    (hrun : (Instr.subscribe feed conId countRef callbacks).run w = .go w') :
    ∃ e, w.entry feed conId = some e ∧ w' = if countRef then w.put feed conId (e.bump callbacks) else w := by
  cases hentry : w.entry feed conId with
  | none =>
    rw [run_subscribe_none hentry] at hrun
    cases hrun
  | some e =>
    rw [run_subscribe_some hentry] at hrun
    exact ⟨e, rfl, (Next.go.inj hrun).symm⟩

/-- and waits where there is none. -/
theorem entry_of_subscribe_wait {countRef : Bool} {callbacks : List κ} {first : List (Instr κ)}
    (hrun : (Instr.subscribe feed conId countRef callbacks).run w = .wait first) :
    w.entry feed conId = none ∧ first = [.create feed conId callbacks] := by
  cases hentry : w.entry feed conId with
  | none =>
    rw [run_subscribe_none hentry] at hrun
    exact ⟨rfl, (Next.wait.inj hrun).symm⟩
  | some e =>
    rw [run_subscribe_some hentry] at hrun
    cases hrun

/-- What is given back is one reference of the contract. -/
theorem run_unsubscribe (w : Client κ) (feed : Feed) (conId : ℤ) :
    ∃ w', (Instr.unsubscribe feed conId).run w = .go w' ∧ ∀ feed' conId', w'.refs feed' conId' =
      if feed' = feed ∧ conId' = conId then w.refs feed conId - 1 else w.refs feed' conId' := by
  cases hentry : w.entry feed conId with
  | none =>
    refine ⟨w, by simp only [Instr.run, hentry], fun feed' conId' => ?_⟩
    split
    case isTrue heq =>
      rw [heq.1, heq.2, Client.refs_eq_zero.mpr hentry]
    case isFalse => rfl
  | some e =>
    by_cases hlast : 1 < e.refs
    · refine ⟨w.put feed conId ⟨e.refs - 1, Nat.sub_pos_of_lt hlast, e.callbacks⟩,
        by simp only [Instr.run, hentry, Entry.release, hlast, dif_pos], fun feed' conId' => ?_⟩
      rw [Client.refs_put, Client.refs_of_entry hentry]
    · refine ⟨w.erase feed conId,
        by simp only [Instr.run, hentry, Entry.release, hlast, dif_neg, not_false_eq_true], fun feed' conId' => ?_⟩
      have hpos := e.pos
      rw [Client.refs_erase, Client.refs_of_entry hentry, show e.refs - 1 = 0 by omega]

theorem conserves_go (hrun : i.run w = .go w') (h : Conserves feed conId w i is) :
    w'.refs feed conId + owedRefs feed conId is = w.refs feed conId + owedRefs feed conId (i :: is) := by
  cases i with
  | subscribe feed' conId' countRef callbacks =>
    obtain ⟨e, hentry, rfl⟩ := entry_of_subscribe_go hrun
    cases countRef with
    | false => rfl
    | true =>
      rw [if_pos rfl, Client.refs_put, owedRefs]
      by_cases heq : feed = feed' ∧ conId = conId'
      · have hrefs := Client.refs_of_entry hentry
        have hbump : (e.bump callbacks).refs = e.refs + 1 := rfl
        rw [if_pos heq, if_pos heq, heq.1, heq.2, hrefs, hbump]
        omega
      · rw [if_neg heq, if_neg heq, Nat.zero_add]
  | create feed' conId' callbacks =>
    obtain rfl := Next.go.inj hrun
    rw [Client.refs_put, owedRefs]
    by_cases heq : feed = feed' ∧ conId = conId'
    · rw [if_pos heq, if_pos heq, Client.refs_eq_zero.mpr (h heq), Entry.first, Nat.zero_add]
    · rw [if_neg heq, if_neg heq, Nat.zero_add]
  | drop feed' conId' =>
    obtain rfl := Next.go.inj hrun
    rw [Client.refs_erase, owedRefs]
    by_cases heq : feed = feed' ∧ conId = conId'
    · have hrefs : w.refs feed conId = owedRefs feed conId is := h heq
      rw [if_pos heq, if_pos heq, hrefs, Nat.zero_add, Nat.add_zero]
    · rw [if_neg heq, if_neg heq]
  | unsubscribe feed' conId' =>
    obtain ⟨w₁, hw₁, hrefs⟩ := run_unsubscribe w feed' conId'
    obtain rfl := Next.go.inj (hw₁.symm.trans hrun)
    rw [hrefs, if_neg h]
    rfl
  | sleep | qualify | connect => cases hrun
  | qualified | connected | endItem =>
    obtain rfl := Next.go.inj hrun
    rfl

theorem conserves_wait {first : List (Instr κ)} (hrun : i.run w = .wait first) (h : Conserves feed conId w i is) :
    owedRefs feed conId (first ++ is) = owedRefs feed conId (i :: is) := by
  cases i with
  | subscribe feed' conId' countRef callbacks =>
    obtain ⟨hentry, rfl⟩ := entry_of_subscribe_wait hrun
    cases countRef with
    | true => rfl
    | false =>
      have hne : ¬ (feed = feed' ∧ conId = conId') := by
        rintro ⟨rfl, rfl⟩
        exact h rfl ⟨rfl, rfl⟩ hentry
      rw [List.singleton_append, owedRefs, if_neg hne, Nat.zero_add]
      rfl
  | sleep | qualify | connect =>
    obtain rfl := Next.wait.inj hrun
    rfl
  | create | drop | qualified | connected | endItem => cases hrun
  | unsubscribe feed' conId' =>
    obtain ⟨w₁, hw₁, -⟩ := run_unsubscribe w feed' conId'
    cases hw₁.symm.trans hrun

/-- What an instruction waits with is a request. -/
theorem requests_of_wait {first : List (Instr κ)} {j : Instr κ} (hrun : i.run w = .wait first) (hj : j ∈ first) :
    requests [j] := by
  cases i with
  | subscribe feed conId countRef callbacks =>
    obtain ⟨-, rfl⟩ := entry_of_subscribe_wait hrun
    rw [List.mem_singleton.mp hj]
    rfl
  | sleep =>
    obtain rfl := Next.wait.inj hrun
    exact absurd hj List.not_mem_nil
  | qualify | connect =>
    obtain rfl := Next.wait.inj hrun
    rw [List.mem_singleton.mp hj]
    rfl
  | create | drop | qualified | connected | endItem => cases hrun
  | unsubscribe feed conId =>
    obtain ⟨w₁, hw₁, -⟩ := run_unsubscribe w feed conId
    cases hw₁.symm.trans hrun

/-- A task keeps the references, with those that it will make. -/
theorem refs_execute (h : Allowed Instr.run (Conserves feed conId) w is) :
    (execute Instr.run w is).1.refs feed conId + owedRefs feed conId (execute Instr.run w is).2 =
      w.refs feed conId + owedRefs feed conId is := by
  refine execute_invariant (I := fun s js => s.refs feed conId + owedRefs feed conId js =
    w.refs feed conId + owedRefs feed conId is) ?_ ?_ is h rfl
  · intro s i js s' hrun hP hI
    rw [conserves_go hrun hP, hI]
  · intro s i js first hrun hP hI
    rw [conserves_wait hrun hP, hI]

end References

-- ============================================================================
-- Events
-- ============================================================================

section Events

variable {κ : Type} [DecidableEq κ] {w : World κ} {client : Client κ} {tasks : List (Task Progress (Instr κ))}
  {instrs : List (Instr κ)}

theorem World.next_resume_none {i : ℕ} (hget : w.tasks[i]? = none) (ok : Bool) : w.next (.resume i ok) = w := by
  simp only [World.next, hget]

theorem World.next_resume_some {i : ℕ} {t : Task Progress (Instr κ)} (hget : w.tasks[i]? = some t) (ok : Bool) :
    w.next (.resume i ok) = w.runTask w.client (w.tasks.eraseIdx i)
      ⟨t.tag.pass, t.tag.failed || requests t.instrs && !ok⟩ (resumed ok t.instrs) := by
  simp only [World.next, hget]

/-- What holds of every request, and of the instructions that are there, holds of what waits. -/
theorem forall_runTask {Q : Instr κ → Prop} {progress : Progress} (hrequests : ∀ j, requests [j] → Q j)
    (htasks : ∀ t ∈ tasks, ∀ i ∈ t.instrs, Q i) (hinstrs : ∀ i ∈ instrs, Q i) :
    ∀ t ∈ (w.runTask client tasks progress instrs).tasks, ∀ i ∈ t.instrs, Q i := by
  have hwait : ∀ s i first, Instr.run s i = .wait first → Q i → ∀ j ∈ first, Q j :=
    fun s i first hrun _ j hj => hrequests j (requests_of_wait hrun hj)
  intro t ht
  rcases mem_park ht with hin | rfl
  · exact htasks t hin
  · exact execute_forall hwait instrs hinstrs

end Events

end IbTrader.Ib
