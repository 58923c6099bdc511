/-
  IbTrader.Ib.RefCounts

  What the references of a market-data subscription are worth.

  The references of a contract, with those that the tasks in flight will still make,
  are the counted subscriptions less those given back, and one for the ambient ones
  (`Counted`); more only where there are ambient ones.  So a contract that no task is
  about to subscribe to is streaming where somebody asked for it (`streaming_iff_held`).
  This takes that no entry is overwritten by one that was asked for before it came, that
  a pass drops as many references as it has written down, that what is given back is
  there, that the ambient calls do not come second and that requests go through
  (`Undisturbed`).
-/

import IbTrader.Ib.Subscriptions

namespace IbTrader.Ib

open Lib Lib.Coroutines

variable {κ : Type} [DecidableEq κ]

-- ============================================================================
-- Calls
-- ============================================================================

/-- Calls for market data, and passes that issue the subscriptions anew. -/
def Event.counts : Event κ → Bool
  | .call (.subscribeMarketData _ _) | .call (.unsubscribeMarketData _ _) | .call (.prophylacticResubscribeAll _) => true
  | .resume .. => true
  | _ => false

/-- What is given back has been counted. -/
def Paired (w : World κ) : Event κ → Prop
  | .call (.unsubscribeMarketData conId true) => w.unsubscribes conId < w.subscribes conId
  | _ => True

/-- A subscription finds no entry once it is through the throttle, and an entry is
    dropped with as many references as will be made again. -/
def Undisturbing (w : Client κ) (i : Instr κ) (is : List (Instr κ)) : Prop :=
  match i with
  | .create .marketData conId _ => w.entry .marketData conId = none
  | .drop .marketData conId => w.refs .marketData conId = owedRefs .marketData conId is
  | _ => True

/-- A request that fails was not made for market data. -/
def Spares (ok : Bool) (instrs : List (Instr κ)) : Prop :=
  requests instrs && !ok → ∀ i ∈ lost instrs, ∀ c ∈ i.contract, c.1 ≠ Feed.marketData

/-- A call that does not disturb the others. -/
def Undisturbed (w : World κ) : Event κ → Prop
  | .call (.subscribeMarketData conId false) => w.client.entry .marketData conId ≠ none → w.ambient conId
  | .call (.unsubscribeMarketData conId true) => w.client.entry .marketData conId ≠ none
  | .call c => Allowed Instr.run Undisturbing (c.start w.client).1 (c.start w.client).2
  | .resume i ok => ∀ t ∈ w.tasks[i]?, Spares ok t.instrs ∧
    Allowed Instr.run Undisturbing w.client (resumed ok t.instrs)
  | .disconnected => True

instance (w : World κ) : ∀ e, Decidable (Paired w e)
  | .call (.unsubscribeMarketData conId true) => inferInstanceAs (Decidable (w.unsubscribes conId < w.subscribes conId))
  | .call (.unsubscribeMarketData _ false) | .call (.subscribeMarketData ..) | .call (.subscribeRealtimeBars ..)
  | .call (.unsubscribeRealtimeBars _) | .call (.prophylacticResubscribeAll _) | .call .resubscribePending
  | .call (.resubscribeAll ..) | .call (.reconnect ..) | .disconnected | .resume .. => isTrue trivial

instance (w : Client κ) : ∀ i is, Decidable (Undisturbing w i is)
  | .create .marketData conId _, _ => inferInstanceAs (Decidable (w.entry .marketData conId = none))
  | .drop .marketData conId, is =>
    inferInstanceAs (Decidable (w.refs .marketData conId = owedRefs .marketData conId is))
  | .create .realtimeBars .., _ | .drop .realtimeBars .., _ | .subscribe .., _ | .unsubscribe .., _ | .sleep, _
  | .qualify, _ | .qualified, _ | .connect, _ | .connected, _ | .endItem, _ => isTrue trivial

instance (ok : Bool) (instrs : List (Instr κ)) : Decidable (Spares ok instrs) :=
  inferInstanceAs (Decidable (requests instrs && !ok → ∀ i ∈ lost instrs, ∀ c ∈ i.contract, c.1 ≠ Feed.marketData))

instance (w : World κ) : ∀ e, Decidable (Undisturbed w e)
  | .call (.subscribeMarketData conId false) =>
    inferInstanceAs (Decidable (w.client.entry .marketData conId ≠ none → w.ambient conId))
  | .call (.unsubscribeMarketData conId true) => inferInstanceAs (Decidable (w.client.entry .marketData conId ≠ none))
  | .call (.subscribeMarketData _ true) | .call (.unsubscribeMarketData _ false) | .call (.subscribeRealtimeBars ..)
  | .call (.unsubscribeRealtimeBars _) | .call (.prophylacticResubscribeAll _) | .call .resubscribePending
  | .call (.resubscribeAll ..) | .call (.reconnect ..) => decidableAllowed Instr.run _ _
  | .resume i ok => inferInstanceAs (Decidable (∀ t ∈ w.tasks[i]?, Spares ok t.instrs ∧
    Allowed Instr.run Undisturbing w.client (resumed ok t.instrs)))
  | .disconnected => isTrue trivial

/-- No task is about to subscribe to a contract. -/
def Settled (w : World κ) (conId : ℤ) : Prop := ∀ t ∈ w.tasks, owedRefs .marketData conId t.instrs = 0

instance (w : World κ) (conId : ℤ) : Decidable (Settled w conId) :=
  inferInstanceAs (Decidable (∀ t ∈ w.tasks, owedRefs .marketData conId t.instrs = 0))

-- ============================================================================
-- References
-- ============================================================================

section References

variable {w : World κ} {conId : ℤ}

/-- The references of a contract, with those that the tasks will make. -/
def World.references (w : World κ) (feed : Feed) (conId : ℤ) : ℕ :=
  w.client.refs feed conId + total (owedRefs feed conId) w.tasks

/-- An instruction that counts, as those of the tasks do. -/
def Instr.counted : Instr κ → Prop
  | .subscribe _ _ countRef _ => countRef
  | .unsubscribe _ _ => False
  | _ => True

/-- References are the subscriptions that have not been given back; with an ambient one
    there is one more, or more. -/
structure Covers (ambient : Bool) (subscribes unsubscribes references : ℕ) : Prop where
  paired : unsubscribes ≤ subscribes
  more : ambient → subscribes < references + unsubscribes
  same : ¬ ambient → subscribes = references + unsubscribes

section Covers

variable {ambient : Bool} {subscribes unsubscribes references : ℕ}

theorem Covers.subscribe (h : Covers ambient subscribes unsubscribes references) :
    Covers ambient (subscribes + 1) unsubscribes (references + 1) where
  paired := Nat.le_succ_of_le h.paired
  more hambient := by
    have hmore := h.more hambient
    omega
  same hambient := by
    have hsame := h.same hambient
    omega

theorem Covers.subscribeAmbient (h : Covers ambient subscribes unsubscribes references) :
    Covers true subscribes unsubscribes (references + 1) where
  paired := h.paired
  more _ := by
    by_cases hambient : ambient
    · have hmore := h.more hambient
      omega
    · have hsame := h.same hambient
      omega
  same hambient := absurd rfl hambient

theorem Covers.unsubscribe (h : Covers ambient subscribes unsubscribes (references + 1))
    (hpaired : unsubscribes < subscribes) : Covers ambient subscribes (unsubscribes + 1) references where
  paired := hpaired
  more hambient := by
    have hmore := h.more hambient
    omega
  same hambient := by
    have hsame := h.same hambient
    omega

/-- A reference is there where one has been asked for. -/
theorem Covers.pos_iff (h : Covers ambient subscribes unsubscribes references) :
    0 < references ↔ ambient ∨ unsubscribes < subscribes := by
  by_cases hambient : ambient
  · have hmore := h.more hambient
    have hpaired := h.paired
    simp only [hambient, true_or, iff_true]
    omega
  · have hsame := h.same hambient
    simp only [hambient, Bool.false_eq_true, false_or]
    omega

end Covers

/-- What waits counts, and the references are what has been asked for. -/
structure Counted (w : World κ) : Prop where
  tasks : ∀ t ∈ w.tasks, ∀ i ∈ t.instrs, i.counted
  covers : ∀ conId, Covers (w.ambient conId) (w.subscribes conId) (w.unsubscribes conId)
    (w.references .marketData conId)

theorem references_runTask {client : Client κ} {tasks : List (Task Progress (Instr κ))} {progress : Progress}
    {instrs : List (Instr κ)} {feed : Feed} (h : Allowed Instr.run (Conserves feed conId) client instrs) :
    (w.runTask client tasks progress instrs).references feed conId =
      client.refs feed conId + owedRefs feed conId instrs + total (owedRefs feed conId) tasks := by
  have hkept := refs_execute h
  have hrefs : (w.runTask client tasks progress instrs).references feed conId =
      (execute Instr.run client instrs).1.refs feed conId +
        total (owedRefs feed conId) (park tasks ⟨progress, (execute Instr.run client instrs).2⟩) := rfl
  rw [hrefs, total_park rfl]
  dsimp only
  omega

/-- Of the instructions that count those that do not disturb keep the references. -/
theorem conserves_of_undisturbing {client : Client κ} {instrs : List (Instr κ)} (hcounted : ∀ i ∈ instrs, i.counted)
    (h : Allowed Instr.run Undisturbing client instrs) (conId : ℤ) :
    Allowed Instr.run (Conserves .marketData conId) client instrs := by
  refine Allowed.mono instrs (fun i hi s is hP => ?_) h
  have hi := hcounted i hi
  cases i with
  | subscribe feed conId' countRef callbacks =>
    intro hcount
    rw [hcount] at hi
    exact absurd hi Bool.false_ne_true
  | create feed conId' callbacks =>
    rintro ⟨rfl, rfl⟩
    exact hP
  | drop feed conId' =>
    rintro ⟨rfl, rfl⟩
    exact hP
  | unsubscribe => exact hi.elim
  | _ => trivial

omit [DecidableEq κ] in
theorem counted_of_requests (j : Instr κ) (h : requests [j]) : j.counted := by
  cases j with
  | create | qualified | connected => trivial
  | _ => cases h

end References

-- ============================================================================
-- Steps
-- ============================================================================

section Steps

variable {w : World κ} {conId : ℤ}

/-- A call that counts. -/
theorem Counted.subscribe (h : Counted w) (hallowed : Undisturbed w (.call (.subscribeMarketData conId true))) :
    Counted (w.next (.call (.subscribeMarketData conId true))) := by
  have hinstrs : ∀ i ∈ [Instr.subscribe .marketData conId true ([] : List κ)], i.counted := by
    intro i hi
    rw [List.mem_singleton.mp hi]
    rfl
  refine ⟨forall_runTask counted_of_requests h.tasks hinstrs, fun c => ?_⟩
  have hrefs : (w.next (.call (.subscribeMarketData conId true))).references .marketData c = _ + _ + _ :=
    references_runTask (conserves_of_undisturbing hinstrs hallowed c)
  rw [hrefs, owedRefs, owedRefs]
  by_cases hc : c = conId
  · subst hc
    have hsubs : (w.next (.call (.subscribeMarketData c true))).subscribes c = w.subscribes c + 1 :=
      Function.update_self _ _ _
    rw [hsubs, if_pos ⟨rfl, rfl⟩, Nat.add_right_comm]
    exact (h.covers c).subscribe
  · have hsubs : (w.next (.call (.subscribeMarketData conId true))).subscribes c = w.subscribes c :=
      Function.update_of_ne hc _ _
    rw [hsubs, if_neg fun heq => hc heq.2]
    exact h.covers c

/-- An ambient call: where there is an entry, there was one before. -/
theorem Counted.subscribeAmbient (h : Counted w)
    (hallowed : Undisturbed w (.call (.subscribeMarketData conId false))) :
    Counted (w.next (.call (.subscribeMarketData conId false))) := by
  have hambient : ∀ c, (w.next (.call (.subscribeMarketData conId false))).ambient c =
      Function.update w.ambient conId true c := fun _ => rfl
  cases hentry : w.client.entry .marketData conId with
  | some e =>
    have hsame : w.ambient conId = true := hallowed (by rw [hentry]; exact Option.some_ne_none e)
    have hnext : w.next (.call (.subscribeMarketData conId false)) =
        { w with ambient := Function.update w.ambient conId true } := by
      simp [World.next, Call.start, World.runTask, execute, run_subscribe_some hentry, World.account, park]
    have hupdate : Function.update w.ambient conId true = w.ambient := by rw [← hsame, Function.update_eq_self]
    rw [hnext, hupdate]
    exact h
  | none =>
    have hnext : w.next (.call (.subscribeMarketData conId false)) =
        { w with ambient := Function.update w.ambient conId true
                 tasks := w.tasks ++ [⟨⟨false, false⟩, [.create .marketData conId []]⟩] } := by
      simp [World.next, Call.start, World.runTask, execute, run_subscribe_none hentry, World.account, park,
        Call.isPass]
    rw [hnext]
    refine ⟨?_, fun c => ?_⟩
    · intro t ht
      rcases List.mem_append.mp ht with hin | hlast
      · exact h.tasks t hin
      · rw [List.mem_singleton.mp hlast]
        intro i hi
        rw [List.mem_singleton.mp hi]
        trivial
    · have hrefs : w.client.refs .marketData c + total (owedRefs .marketData c)
          (w.tasks ++ [⟨⟨false, false⟩, [Instr.create .marketData conId []]⟩]) =
          w.references .marketData c + if c = conId then 1 else 0 := by
        simp [total, owedRefs, World.references, Nat.add_assoc]
      by_cases hc : c = conId
      · subst hc
        rw [if_pos rfl] at hrefs
        unfold World.references
        dsimp only
        rw [hrefs, Function.update_self]
        exact (h.covers c).subscribeAmbient
      · rw [if_neg hc] at hrefs
        unfold World.references
        dsimp only
        rw [hrefs, Function.update_of_ne hc]
        exact h.covers c

/-- A reference is given back. -/
theorem Counted.unsubscribe (h : Counted w) (hpaired : Paired w (.call (.unsubscribeMarketData conId true)))
    (hallowed : Undisturbed w (.call (.unsubscribeMarketData conId true))) :
    Counted (w.next (.call (.unsubscribeMarketData conId true))) := by
  obtain ⟨client, hrun, hrefs⟩ := run_unsubscribe w.client .marketData conId
  have hnext : w.next (.call (.unsubscribeMarketData conId true)) =
      { w with client, unsubscribes := Function.update w.unsubscribes conId (w.unsubscribes conId + 1) } := by
    simp [World.next, Call.start, World.runTask, execute, hrun, World.account, park]
  have hpos : w.client.refs .marketData conId ≠ 0 := fun hzero => hallowed (Client.refs_eq_zero.mp hzero)
  rw [hnext]
  refine ⟨h.tasks, fun c => ?_⟩
  have hcovers := h.covers c
  unfold World.references at hcovers ⊢
  dsimp only
  rw [hrefs]
  by_cases hc : c = conId
  · subst hc
    rw [if_pos ⟨rfl, rfl⟩, Function.update_self]
    refine Covers.unsubscribe ?_ hpaired
    rw [show w.client.refs .marketData c - 1 + total (owedRefs .marketData c) w.tasks + 1 =
      w.client.refs .marketData c + total (owedRefs .marketData c) w.tasks by omega]
    exact hcovers
  · rw [if_neg fun heq => hc heq.2, Function.update_of_ne hc]
    exact hcovers

omit [DecidableEq κ] in
/-- A pass drops each contract before it subscribes to it. -/
theorem owedRefs_resubscribe (stagger : Bool) (feed : Feed) (conId : ℤ) (is : List (Instr κ))
    (his : owedRefs .marketData conId is = 0) (items : List (ℤ × Entry κ)) :
    owedRefs .marketData conId (items.flatMap (resubscribeItem stagger feed) ++ is) = 0 := by
  induction items with
  | nil => exact his
  | cons item items ih =>
    simp only [List.flatMap_cons, resubscribeItem, List.cons_append, List.append_assoc, owedRefs]
    by_cases heq : Feed.marketData = feed ∧ conId = item.1
    · exact if_pos heq
    · rw [if_neg heq, owedRefs_restoreItem, if_neg heq, Nat.zero_add]
      cases stagger with
      | false => exact ih
      | true => exact ih

omit [DecidableEq κ] in
theorem counted_resubscribe (stagger : Bool) (feed : Feed) (item : ℤ × Entry κ) :
    ∀ i ∈ resubscribeItem stagger feed item, i.counted := by
  intro i hi
  simp only [resubscribeItem, restoreItem, List.mem_append, List.mem_cons, List.mem_replicate, List.mem_ite_nil_right,
    List.not_mem_nil, or_false] at hi
  rcases hi with (rfl | rfl | (rfl | ⟨-, rfl⟩) | rfl) | ⟨-, rfl⟩ <;> trivial

/-- A pass that issues the subscriptions anew. -/
theorem Counted.prophylactic {stagger : Bool} (h : Counted w)
    (hallowed : Undisturbed w (.call (.prophylacticResubscribeAll stagger))) :
    Counted (w.next (.call (.prophylacticResubscribeAll stagger))) := by
  have hinstrs : ∀ i ∈ inOrder fun feed => (w.client.subs feed).items.flatMap (resubscribeItem stagger feed), i.counted := by
    intro i hi
    rcases List.mem_append.mp hi with hmkt | hbars
    · obtain ⟨item, -, hitem⟩ := List.mem_flatMap.mp hmkt
      exact counted_resubscribe stagger .marketData item i hitem
    · obtain ⟨item, -, hitem⟩ := List.mem_flatMap.mp hbars
      exact counted_resubscribe stagger .realtimeBars item i hitem
  refine ⟨forall_runTask counted_of_requests h.tasks hinstrs, fun c => ?_⟩
  have hrefs : (w.next (.call (.prophylacticResubscribeAll stagger))).references .marketData c = _ + _ + _ :=
    references_runTask (conserves_of_undisturbing hinstrs hallowed c)
  have howed : owedRefs .marketData c
      (inOrder fun feed => (w.client.subs feed).items.flatMap (resubscribeItem stagger feed)) = 0 := by
    refine owedRefs_resubscribe stagger .marketData c _ ?_ _
    have hbars := owedRefs_resubscribe stagger .realtimeBars c [] rfl (w.client.subs .realtimeBars).items
    rw [List.append_nil] at hbars
    exact hbars
  rw [hrefs, howed, Nat.add_zero]
  exact h.covers c

theorem Spares.owedRefs {ok : Bool} {instrs : List (Instr κ)} (h : Spares ok instrs) (conId : ℤ) :
    owedRefs .marketData conId (resumed ok instrs) = owedRefs .marketData conId instrs := by
  unfold resumed
  split
  case isTrue hfails =>
    refine owedRefs_afterFailure ?_ fun i hi hc => h hfails i hi _ (contract_of_restored hc) rfl
    rintro i hi rfl
    exact h hfails _ hi _ rfl rfl
  case isFalse => rfl

/-- A task goes on. -/
theorem Counted.resume {i : ℕ} {ok : Bool} (h : Counted w) (hallowed : Undisturbed w (.resume i ok)) :
    Counted (w.next (.resume i ok)) := by
  cases hget : w.tasks[i]? with
  | none =>
    rw [World.next_resume_none hget]
    exact h
  | some t =>
    obtain ⟨hspares, hallowed⟩ := hallowed t hget
    have hinstrs : ∀ j ∈ resumed ok t.instrs, j.counted :=
      fun j hj => h.tasks t (List.mem_of_getElem? hget) j (mem_resumed hj)
    have hothers : ∀ u ∈ w.tasks.eraseIdx i, ∀ j ∈ u.instrs, j.counted :=
      fun u hu => h.tasks u (List.mem_of_mem_eraseIdx hu)
    rw [World.next_resume_some hget]
    refine ⟨forall_runTask counted_of_requests hothers hinstrs, fun c => ?_⟩
    rw [references_runTask (conserves_of_undisturbing hinstrs hallowed c), hspares.owedRefs]
    have htotal := total_eraseIdx (f := owedRefs .marketData c) hget
    have hrefs : w.references .marketData c = w.client.refs .marketData c + total (owedRefs .marketData c) w.tasks := rfl
    have hcovers := h.covers c
    rw [hrefs, htotal] at hcovers
    rw [Nat.add_assoc, Nat.add_comm (owedRefs _ _ _)]
    exact hcovers

end Steps

-- ============================================================================
-- Runs
-- ============================================================================

theorem counted_step (w : World κ) (e : Event κ) (h : Counted w)
    (hallowed : e.counts ∧ Paired w e ∧ Undisturbed w e) : Counted (w.next e) := by
  obtain ⟨hcounts, hpaired, hundisturbed⟩ := hallowed
  cases e with
  | call c =>
    cases c with
    | subscribeMarketData conId countRef =>
      cases countRef with
      | true => exact h.subscribe hundisturbed
      | false => exact h.subscribeAmbient hundisturbed
    | unsubscribeMarketData conId countRef =>
      cases countRef with
      | true => exact h.unsubscribe hpaired hundisturbed
      | false => exact h
    | prophylacticResubscribeAll stagger => exact h.prophylactic hundisturbed
    | _ => exact absurd hcounts Bool.false_ne_true
  | disconnected => exact absurd hcounts Bool.false_ne_true
  | resume i ok => exact h.resume hundisturbed

omit [DecidableEq κ] in
theorem counted_empty : Counted ({} : World κ) where
  tasks _ ht := absurd ht List.not_mem_nil
  covers _ := ⟨le_rfl, fun h => absurd h Bool.false_ne_true, fun _ => rfl⟩

/-- In a run whose calls do not disturb one another a contract that nobody is about to
    subscribe to is streaming where it has been asked for without counting, or oftener
    than it has been given back; and one that somebody is about to subscribe to has
    been asked for. -/
theorem streaming_iff_held (events : List (Event κ)) (hcounts : ∀ e ∈ events, e.counts)
    (hpaired : Along World.next Paired {} events) (hundisturbed : Along World.next Undisturbed {} events)
    (ran : List (Event κ)) (hran : ran <+: events) (conId : ℤ) :
    let w := World.after ({} : World κ) ran
    (Settled w conId → (w.client.entry .marketData conId ≠ none ↔
      w.ambient conId ∨ w.unsubscribes conId < w.subscribes conId)) ∧
    (¬ Settled w conId → w.ambient conId ∨ w.unsubscribes conId < w.subscribes conId) := by
  intro w
  obtain ⟨rest, rfl⟩ := hran
  have hbefore : ∀ e ∈ ran, e.counts := fun e he => hcounts e (List.mem_append_left rest he)
  have hallowed : Along World.next (fun w e => e.counts ∧ Paired w e ∧ Undisturbed w e) {} ran :=
    .and ran (.of_forall ran hbefore) (.and ran ((Along.append ran rest).mp hpaired).1
      ((Along.append ran rest).mp hundisturbed).1)
  have hcounted : Counted w := Along.invariant counted_step ran counted_empty hallowed
  have hpos := (hcounted.covers conId).pos_iff
  constructor
  · intro hsettled
    have hrefs : w.references .marketData conId = w.client.refs .marketData conId := by
      rw [World.references, total_eq_zero.mpr hsettled, Nat.add_zero]
    rw [← hpos, hrefs, Nat.pos_iff_ne_zero]
    exact (not_congr Client.refs_eq_zero).symm
  · intro hsettled
    rw [← hpos]
    by_contra hzero
    refine hsettled fun t ht => ?_
    have htotal : total (owedRefs .marketData conId) w.tasks = 0 := by
      unfold World.references at hzero
      omega
    exact total_eq_zero.mp htotal t ht

/-- A contract on the watchlist, a bot that trades it, and a pass in between. -/
theorem streaming_iff_held_watchlist :
    let w := World.after ({} : World Unit) [.call (.subscribeMarketData 7 false), .resume 0 true,
      .call (.subscribeMarketData 7 true), .call (.prophylacticResubscribeAll true), .resume 0 true, .resume 0 true,
      .call (.unsubscribeMarketData 7 true)]
    w.client.entry .marketData 7 ≠ none :=
  ((streaming_iff_held [.call (.subscribeMarketData 7 false), .resume 0 true, .call (.subscribeMarketData 7 true),
    .call (.prophylacticResubscribeAll true), .resume 0 true, .resume 0 true, .call (.unsubscribeMarketData 7 true)]
    (by decide) (by decide) (by decide) _ List.prefix_rfl 7).1 (by decide)).mpr (.inl (by decide))

/-- The bot subscribes while the watchlist does: its entry replaces the other, and goes
    with the reference that it gives back. -/
theorem streaming_iff_held_fails : ¬ ∀ (events : List (Event Unit)), (∀ e ∈ events, e.counts) →
    Along World.next Paired {} events → ∀ ran, ran <+: events → ∀ conId,
    let w := World.after ({} : World Unit) ran
    (Settled w conId → (w.client.entry .marketData conId ≠ none ↔
      w.ambient conId ∨ w.unsubscribes conId < w.subscribes conId)) ∧
    (¬ Settled w conId → w.ambient conId ∨ w.unsubscribes conId < w.subscribes conId) := by
  intro h
  have hrun := (h [.call (.subscribeMarketData 7 false), .call (.subscribeMarketData 7 true), .resume 0 true,
    .resume 0 true, .call (.unsubscribeMarketData 7 true)] (by decide) (by decide) _ List.prefix_rfl 7).1 (by decide)
  exact absurd (hrun.mpr (.inl (by decide))) (by decide)

end IbTrader.Ib
