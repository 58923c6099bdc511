/-
  IbTrader.Ib.Reconnects

  What becomes of the subscriptions after the connection is lost.

  The references of each contract that was streaming are in the entry, in what is
  pending and in what the tasks have still to restore, and so are its callbacks
  (`Held`).  What is pending is lost where the connection is lost again before it is
  replayed, and references come in where the contract is subscribed to on its own before
  it is restored; a run without that (`Unharmed`) has restored everything when a pass
  completes and nothing is left to restore (`subscriptions_survive`).
-/

import IbTrader.Ib.Subscriptions

namespace IbTrader.Ib

open Lib Lib.Coroutines

-- ============================================================================
-- Callbacks
-- ============================================================================

section Callbacks

variable {κ : Type} {w w' : Client κ} {feed : Feed} {conId : ℤ} {e : Entry κ} {i : Instr κ} {is : List (Instr κ)}
  {cb : κ}

/-- The callbacks of an entry; none where there is no entry. -/
def Client.callbacks (w : Client κ) (feed : Feed) (conId : ℤ) : List κ :=
  ((w.entry feed conId).map Entry.callbacks).getD []

theorem Client.callbacks_of_entry (h : w.entry feed conId = some e) : w.callbacks feed conId = e.callbacks := by
  rw [Client.callbacks, h, Option.map_some, Option.getD_some]

theorem Client.callbacks_of_none (h : w.entry feed conId = none) : w.callbacks feed conId = [] := by
  rw [Client.callbacks, h]
  rfl

theorem Client.callbacks_put (w : Client κ) (feed feed' : Feed) (conId conId' : ℤ) (e : Entry κ) :
    (w.put feed conId e).callbacks feed' conId' =
      if feed' = feed ∧ conId' = conId then e.callbacks else w.callbacks feed' conId' := by
  unfold Client.callbacks
  rw [Client.entry_put]
  split <;> rfl

/-- The callbacks that an instruction will attach to the entry of a contract. -/
def Instr.attaches (feed : Feed) (conId : ℤ) : Instr κ → List κ
  | .subscribe feed' conId' true callbacks => if feed = feed' ∧ conId = conId' then callbacks else []
  | .create feed' conId' callbacks => if feed = feed' ∧ conId = conId' then callbacks else []
  | _ => []

/-- The callbacks that a task will attach. -/
def owedCallbacks (feed : Feed) (conId : ℤ) (is : List (Instr κ)) : List κ := is.flatMap (Instr.attaches feed conId)

theorem owedCallbacks_cons (i : Instr κ) (is : List (Instr κ)) :
    owedCallbacks feed conId (i :: is) = i.attaches feed conId ++ owedCallbacks feed conId is := List.flatMap_cons

theorem owedCallbacks_append (is js : List (Instr κ)) :
    owedCallbacks feed conId (is ++ js) = owedCallbacks feed conId is ++ owedCallbacks feed conId js :=
  List.flatMap_append

theorem attaches_eq_nil (h : i.restored ≠ some (feed, conId)) : i.attaches feed conId = [] := by
  have hne (feed' : Feed) (conId' : ℤ) (hc : i.restored = some (feed', conId')) : ¬ (feed = feed' ∧ conId = conId') := by
    rintro ⟨rfl, rfl⟩
    exact h hc
  cases i with
  | subscribe feed' conId' countRef callbacks =>
    cases countRef with
    | true => exact if_neg (hne feed' conId' rfl)
    | false => rfl
  | create feed' conId' callbacks => exact if_neg (hne feed' conId' rfl)
  | _ => rfl

theorem owedCallbacks_eq_nil (h : ∀ i ∈ is, i.restored ≠ some (feed, conId)) : owedCallbacks feed conId is = [] :=
  List.flatMap_eq_nil_iff.mpr fun i hi => attaches_eq_nil (h i hi)

/-- An entry is restored with the callbacks that it had. -/
theorem mem_owedCallbacks_restoreItem (feed' : Feed) (item : ℤ × Entry κ) :
    cb ∈ owedCallbacks feed conId (restoreItem feed' item) ↔
      (feed = feed' ∧ conId = item.1) ∧ cb ∈ item.2.callbacks := by
  have hrest : owedCallbacks feed conId (List.replicate (item.2.refs - 1) (.subscribe feed' item.1 true []) ++ [.endItem]) =
      ([] : List κ) := by
    refine List.flatMap_eq_nil_iff.mpr fun i hi => ?_
    rcases List.mem_append.mp hi with hmem | hlast
    · rw [List.eq_of_mem_replicate hmem]
      exact ite_self _
    · rw [List.mem_singleton.mp hlast]
      rfl
  unfold restoreItem
  rw [List.cons_append, owedCallbacks_cons, hrest, List.append_nil, Instr.attaches]
  split
  case isTrue h => exact (and_iff_right h).symm
  case isFalse h => exact iff_of_false List.not_mem_nil fun hcb => h hcb.1

variable [DecidableEq κ]

theorem mem_addCallbacks (added : List κ) :
    ∀ {callbacks : List κ}, cb ∈ addCallbacks callbacks added ↔ cb ∈ callbacks ∨ cb ∈ added := by
  induction added with
  | nil => simp [addCallbacks]
  | cons a added ih =>
    intro callbacks
    have hfold : addCallbacks callbacks (a :: added) =
        addCallbacks (if a ∈ callbacks then callbacks else callbacks ++ [a]) added := rfl
    rw [hfold, ih, List.mem_cons]
    split
    case isTrue h =>
      constructor
      · rintro (hcb | hcb)
        · exact .inl hcb
        · exact .inr (.inr hcb)
      · rintro (hcb | rfl | hcb)
        · exact .inl hcb
        · exact .inl h
        · exact .inr hcb
    case isFalse => rw [List.mem_append, List.mem_singleton, or_assoc]

/-- An instruction of a pass, which gives back and drops nothing. -/
def Instr.restores : Instr κ → Prop
  | .unsubscribe .. | .drop .. => False
  | _ => True

theorem attached_go (hrun : i.run w = .go w') (hrestores : i.restores) (h : Conserves feed conId w i is) :
    cb ∈ w'.callbacks feed conId ++ owedCallbacks feed conId is ↔
      cb ∈ w.callbacks feed conId ++ owedCallbacks feed conId (i :: is) := by
  rw [owedCallbacks_cons, List.mem_append, List.mem_append, List.mem_append, ← or_assoc]
  refine or_congr_left ?_
  cases i with
  | subscribe feed' conId' countRef callbacks =>
    obtain ⟨e, hentry, rfl⟩ := entry_of_subscribe_go hrun
    cases countRef with
    | false => exact (or_iff_left List.not_mem_nil).symm
    | true =>
      rw [if_pos rfl, Client.callbacks_put, Instr.attaches]
      by_cases heq : feed = feed' ∧ conId = conId'
      · have hmem : cb ∈ (e.bump callbacks).callbacks ↔ cb ∈ e.callbacks ∨ cb ∈ callbacks := mem_addCallbacks callbacks
        rw [if_pos heq, if_pos heq, heq.1, heq.2, Client.callbacks_of_entry hentry, hmem]
      · rw [if_neg heq, if_neg heq, or_iff_left List.not_mem_nil]
  | create feed' conId' callbacks =>
    obtain rfl := Next.go.inj hrun
    rw [Client.callbacks_put, Instr.attaches]
    by_cases heq : feed = feed' ∧ conId = conId'
    · have hmem : cb ∈ (Entry.first callbacks).callbacks ↔ cb ∈ [] ∨ cb ∈ callbacks := mem_addCallbacks callbacks
      rw [if_pos heq, if_pos heq, Client.callbacks_of_none (h heq), hmem]
    · rw [if_neg heq, if_neg heq, or_iff_left List.not_mem_nil]
  | drop | unsubscribe => exact hrestores.elim
  | sleep | qualify | connect => cases hrun
  | qualified | connected | endItem =>
    obtain rfl := Next.go.inj hrun
    exact (or_iff_left List.not_mem_nil).symm

theorem attached_wait {first : List (Instr κ)} (hrun : i.run w = .wait first) (hrestores : i.restores)
    (h : Conserves feed conId w i is) :
    cb ∈ owedCallbacks feed conId (first ++ is) ↔ cb ∈ owedCallbacks feed conId (i :: is) := by
  cases i with
  | subscribe feed' conId' countRef callbacks =>
    obtain ⟨hentry, rfl⟩ := entry_of_subscribe_wait hrun
    cases countRef with
    | true => rfl
    | false =>
      have hne : ¬ (feed = feed' ∧ conId = conId') := by
        rintro ⟨rfl, rfl⟩
        exact h rfl ⟨rfl, rfl⟩ hentry
      rw [List.singleton_append, owedCallbacks_cons, owedCallbacks_cons, Instr.attaches, if_neg hne]
      rfl
  | sleep | qualify | connect =>
    obtain rfl := Next.wait.inj hrun
    rfl
  | create | qualified | connected | endItem => cases hrun
  | drop | unsubscribe => exact hrestores.elim

/-- A task keeps the callbacks, with those that it will attach. -/
theorem callbacks_execute (hrestores : ∀ i ∈ is, i.restores) (h : Allowed Instr.run (Conserves feed conId) w is) :
    cb ∈ (execute Instr.run w is).1.callbacks feed conId ++ owedCallbacks feed conId (execute Instr.run w is).2 ↔
      cb ∈ w.callbacks feed conId ++ owedCallbacks feed conId is := by
  have hboth : Allowed Instr.run (fun s i js => i.restores ∧ Conserves feed conId s i js) w is :=
    Allowed.mono is (fun i hi s js hP => ⟨hrestores i hi, hP⟩) h
  refine execute_invariant (I := fun s js => cb ∈ s.callbacks feed conId ++ owedCallbacks feed conId js ↔
    cb ∈ w.callbacks feed conId ++ owedCallbacks feed conId is) ?_ ?_ is hboth Iff.rfl
  · intro s i js s' hrun hP hI
    rw [attached_go hrun hP.1 hP.2, hI]
  · intro s i js first hrun hP hI
    rw [List.mem_append, attached_wait hrun hP.1 hP.2, ← List.mem_append, hI]

omit [DecidableEq κ] in
theorem restores_of_requests (j : Instr κ) (h : requests [j]) : j.restores := by
  cases j with
  | create | qualified | connected => trivial
  | _ => cases h

theorem pending_go (hrun : i.run w = .go w') : w'.pending = w.pending := by
  cases i with
  | subscribe feed conId countRef callbacks =>
    obtain ⟨e, -, rfl⟩ := entry_of_subscribe_go hrun
    cases countRef <;> rfl
  | unsubscribe feed conId =>
    unfold Instr.run at hrun
    dsimp only at hrun
    split at hrun
    · split at hrun <;> obtain rfl := Next.go.inj hrun <;> rfl
    · obtain rfl := Next.go.inj hrun
      rfl
  | sleep | qualify | connect => cases hrun
  | create | drop | qualified | connected | endItem =>
    obtain rfl := Next.go.inj hrun
    rfl

/-- A task leaves what is pending. -/
theorem pending_execute (is : List (Instr κ)) : ∀ {w : Client κ}, (execute Instr.run w is).1.pending = w.pending := by
  induction is with
  | nil => exact rfl
  | cons i is ih =>
    intro w
    unfold execute
    cases hrun : i.run w with
    | go w' => exact ih.trans (pending_go hrun)
    | wait first => rfl

end Callbacks

-- ============================================================================
-- What is pending
-- ============================================================================

section Replay

variable {κ : Type} {feed feed' : Feed} {conId : ℤ} {e : Entry κ} {cb : κ}

/-- What `resubscribe_pending` runs. -/
def Client.replay (w : Client κ) : List (Instr κ) := inOrder fun feed => (w.pending feed).flatMap (restoreItem feed)

theorem restores_restoreItem (feed : Feed) (item : ℤ × Entry κ) : ∀ i ∈ restoreItem feed item, i.restores := by
  intro i hi
  simp only [restoreItem, List.mem_append, List.mem_cons, List.mem_replicate, List.not_mem_nil, or_false] at hi
  rcases hi with (rfl | ⟨-, rfl⟩) | rfl <;> trivial

theorem restores_replay (w : Client κ) : ∀ i ∈ w.replay, i.restores := by
  intro i hi
  rcases List.mem_append.mp hi with hmkt | hbars
  · obtain ⟨item, -, hitem⟩ := List.mem_flatMap.mp hmkt
    exact restores_restoreItem .marketData item i hitem
  · obtain ⟨item, -, hitem⟩ := List.mem_flatMap.mp hbars
    exact restores_restoreItem .realtimeBars item i hitem

theorem ne_drop_of_restores {i : Instr κ} (h : i.restores) : i ≠ .drop feed conId := by
  rintro rfl
  exact h

/-- What restores the entries of a dictionary makes the references that they had. -/
theorem owedRefs_restore_of_not_mem (items : List (ℤ × Entry κ)) (h : feed = feed' → conId ∉ items.map Prod.fst) :
    owedRefs feed conId (items.flatMap (restoreItem feed')) = 0 := by
  induction items with
  | nil => rfl
  | cons item items ih =>
    have hne : ¬ (feed = feed' ∧ conId = item.1) := by
      rintro ⟨hfeed, rfl⟩
      exact h hfeed List.mem_cons_self
    have hrest := ih fun hfeed hmem => h hfeed (List.mem_cons_of_mem _ hmem)
    rw [List.flatMap_cons, owedRefs_restoreItem, if_neg hne, hrest]

theorem owedRefs_restore_of_mem (items : List (ℤ × Entry κ)) (hunique : (items.map Prod.fst).Nodup)
    (h : (conId, e) ∈ items) : owedRefs feed conId (items.flatMap (restoreItem feed)) = e.refs := by
  induction items with
  | nil => exact absurd h List.not_mem_nil
  | cons item items ih =>
    rw [List.map_cons, List.nodup_cons] at hunique
    rw [List.flatMap_cons, owedRefs_restoreItem]
    rcases List.mem_cons.mp h with rfl | hin
    · rw [if_pos ⟨rfl, rfl⟩, owedRefs_restore_of_not_mem items fun _ => hunique.1, Nat.add_zero]
    · have hne : ¬ (feed = feed ∧ conId = item.1) := by
        rintro ⟨-, rfl⟩
        exact hunique.1 (List.mem_map.mpr ⟨(item.1, e), hin, rfl⟩)
      rw [if_neg hne, Nat.zero_add]
      exact ih hunique.2 hin

theorem owedRefs_inOrder {items : Feed → List (Instr κ)} (h : ∀ feed, ∀ i ∈ items feed, i.restores)
    (hother : ∀ feed', feed' ≠ feed → owedRefs feed conId (items feed') = 0) :
    owedRefs feed conId (inOrder items) = owedRefs feed conId (items feed) := by
  unfold inOrder
  rw [owedRefs_append _ _ fun i hi => ne_drop_of_restores (h .marketData i hi)]
  cases feed with
  | marketData => rw [hother .realtimeBars Feed.noConfusion, Nat.add_zero]
  | realtimeBars => rw [hother .marketData Feed.noConfusion, Nat.zero_add]

/-- After the connection is lost the references are pending. -/
theorem owedRefs_replay_disconnected (w : Client κ) (feed : Feed) (conId : ℤ) :
    owedRefs feed conId w.disconnected.replay = w.refs feed conId := by
  unfold Client.replay Client.disconnected
  dsimp only
  rw [owedRefs_inOrder]
  · cases hentry : w.entry feed conId with
    | none =>
      rw [Client.refs_eq_zero.mpr hentry]
      exact owedRefs_restore_of_not_mem _ fun _ => Dict.value_eq_none.mp hentry
    | some e =>
      rw [Client.refs_of_entry hentry]
      exact owedRefs_restore_of_mem _ (w.subs feed).unique (Dict.value_eq_some.mp hentry)
  · intro feed i hi
    obtain ⟨item, -, hitem⟩ := List.mem_flatMap.mp hi
    exact restores_restoreItem feed item i hitem
  · exact fun feed' hne => owedRefs_restore_of_not_mem _ fun heq => absurd heq.symm hne

theorem mem_owedCallbacks_restore (items : List (ℤ × Entry κ)) :
    cb ∈ owedCallbacks feed conId (items.flatMap (restoreItem feed')) ↔
      feed = feed' ∧ ∃ e, (conId, e) ∈ items ∧ cb ∈ e.callbacks := by
  have hassoc : owedCallbacks feed conId (items.flatMap (restoreItem feed')) =
      items.flatMap fun item => owedCallbacks feed conId (restoreItem feed' item) := List.flatMap_assoc
  rw [hassoc, List.mem_flatMap]
  simp only [mem_owedCallbacks_restoreItem]
  constructor
  · rintro ⟨⟨conId', e⟩, hitem, ⟨hfeed, rfl⟩, hcb⟩
    exact ⟨hfeed, e, hitem, hcb⟩
  · rintro ⟨hfeed, e, hitem, hcb⟩
    exact ⟨(conId, e), hitem, ⟨hfeed, rfl⟩, hcb⟩

/-- And so are the callbacks. -/
theorem mem_owedCallbacks_replay_disconnected (w : Client κ) (feed : Feed) (conId : ℤ) :
    cb ∈ owedCallbacks feed conId w.disconnected.replay ↔ cb ∈ w.callbacks feed conId := by
  have hreplay : cb ∈ owedCallbacks feed conId w.disconnected.replay ↔
      ∃ e, (conId, e) ∈ (w.subs feed).items ∧ cb ∈ e.callbacks := by
    unfold Client.replay inOrder
    rw [owedCallbacks_append, List.mem_append, mem_owedCallbacks_restore, mem_owedCallbacks_restore]
    cases feed <;> simp [Client.disconnected]
  rw [hreplay]
  cases hentry : w.entry feed conId with
  | none =>
    have hnone : conId ∉ (w.subs feed).items.map Prod.fst := Dict.value_eq_none.mp hentry
    rw [Client.callbacks_of_none hentry]
    refine iff_of_false ?_ List.not_mem_nil
    rintro ⟨e, hmem, -⟩
    exact hnone (List.mem_map.mpr ⟨(conId, e), hmem, rfl⟩)
  | some e =>
    rw [Client.callbacks_of_entry hentry]
    constructor
    · rintro ⟨e', hmem, hcb⟩
      have hsame : w.entry feed conId = some e' := Dict.value_eq_some.mpr hmem
      obtain rfl := Option.some.inj (hentry.symm.trans hsame)
      exact hcb
    · exact fun hcb => ⟨e, Dict.value_eq_some.mp hentry, hcb⟩

end Replay

-- ============================================================================
-- What is held
-- ============================================================================

variable {κ : Type}

/-- Lost connections, passes, and the ambient calls that come in between. -/
def Event.reconnects : Event κ → Bool
  | .disconnected | .resume .. => true
  | .call c => c.isPass || c matches .subscribeMarketData _ false

/-- Every entry is there again, with its references and its callbacks. -/
def Restored (old : Feed → ℤ → Option (Entry κ)) (w : Client κ) : Prop :=
  ∀ feed conId e, old feed conId = some e →
    ∃ e', w.entry feed conId = some e' ∧ e'.refs = e.refs ∧ ∀ cb, cb ∈ e'.callbacks ↔ cb ∈ e.callbacks

section Conditions

variable (old : Feed → ℤ → Option (Entry κ))

/-- None of the old entries is restored by the instructions. -/
def Spent (is : List (Instr κ)) : Prop := ∀ i ∈ is, ∀ c ∈ i.restored, old c.1 c.2 = none

/-- No old entry is pending or with a task. -/
def Cleared (w : Client κ) (tasks : List (Task Progress (Instr κ))) : Prop :=
  Spent old w.replay ∧ ∀ t ∈ tasks, Spent old t.instrs

end Conditions

/-- The references and callbacks of an entry are those that are there, those that are
    pending, and those that instructions and tasks have still to restore. -/
structure Held (e : Entry κ) (feed : Feed) (conId : ℤ) (client : Client κ) (tasks : List (Task Progress (Instr κ)))
    (instrs : List (Instr κ)) : Prop where
  refs : client.refs feed conId + owedRefs feed conId client.replay + owedRefs feed conId instrs +
    total (owedRefs feed conId) tasks = e.refs
  callbacks : ∀ cb, cb ∈ client.callbacks feed conId ∨ cb ∈ owedCallbacks feed conId client.replay ∨
    cb ∈ owedCallbacks feed conId instrs ∨ (∃ t ∈ tasks, cb ∈ owedCallbacks feed conId t.instrs) ↔ cb ∈ e.callbacks

section Held

variable {old : Feed → ℤ → Option (Entry κ)} {feed : Feed} {conId : ℤ} {e : Entry κ} {w : World κ} {client : Client κ}
  {tasks : List (Task Progress (Instr κ))} {instrs : List (Instr κ)}

/-- The connection is lost when nothing is pending. -/
theorem Held.disconnected (h : Held e feed conId client tasks [])
    (hrefs : owedRefs feed conId client.replay = 0) (hcallbacks : owedCallbacks feed conId client.replay = []) :
    Held e feed conId client.disconnected tasks [] := by
  have hentry : client.disconnected.entry feed conId = none := rfl
  constructor
  · have hheld := h.refs
    rw [Client.refs_eq_zero.mpr hentry, owedRefs_replay_disconnected]
    omega
  · intro cb
    rw [← h.callbacks cb, Client.callbacks_of_none hentry, mem_owedCallbacks_replay_disconnected, hcallbacks,
      or_iff_right (List.not_mem_nil : cb ∉ [])]
    simp only [List.not_mem_nil, false_or]

/-- What is pending goes to the instructions or stays. -/
theorem Held.move {client' : Client κ} (h : Held e feed conId client tasks [])
    (hentry : client'.entry feed conId = client.entry feed conId)
    (hrefs : owedRefs feed conId client'.replay + owedRefs feed conId instrs = owedRefs feed conId client.replay)
    (hcallbacks : ∀ cb, cb ∈ owedCallbacks feed conId client'.replay ++ owedCallbacks feed conId instrs ↔
      cb ∈ owedCallbacks feed conId client.replay) : Held e feed conId client' tasks instrs := by
  constructor
  · have hheld := h.refs
    have hsame : client'.refs feed conId = client.refs feed conId := by rw [Client.refs, hentry, Client.refs]
    rw [show owedRefs feed conId ([] : List (Instr κ)) = 0 from rfl] at hheld
    omega
  · intro cb
    have hsame : client'.callbacks feed conId = client.callbacks feed conId := by
      rw [Client.callbacks, hentry, Client.callbacks]
    have hnil : cb ∉ owedCallbacks feed conId ([] : List (Instr κ)) := List.not_mem_nil
    rw [← h.callbacks cb, ← hcallbacks cb, hsame, iff_false_intro hnil, false_or, List.mem_append, or_assoc]

theorem restored_ambientItems (watchlist positions : List ℤ) :
    ∀ i ∈ (ambientItems watchlist positions : List (Instr κ)), i.restored = none ∧ i.restores := by
  intro i hi
  simp only [ambientItems, watchlistItem, positionItem, List.mem_append, List.mem_cons, List.mem_flatMap, List.not_mem_nil,
    or_false] at hi
  rcases hi with (⟨conId, -, rfl | rfl | rfl⟩ | rfl | ⟨conId, -, rfl | rfl | rfl⟩) | rfl <;> exact ⟨rfl, trivial⟩

/-- Instructions that restore nothing leave what is pending. -/
theorem Held.idle (h : Held e feed conId client tasks []) (hinstrs : ∀ i ∈ instrs, i.restored = none) :
    Held e feed conId client tasks instrs := by
  have hne : ∀ i ∈ instrs, i.restored ≠ some (feed, conId) := by
    intro i hi
    rw [hinstrs i hi]
    exact nofun
  refine h.move rfl ?_ fun cb => ?_
  · rw [owedRefs_eq_zero hne, Nat.add_zero]
  · rw [owedCallbacks_eq_nil hne, List.append_nil]

/-- A call restores what was pending, or leaves it pending. -/
theorem Held.start {c : Call κ} (hcall : (Event.call c).reconnects) (h : Held e feed conId client tasks []) :
    Held e feed conId (c.start client).1 tasks (c.start client).2 := by
  cases c with
  | resubscribePending => exact h.move rfl (Nat.zero_add _) fun _ => Iff.rfl
  | resubscribeAll watchlist positions =>
    have hrest : ∀ i ∈ (Instr.sleep :: ambientItems watchlist positions : List (Instr κ)),
        i.restored ≠ some (feed, conId) := by
      intro i hi
      rcases List.mem_cons.mp hi with rfl | hmem
      · exact nofun
      · rw [(restored_ambientItems watchlist positions i hmem).1]
        exact nofun
    refine h.move rfl ?_ fun cb => ?_
    · have hnot : ∀ i ∈ client.replay, i ≠ .drop feed conId := fun i hi => ne_drop_of_restores (restores_replay client i hi)
      have happend := owedRefs_append client.replay (Instr.sleep :: ambientItems watchlist positions) hnot
      rw [owedRefs_eq_zero hrest, Nat.add_zero] at happend
      exact (Nat.zero_add _).trans happend
    · have happend : owedCallbacks feed conId (client.replay ++ Instr.sleep :: ambientItems watchlist positions) = _ :=
        owedCallbacks_append client.replay (Instr.sleep :: ambientItems watchlist positions)
      rw [owedCallbacks_eq_nil hrest, List.append_nil] at happend
      exact iff_of_eq (congrArg (cb ∈ ·) happend)
  | reconnect watchlist positions =>
    refine h.idle fun i hi => ?_
    rcases List.mem_cons.mp hi with rfl | hi
    · rfl
    · rcases List.mem_cons.mp hi with rfl | hi
      · rfl
      · exact (restored_ambientItems watchlist positions i hi).1
  | subscribeMarketData conId' countRef =>
    cases countRef with
    | true => exact absurd hcall Bool.false_ne_true
    | false =>
      refine h.idle fun i hi => ?_
      rw [List.mem_singleton.mp hi]
      rfl
  | _ => exact absurd hcall Bool.false_ne_true

/-- The instructions of a call restore. -/
theorem restores_start {c : Call κ} (hcall : (Event.call c).reconnects) : ∀ i ∈ (c.start client).2, i.restores := by
  intro i hi
  cases c with
  | resubscribePending => exact restores_replay client i hi
  | resubscribeAll watchlist positions =>
    rcases List.mem_append.mp hi with hreplay | hi
    · exact restores_replay client i hreplay
    · rcases List.mem_cons.mp hi with rfl | hi
      · trivial
      · exact (restored_ambientItems watchlist positions i hi).2
  | reconnect watchlist positions =>
    rcases List.mem_cons.mp hi with rfl | hi
    · trivial
    · rcases List.mem_cons.mp hi with rfl | hi
      · trivial
      · exact (restored_ambientItems watchlist positions i hi).2
  | subscribeMarketData conId countRef =>
    rw [List.mem_singleton.mp hi]
    trivial
  | _ => exact absurd hcall Bool.false_ne_true

theorem Spent.restored_ne (h : Spent old instrs) (hold : old feed conId = some e) :
    ∀ i ∈ instrs, i.restored ≠ some (feed, conId) := by
  intro i hi hrestored
  have hnone := h i hi _ hrestored
  rw [hold] at hnone
  cases hnone

theorem Spent.owedRefs (h : Spent old instrs) (hold : old feed conId = some e) : owedRefs feed conId instrs = 0 :=
  owedRefs_eq_zero (h.restored_ne hold)

theorem Spent.owedCallbacks (h : Spent old instrs) (hold : old feed conId = some e) :
    owedCallbacks feed conId instrs = [] :=
  owedCallbacks_eq_nil (h.restored_ne hold)

end Held

-- ============================================================================
-- Steps
-- ============================================================================

variable [DecidableEq κ]

/-- A pass completes, and none of its requests has failed. -/
def World.completes (w : World κ) : Event κ → Bool
  | .call c => c.isPass && (execute Instr.run (c.start w.client).1 (c.start w.client).2).2.isEmpty
  | .disconnected => false
  | .resume i ok =>
    match w.tasks[i]? with
    | none => false
    | some t =>
      t.tag.pass && !(t.tag.failed || requests t.instrs && !ok) &&
        (execute Instr.run w.client (resumed ok t.instrs)).2.isEmpty

section Conditions

variable (old : Feed → ℤ → Option (Entry κ))

/-- An old entry is made where there is none, and a subscription to it that does not
    count finds it. -/
def Unharming (w : Client κ) (i : Instr κ) (is : List (Instr κ)) : Prop :=
  ∀ c ∈ i.contract, old c.1 c.2 ≠ none → Conserves c.1 c.2 w i is

/-- The connection is lost when nothing is pending, requests for the old entries go
    through, nothing comes before they are restored, and a pass completes when no other
    has still to restore one. -/
def Unharmed (w : World κ) : Event κ → Prop
  | .disconnected => Spent old w.client.replay
  | .call c =>
    Allowed Instr.run (Unharming old) (c.start w.client).1 (c.start w.client).2 ∧
      (w.completes (.call c) → Cleared old (c.start w.client).1 w.tasks)
  | .resume i ok => ∀ t ∈ w.tasks[i]?,
    (requests t.instrs && !ok → Spent old (lost t.instrs)) ∧
      Allowed Instr.run (Unharming old) w.client (resumed ok t.instrs) ∧
      (w.completes (.resume i ok) → Cleared old w.client (w.tasks.eraseIdx i))

instance (is : List (Instr κ)) : Decidable (Spent old is) :=
  inferInstanceAs (Decidable (∀ i ∈ is, ∀ c ∈ i.restored, old c.1 c.2 = none))

instance (feed : Feed) (conId : ℤ) (w : Client κ) : ∀ i is, Decidable (Conserves feed conId w i is)
  | .create feed' conId' _, _ => inferInstanceAs (Decidable (feed = feed' ∧ conId = conId' → w.entry feed conId = none))
  | .drop feed' conId', is =>
    inferInstanceAs (Decidable (feed = feed' ∧ conId = conId' → w.refs feed conId = owedRefs feed conId is))
  | .unsubscribe feed' conId', _ => inferInstanceAs (Decidable ¬ (feed = feed' ∧ conId = conId'))
  | .subscribe feed' conId' countRef _, _ =>
    inferInstanceAs (Decidable (countRef = false → feed = feed' ∧ conId = conId' → w.entry feed conId ≠ none))
  | .sleep, _ | .qualify, _ | .qualified, _ | .connect, _ | .connected, _ | .endItem, _ => isTrue trivial

instance (w : Client κ) (i : Instr κ) (is : List (Instr κ)) : Decidable (Unharming old w i is) :=
  inferInstanceAs (Decidable (∀ c ∈ i.contract, old c.1 c.2 ≠ none → Conserves c.1 c.2 w i is))

instance (w : Client κ) (tasks : List (Task Progress (Instr κ))) : Decidable (Cleared old w tasks) :=
  inferInstanceAs (Decidable (Spent old w.replay ∧ ∀ t ∈ tasks, Spent old t.instrs))

instance (w : World κ) : ∀ event, Decidable (Unharmed old w event)
  | .disconnected => inferInstanceAs (Decidable (Spent old w.client.replay))
  | .call c => inferInstanceAs (Decidable (Allowed Instr.run (Unharming old) (c.start w.client).1 (c.start w.client).2 ∧
      (w.completes (.call c) → Cleared old (c.start w.client).1 w.tasks)))
  | .resume i ok => inferInstanceAs (Decidable (∀ t ∈ w.tasks[i]?,
    (requests t.instrs && !ok → Spent old (lost t.instrs)) ∧
      Allowed Instr.run (Unharming old) w.client (resumed ok t.instrs) ∧
      (w.completes (.resume i ok) → Cleared old w.client (w.tasks.eraseIdx i))))

end Conditions

section Steps

variable {old : Feed → ℤ → Option (Entry κ)} {feed : Feed} {conId : ℤ} {e : Entry κ} {w : World κ} {client : Client κ}
  {tasks : List (Task Progress (Instr κ))} {instrs : List (Instr κ)}

theorem Unharming.conserves (hold : old feed conId = some e) (h : Allowed Instr.run (Unharming old) client instrs) :
    Allowed Instr.run (Conserves feed conId) client instrs := by
  refine Allowed.mono instrs (fun i _ s is hP => ?_) h
  have hsome : old feed conId ≠ none := by rw [hold]; exact Option.some_ne_none e
  by_cases hcontract : i.contract = some (feed, conId)
  · exact hP _ hcontract hsome
  · have hne (feed' : Feed) (conId' : ℤ) (hc : i.contract = some (feed', conId')) :
        ¬ (feed = feed' ∧ conId = conId') := by
      rintro ⟨rfl, rfl⟩
      exact hcontract hc
    cases i with
    | subscribe feed' conId' => exact fun _ heq => absurd heq (hne feed' conId' rfl)
    | create feed' conId' => exact fun heq => absurd heq (hne feed' conId' rfl)
    | drop feed' conId' => exact fun heq => absurd heq (hne feed' conId' rfl)
    | unsubscribe feed' conId' => exact hne feed' conId' rfl
    | _ => trivial

/-- What is held is held when a task has run. -/
theorem Held.runTask {progress : Progress} (h : Held e feed conId client tasks instrs)
    (hrestores : ∀ i ∈ instrs, i.restores) (hallowed : Allowed Instr.run (Conserves feed conId) client instrs) :
    Held e feed conId (w.runTask client tasks progress instrs).client
      (w.runTask client tasks progress instrs).tasks [] := by
  have hreplay : (execute Instr.run client instrs).1.replay = client.replay := by
    unfold Client.replay
    rw [pending_execute]
  have hclient : (w.runTask client tasks progress instrs).client = (execute Instr.run client instrs).1 := rfl
  have htasks : (w.runTask client tasks progress instrs).tasks =
      park tasks ⟨progress, (execute Instr.run client instrs).2⟩ := rfl
  rw [hclient, htasks]
  constructor
  · have hkept := refs_execute hallowed
    have hrefs := h.refs
    rw [hreplay, total_park rfl, show owedRefs feed conId ([] : List (Instr κ)) = 0 from rfl]
    dsimp only
    omega
  · intro cb
    have hkept : cb ∈ _ ++ _ ↔ cb ∈ _ ++ _ := callbacks_execute hrestores hallowed
    rw [List.mem_append, List.mem_append] at hkept
    rw [← h.callbacks cb, hreplay, exists_park (P := fun is => cb ∈ owedCallbacks feed conId is) List.not_mem_nil]
    have hnil : cb ∉ owedCallbacks feed conId ([] : List (Instr κ)) := List.not_mem_nil
    dsimp only
    rw [iff_false_intro hnil, false_or]
    exact regroup hkept
where
  regroup {a a' r o o' t : Prop} (h : a' ∨ o' ↔ a ∨ o) : a' ∨ r ∨ t ∨ o' ↔ a ∨ r ∨ o ∨ t := by tauto

/-- A task that goes on, after a request that fails with the next item. -/
theorem Held.resume {t : Task Progress (Instr κ)} {i : ℕ} {ok : Bool} (h : Held e feed conId client tasks [])
    (hget : tasks[i]? = some t) (hrestores : ∀ j ∈ t.instrs, j.restores) (hold : old feed conId = some e)
    (hspent : requests t.instrs && !ok → Spent old (lost t.instrs)) :
    Held e feed conId client (tasks.eraseIdx i) (resumed ok t.instrs) := by
  have hrefs : owedRefs feed conId (resumed ok t.instrs) = owedRefs feed conId t.instrs := by
    unfold resumed
    split
    case isTrue hfails =>
      refine owedRefs_afterFailure (fun j hj => ne_drop_of_restores (hrestores j (mem_of_mem_lost hj))) ?_
      exact (hspent hfails).restored_ne hold
    case isFalse => rfl
  have hcallbacks : owedCallbacks feed conId (resumed ok t.instrs) = owedCallbacks feed conId t.instrs := by
    unfold resumed
    split
    case isTrue hfails =>
      have happend : owedCallbacks feed conId (lost t.instrs ++ afterFailure t.instrs) = _ :=
        owedCallbacks_append (lost t.instrs) (afterFailure t.instrs)
      rw [lost_append, (hspent hfails).owedCallbacks hold, List.nil_append] at happend
      exact happend.symm
    case isFalse => rfl
  constructor
  · have hheld := h.refs
    rw [total_eraseIdx hget, show owedRefs feed conId ([] : List (Instr κ)) = 0 from rfl] at hheld
    rw [hrefs]
    omega
  · intro cb
    have hnil : cb ∉ owedCallbacks feed conId ([] : List (Instr κ)) := List.not_mem_nil
    rw [← h.callbacks cb, hcallbacks, exists_eraseIdx (P := fun is => cb ∈ owedCallbacks feed conId is) hget,
      iff_false_intro hnil, false_or, or_comm (b := cb ∈ owedCallbacks feed conId t.instrs)]

/-- What is held in every state, and the tasks restore. -/
structure Holding (old : Feed → ℤ → Option (Entry κ)) (w : World κ) : Prop where
  tasks : ∀ t ∈ w.tasks, ∀ i ∈ t.instrs, i.restores
  held : ∀ feed conId e, old feed conId = some e → Held e feed conId w.client w.tasks []

/-- An event keeps what is held. -/
theorem Holding.next (h : Holding old w) (event : Event κ) (hevent : event.reconnects) (hunharmed : Unharmed old w event) :
    Holding old (w.next event) := by
  cases event with
  | disconnected =>
    refine ⟨h.tasks, fun feed conId e hold => ?_⟩
    exact (h.held feed conId e hold).disconnected (hunharmed.owedRefs hold) (hunharmed.owedCallbacks hold)
  | call c =>
    have hstart : ∀ i ∈ (c.start w.client).2, i.restores := restores_start hevent
    refine ⟨forall_runTask restores_of_requests h.tasks hstart, fun feed conId e hold => ?_⟩
    have hheld := (h.held feed conId e hold).start hevent
    exact hheld.runTask hstart (Unharming.conserves hold hunharmed.1)
  | resume i ok =>
    cases hget : w.tasks[i]? with
    | none =>
      rw [World.next_resume_none hget]
      exact h
    | some t =>
      obtain ⟨hspent, hallowed, -⟩ := hunharmed t hget
      have hrestores := h.tasks t (List.mem_of_getElem? hget)
      have hresumed : ∀ j ∈ resumed ok t.instrs, j.restores := fun j hj => hrestores j (mem_resumed hj)
      rw [World.next_resume_some hget]
      refine ⟨forall_runTask restores_of_requests (fun u hu => h.tasks u (List.mem_of_mem_eraseIdx hu)) hresumed,
        fun feed conId e hold => ?_⟩
      have hheld := (h.held feed conId e hold).resume hget hrestores hold hspent
      exact hheld.runTask hresumed (Unharming.conserves hold hallowed)

omit [DecidableEq κ] in
/-- Where nothing is left to restore everything is there. -/
theorem Holding.restored (h : Holding old w) (hcleared : Cleared old w.client w.tasks) : Restored old w.client := by
  intro feed conId e hold
  obtain ⟨hrefs, hcallbacks⟩ := h.held feed conId e hold
  have htasks : total (owedRefs feed conId) w.tasks = 0 :=
    total_eq_zero.mpr fun t ht => (hcleared.2 t ht).owedRefs hold
  have hnone : ∀ cb, ¬ ∃ t ∈ w.tasks, cb ∈ owedCallbacks feed conId t.instrs := by
    rintro cb ⟨t, ht, hcb⟩
    rw [(hcleared.2 t ht).owedCallbacks hold] at hcb
    exact absurd hcb List.not_mem_nil
  rw [hcleared.1.owedRefs hold, htasks, show owedRefs feed conId ([] : List (Instr κ)) = 0 from rfl] at hrefs
  cases hentry : w.client.entry feed conId with
  | none =>
    have hpos := e.pos
    rw [Client.refs_eq_zero.mpr hentry] at hrefs
    omega
  | some e' =>
    refine ⟨e', rfl, ?_, fun cb => ?_⟩
    · rw [Client.refs_of_entry hentry] at hrefs
      omega
    · have hcb := hcallbacks cb
      have hnil : cb ∉ owedCallbacks feed conId ([] : List (Instr κ)) := List.not_mem_nil
      rw [hcleared.1.owedCallbacks hold, Client.callbacks_of_entry hentry] at hcb
      rw [← hcb, iff_false_intro (hnone cb), iff_false_intro hnil, iff_false_intro (List.not_mem_nil : cb ∉ [])]
      simp only [or_false]

/-- A task of which nothing is left leaves the others. -/
theorem Cleared.runTask {progress : Progress} (h : Cleared old client tasks)
    (hdone : (execute Instr.run client instrs).2.isEmpty) :
    Cleared old (w.runTask client tasks progress instrs).client (w.runTask client tasks progress instrs).tasks := by
  have hreplay : (w.runTask client tasks progress instrs).client.replay = client.replay := by
    have hpending : (w.runTask client tasks progress instrs).client.pending = client.pending := pending_execute instrs
    unfold Client.replay
    rw [hpending]
  have htasks : (w.runTask client tasks progress instrs).tasks = tasks := by
    have hpark : (w.runTask client tasks progress instrs).tasks =
        park tasks ⟨progress, (execute Instr.run client instrs).2⟩ := rfl
    rw [hpark, List.isEmpty_iff.mp hdone]
    rfl
  rw [Cleared, hreplay, htasks]
  exact h

/-- When a pass completes nothing is left to restore. -/
theorem Unharmed.cleared {event : Event κ} (hunharmed : Unharmed old w event) (hcompletes : w.completes event) :
    Cleared old (w.next event).client (w.next event).tasks := by
  cases event with
  | disconnected => exact absurd hcompletes Bool.false_ne_true
  | call c =>
    obtain ⟨-, hdone⟩ := Bool.and_eq_true_iff.mp hcompletes
    exact (hunharmed.2 hcompletes).runTask hdone
  | resume i ok =>
    cases hget : w.tasks[i]? with
    | none =>
      have hnot : w.completes (.resume i ok) = false := by simp only [World.completes, hget]
      exact absurd (hnot.symm.trans hcompletes) Bool.false_ne_true
    | some t =>
      have hdone : (execute Instr.run w.client (resumed ok t.instrs)).2.isEmpty := by
        simp only [World.completes, hget, Bool.and_eq_true] at hcompletes
        exact hcompletes.2
      have hcleared := (hunharmed t hget).2.2 hcompletes
      rw [World.next_resume_some hget]
      exact hcleared.runTask hdone

end Steps

-- ============================================================================
-- Runs
-- ============================================================================

/-- After the connection is lost everything is pending. -/
theorem holding_disconnected (client : Client κ) : Holding client.entry (World.next { client } .disconnected) where
  tasks _ ht := absurd ht List.not_mem_nil
  held feed conId e hold := by
    have hentry : client.disconnected.entry feed conId = none := rfl
    constructor
    · change client.disconnected.refs feed conId + owedRefs feed conId client.disconnected.replay + 0 + 0 = e.refs
      rw [Client.refs_eq_zero.mpr hentry, owedRefs_replay_disconnected, Client.refs_of_entry hold, Nat.zero_add]
      rfl
    · intro cb
      change cb ∈ client.disconnected.callbacks feed conId ∨ cb ∈ owedCallbacks feed conId client.disconnected.replay ∨
        cb ∈ [] ∨ (∃ t ∈ [], _) ↔ _
      rw [Client.callbacks_of_none hentry, mem_owedCallbacks_replay_disconnected, Client.callbacks_of_entry hold]
      simp only [List.not_mem_nil, false_and, exists_false, false_or, or_false]

/-- Whatever is lost and replayed in between: when a pass completes, and no request of
    it has failed, all that was streaming when the connection was first lost is streaming
    with its references and its callbacks. -/
theorem subscriptions_survive (client : Client κ) (events : List (Event κ)) (hevents : ∀ e ∈ events, e.reconnects)
    (hunharmed : Along World.next (Unharmed client.entry) (World.next { client } .disconnected) events)
    (before : List (Event κ)) (event : Event κ) (hran : before ++ [event] <+: events)
    (hcompletes : ((World.next { client } .disconnected).after before).completes event) :
    Restored client.entry ((World.next { client } .disconnected).after (before ++ [event])).client := by
  obtain ⟨rest, rfl⟩ := hran
  rw [List.append_assoc] at hunharmed hevents
  obtain ⟨hbefore, hunharmed, -⟩ := (Along.append before _).mp hunharmed
  have hallowed : Along World.next (fun w e => e.reconnects ∧ Unharmed client.entry w e)
      (World.next { client } .disconnected) before :=
    .and before (.of_forall before fun e he => hevents e (List.mem_append_left _ he)) hbefore
  have hholding : Holding client.entry ((World.next { client } .disconnected).after before) :=
    Along.invariant (fun _ e h hP => h.next e hP.1 hP.2) before (holding_disconnected client) hallowed
  have hevent : event.reconnects := hevents event (List.mem_append_right _ List.mem_cons_self)
  have hafter : (World.next { client } .disconnected).after (before ++ [event]) =
      ((World.next { client } .disconnected).after before).next event := List.foldl_append
  rw [hafter]
  exact (hholding.next event hevent hunharmed).restored (hunharmed.cleared hcompletes)

/-- The connection is lost again while a pass restores the bars, and what the pass has
    restored by then is replayed by another. -/
theorem subscriptions_survive_again :
    let client := (({} : Client ℕ).put .marketData 7 ⟨2, by decide, []⟩).put .realtimeBars 7 ⟨1, by decide, [5]⟩
    Restored client.entry ((World.next { client } .disconnected).after
      ([.call (.resubscribeAll [] []), .resume 0 true, .disconnected, .resume 0 true, .call .resubscribePending] ++
        [.resume 1 true])).client :=
  subscriptions_survive _ ([.call (.resubscribeAll [] []), .resume 0 true, .disconnected, .resume 0 true,
    .call .resubscribePending] ++ [.resume 1 true]) (by decide) (by decide) _ _ List.prefix_rfl (by decide)

/-- The connection is lost twice before anything is replayed. -/
theorem subscriptions_survive_fails : ¬ ∀ (client : Client Unit) (events : List (Event Unit)),
    (∀ e ∈ events, e.reconnects) → ∀ before event, before ++ [event] <+: events →
    ((World.next { client } .disconnected).after before).completes event →
    Restored client.entry ((World.next { client } .disconnected).after (before ++ [event])).client := by
  intro h
  have hrestored := h (({} : Client Unit).put .marketData 7 ⟨1, by decide, []⟩) [.disconnected, .call .resubscribePending]
    (by decide) [.disconnected] (.call .resubscribePending) List.prefix_rfl (by decide)
  obtain ⟨e', hentry, -⟩ := hrestored .marketData 7 ⟨1, by decide, []⟩ (by decide)
  cases hentry

end IbTrader.Ib
