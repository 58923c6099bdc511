/-
  IbTrader.Bots.BarAggregatorRestart

  A bar aggregator that is saved to a file, and loaded again, between two bars.

  The file holds texts where the aggregator held datetimes.  `from_state_dict`
  reads `last_seen_ts` back, but not the timestamp of the bar being built, and a
  text differs from every slot: the first bar after the restart always completes
  it.  Two aggregators that build alike bars complete alike bars (`Alike.addBars`),
  so that is the only difference (`restartEquivalent_iff`).
-/

import Mathlib.Data.List.Forall2
import IbTrader.Bots.BarAggregator

namespace IbTrader.Bots.BarAggregator

-- ============================================================================
-- With and without a restart
-- ============================================================================

/-- The bars completed in all, and the bar being built in the end. -/
structure Produced where
  completed : List Bar
  current : Option Bar
  deriving DecidableEq

/-- The same with the timestamps read. -/
def Produced.read (p : Produced) : Produced where
  completed := p.completed.map Bar.read
  current := p.current.map Bar.read

/-- All bars are added to one aggregator. -/
def uninterrupted (a : BarAggregator) (before after : List Bar) : Produced where
  completed := (a.addBars (before ++ after)).2
  current := (a.addBars (before ++ after)).1.current

/-- The aggregator is saved and loaded in between. -/
def interrupted (a : BarAggregator) (before after : List Bar) : Produced where
  completed := (a.addBars before).2 ++ ((a.addBars before).1.restart.addBars after).2
  current := ((a.addBars before).1.restart.addBars after).1.current

/-- The restart changes nothing. -/
def RestartEquivalent (a : BarAggregator) (before after : List Bar) : Prop :=
  a.interrupted before after = a.uninterrupted before after

/-- The restart changes nothing but the form of timestamps. -/
def RestartEquivalentRead (a : BarAggregator) (before after : List Bar) : Prop :=
  (a.interrupted before after).read = (a.uninterrupted before after).read

instance (a : BarAggregator) (before after : List Bar) :
    Decidable (RestartEquivalent a before after) := by
  unfold RestartEquivalent; infer_instance

/-- The last bar and the next one are of one slot. -/
def SlotShared (targetSeconds : ℕ+) (before after : List Bar) : Prop :=
  ∃ last ∈ before.getLast?, ∃ next ∈ after.head?,
    slotStart targetSeconds last.time = slotStart targetSeconds next.time

-- ============================================================================
-- Ascending bars
-- ============================================================================

/-- The bars ascend strictly, from the last seen on. -/
def Ascends (lastSeenTs : Option Datetime) (bars : List Bar) : Prop :=
  (lastSeenTs.toList ++ bars.map Bar.time).Pairwise (· < ·)

instance (lastSeenTs : Option Datetime) (bars : List Bar) : Decidable (Ascends lastSeenTs bars) := by
  unfold Ascends; infer_instance

/-- The next of them is new. -/
theorem Ascends.cons {a : BarAggregator} {bar : Bar} {bars : List Bar}
    (h : Ascends a.lastSeenTs (bar :: bars)) :
    ¬ a.seen bar ∧ Ascends (a.addBar bar).1.lastSeenTs bars := by
  unfold Ascends at h
  rw [List.map_cons, List.pairwise_append] at h
  obtain ⟨-, hbars, hlast⟩ := h
  have hnew : ¬ a.seen bar := by
    rintro ⟨ts, hts, hle⟩
    have hlt : ts < bar.time := hlast ts (Option.mem_toList.mpr hts) bar.time List.mem_cons_self
    exact absurd hle (not_le.mpr hlt)
  refine ⟨hnew, ?_⟩
  rw [addBar_lastSeenTs hnew]
  exact hbars

theorem Ascends.append {before after : List Bar} :
    ∀ {a : BarAggregator}, Ascends a.lastSeenTs (before ++ after) →
      Ascends (a.addBars before).1.lastSeenTs after := by
  induction before with
  | nil => intro a h; exact h
  | cons bar before ih =>
    intro a h
    rw [addBars_cons]
    exact ih (Ascends.cons h).2

theorem Ascends.left {lastSeenTs : Option Datetime} {before after : List Bar}
    (h : Ascends lastSeenTs (before ++ after)) : Ascends lastSeenTs before := by
  unfold Ascends at h ⊢
  rw [List.map_append, ← List.append_assoc] at h
  exact (List.pairwise_append.mp h).1

-- ============================================================================
-- The bar being built
-- ============================================================================

/-- The aggregator builds the bar of the slot of the last bar. -/
structure Building (a : BarAggregator) (last : Datetime) : Prop where
  lastSeenTs : a.lastSeenTs = some last
  current : ∃ current, a.current = some current ∧
    current.timestampUtc = .datetime (slotStart a.targetSeconds last)

/-- What one new bar does: its slot is built, and the bar built before may be
    completed. -/
theorem addBar_building {a : BarAggregator} {bar : Bar} (h : ¬ a.seen bar) :
    Building (a.addBar bar).1 bar.time ∧ ∀ done ∈ (a.addBar bar).2, a.current = some done := by
  suffices hcurrent : (∃ current, (a.addBar bar).1.current = some current ∧
      current.timestampUtc = .datetime (slotStart a.targetSeconds bar.time)) ∧
      ∀ done ∈ (a.addBar bar).2, a.current = some done by
    refine ⟨⟨addBar_lastSeenTs h, ?_⟩, hcurrent.2⟩
    rw [addBar_targetSeconds]
    exact hcurrent.1
  cases hcurrent : a.current with
  | none =>
    obtain ⟨hdone, hnext⟩ := addBar_first h hcurrent
    rw [hdone]
    exact ⟨⟨_, hnext, rfl⟩, by simp⟩
  | some current =>
    by_cases hslot : current.timestampUtc = .datetime (slotStart a.targetSeconds bar.time)
    · obtain ⟨hdone, hnext⟩ := addBar_extend h hcurrent hslot
      rw [hdone]
      exact ⟨⟨_, hnext, hslot⟩, by simp⟩
    · obtain ⟨hdone, hnext⟩ := addBar_roll h hcurrent hslot
      rw [hdone]
      exact ⟨⟨_, hnext, rfl⟩, by simp⟩

@[simp] theorem addBars_targetSeconds (a : BarAggregator) (bars : List Bar) :
    (a.addBars bars).1.targetSeconds = a.targetSeconds := by
  induction bars generalizing a with
  | nil => rfl
  | cons bar bars ih => rw [addBars_cons, ih, addBar_targetSeconds]

/-- After new bars the slot of the last one is built. -/
theorem addBars_building {bars : List Bar} {last : Bar} (hlast : last ∈ bars.getLast?) :
    ∀ {a : BarAggregator}, Ascends a.lastSeenTs bars → Building (a.addBars bars).1 last.time := by
  induction bars with
  | nil => cases hlast
  | cons bar bars ih =>
    intro a h
    obtain ⟨hnew, hrest⟩ := h.cons
    rw [addBars_cons]
    cases bars with
    | nil =>
      obtain rfl : bar = last := by simpa using hlast
      exact (addBar_building hnew).1
    | cons next bars =>
      rw [List.getLast?_cons_cons] at hlast
      exact ih hlast hrest

/-- Where the bar being built has a datetime, all completed bars have one. -/
theorem addBars_datetime {bars : List Bar} :
    ∀ {a : BarAggregator}, Ascends a.lastSeenTs bars →
      (∀ current, a.current = some current → ∃ t, current.timestampUtc = .datetime t) →
      ∀ done ∈ (a.addBars bars).2, ∃ t, done.timestampUtc = .datetime t := by
  induction bars with
  | nil => intro a _ _ done hdone; cases hdone
  | cons bar bars ih =>
    intro a h hcurrent done hdone
    obtain ⟨hnew, hrest⟩ := h.cons
    obtain ⟨hbuilding, hemitted⟩ := addBar_building hnew
    rw [addBars_cons] at hdone
    rcases List.mem_append.mp hdone with hdone | hdone
    · exact hcurrent done (hemitted done hdone)
    · refine ih hrest ?_ done hdone
      obtain ⟨current, hnext, hstamp⟩ := hbuilding.current
      intro current' hnext'
      obtain rfl := Option.some.inj (hnext.symm.trans hnext')
      exact ⟨_, hstamp⟩

-- ============================================================================
-- Alike aggregators
-- ============================================================================

/-- A relation between bars that further bars of the slot keep. -/
structure Likeness (r : Bar → Bar → Prop) : Prop where
  refl : ∀ b, r b b
  timestampUtc : ∀ {b c}, r b c → b.timestampUtc = c.timestampUtc
  extend : ∀ {b c}, r b c → ∀ bar, r (b.extend bar) (c.extend bar)

theorem Likeness.eq : Likeness Eq where
  refl := fun _ => rfl
  timestampUtc := congrArg Bar.timestampUtc
  extend := fun h bar => congrArg (·.extend bar) h

theorem Likeness.sameTimestamp : Likeness fun b c => b.timestampUtc = c.timestampUtc where
  refl := fun _ => rfl
  timestampUtc := id
  extend := fun h _ => h

/-- The aggregators have seen the same and build bars that are alike. -/
structure Alike (r : Bar → Bar → Prop) (a b : BarAggregator) : Prop where
  targetSeconds : a.targetSeconds = b.targetSeconds
  lastSeenTs : a.lastSeenTs = b.lastSeenTs
  current : Option.Rel r a.current b.current

theorem Alike.current_eq {a b : BarAggregator} (h : Alike Eq a b) : a.current = b.current := by
  have hcurrent := h.current
  revert hcurrent
  generalize a.current = x
  generalize b.current = y
  intro hcurrent
  cases hcurrent with
  | none => rfl
  | some heq => rw [heq]

theorem Alike.addBar {r : Bar → Bar → Prop} (hr : Likeness r) {a b : BarAggregator}
    (h : Alike r a b) (bar : Bar) :
    Alike r (a.addBar bar).1 (b.addBar bar).1 ∧ List.Forall₂ r (a.addBar bar).2 (b.addBar bar).2 := by
  obtain ⟨htarget, hlast, hcurrent⟩ := h
  have hseen : a.seen bar ↔ b.seen bar := by unfold seen; rw [hlast]
  by_cases ha : a.seen bar
  case pos =>
    rw [addBar_seen ha, addBar_seen (hseen.mp ha)]
    exact ⟨⟨htarget, hlast, hcurrent⟩, .nil⟩
  case neg =>
    have hb : ¬ b.seen bar := fun hb => ha (hseen.mpr hb)
    suffices hnext : Option.Rel r (a.addBar bar).1.current (b.addBar bar).1.current ∧
        List.Forall₂ r (a.addBar bar).2 (b.addBar bar).2 by
      refine ⟨⟨?_, ?_, hnext.1⟩, hnext.2⟩
      · rw [addBar_targetSeconds, addBar_targetSeconds, htarget]
      · rw [addBar_lastSeenTs ha, addBar_lastSeenTs hb]
    cases hca : a.current with
    | none =>
      rw [hca] at hcurrent
      have hcb : b.current = none := by
        cases hcb : b.current with
        | none => rfl
        | some c => rw [hcb] at hcurrent; cases hcurrent
      obtain ⟨hda, hna⟩ := addBar_first ha hca
      obtain ⟨hdb, hnb⟩ := addBar_first hb hcb
      rw [hda, hdb, hna, hnb, htarget]
      exact ⟨.some (hr.refl _), .nil⟩
    | some c =>
      rw [hca] at hcurrent
      obtain ⟨d, hcb, hcd⟩ : ∃ d, b.current = some d ∧ r c d := by
        cases hcb : b.current with
        | none => rw [hcb] at hcurrent; cases hcurrent
        | some d =>
          rw [hcb] at hcurrent
          cases hcurrent with
          | some hcd => exact ⟨d, rfl, hcd⟩
      by_cases hslot : c.timestampUtc = .datetime (slotStart a.targetSeconds bar.time)
      · have hslot' : d.timestampUtc = .datetime (slotStart b.targetSeconds bar.time) := by
          rw [← hr.timestampUtc hcd, hslot, htarget]
        obtain ⟨hda, hna⟩ := addBar_extend ha hca hslot
        obtain ⟨hdb, hnb⟩ := addBar_extend hb hcb hslot'
        rw [hda, hdb, hna, hnb]
        exact ⟨.some (hr.extend hcd bar), .nil⟩
      · have hslot' : d.timestampUtc ≠ .datetime (slotStart b.targetSeconds bar.time) := by
          rw [← hr.timestampUtc hcd, ← htarget]
          exact hslot
        obtain ⟨hda, hna⟩ := addBar_roll ha hca hslot
        obtain ⟨hdb, hnb⟩ := addBar_roll hb hcb hslot'
        rw [hda, hdb, hna, hnb, htarget]
        exact ⟨.some (hr.refl _), .cons hcd .nil⟩

/-- Alike aggregators complete bars that are alike. -/
theorem Alike.addBars {r : Bar → Bar → Prop} (hr : Likeness r) (bars : List Bar) :
    ∀ {a b : BarAggregator}, Alike r a b →
      Alike r (a.addBars bars).1 (b.addBars bars).1 ∧
        List.Forall₂ r (a.addBars bars).2 (b.addBars bars).2 := by
  induction bars with
  | nil => intro a b h; exact ⟨h, .nil⟩
  | cons bar bars ih =>
    intro a b h
    obtain ⟨hstep, hdone⟩ := h.addBar hr bar
    obtain ⟨hrun, hrest⟩ := ih hstep
    rw [addBars_cons, addBars_cons]
    exact ⟨hrun, List.rel_append hdone hrest⟩

-- ============================================================================
-- The restart
-- ============================================================================

/-- `BarAggregator(target_seconds, lookback_bars)`. -/
def fresh (targetSeconds : ℕ+) (lookbackBars : ℕ) : BarAggregator where
  targetSeconds := targetSeconds
  lookbackBars := lookbackBars

@[simp] theorem restart_targetSeconds (a : BarAggregator) :
    a.restart.targetSeconds = a.targetSeconds := rfl

@[simp] theorem restart_current (a : BarAggregator) :
    a.restart.current = a.current.map Bar.dumped := rfl

@[simp] theorem restart_lastSeenTs (a : BarAggregator) : a.restart.lastSeenTs = a.lastSeenTs := by
  change ((a.lastSeenTs.map Timestamp.text).map Timestamp.dumped).map Timestamp.time = a.lastSeenTs
  cases a.lastSeenTs <;> rfl

@[simp] theorem restart_seen (a : BarAggregator) (bar : Bar) : a.restart.seen bar ↔ a.seen bar := by
  unfold seen
  rw [restart_lastSeenTs]

/-- What is new makes the restarted aggregator and the other alike again, as far as
    the bars they build are. -/
theorem restart_alike {r : Bar → Bar → Prop} {a : BarAggregator} {bar : Bar} (h : ¬ a.seen bar)
    (hcurrent : Option.Rel r (a.restart.addBar bar).1.current (a.addBar bar).1.current) :
    Alike r (a.restart.addBar bar).1 (a.addBar bar).1 where
  targetSeconds := by rw [addBar_targetSeconds, addBar_targetSeconds, restart_targetSeconds]
  lastSeenTs := by rw [addBar_lastSeenTs h, addBar_lastSeenTs ((restart_seen a bar).not.mpr h)]
  current := hcurrent

/-- The first new bar after a restart completes the bar being built, in whatever
    slot it is, and starts its own. -/
theorem restart_addBar {a : BarAggregator} {bar current : Bar} (h : ¬ a.seen bar)
    (hcurrent : a.current = some current) :
    (a.restart.addBar bar).2 = [current.dumped] ∧
      (a.restart.addBar bar).1.current = some (bar.start (slotStart a.targetSeconds bar.time)) := by
  have hdumped : a.restart.current = some current.dumped := by rw [restart_current, hcurrent]; rfl
  exact addBar_roll ((restart_seen a bar).not.mpr h) hdumped Timestamp.noConfusion

/-- A bar with a datetime differs from what is read back of it. -/
theorem dumped_ne {bar other : Bar} (h : ∃ t, other.timestampUtc = .datetime t) :
    bar.dumped ≠ other := by
  rintro rfl
  obtain ⟨t, ht⟩ := h
  cases ht

section Interrupted

variable {a : BarAggregator} {last : Datetime} {bar : Bar} {bars : List Bar}

/-- With a bar being built, the restart shows in the bar it completes. -/
theorem interrupted_ne (hbuilding : Building a last) (h : Ascends a.lastSeenTs (bar :: bars)) :
    (a.restart.addBars (bar :: bars)).2 ≠ (a.addBars (bar :: bars)).2 := by
  obtain ⟨current, hcurrent, hstamp⟩ := hbuilding.current
  obtain ⟨hdone, -⟩ := restart_addBar h.cons.1 hcurrent
  have hdatetime := addBars_datetime h (by
    intro current' hcurrent'
    obtain rfl := Option.some.inj (hcurrent.symm.trans hcurrent')
    exact ⟨_, hstamp⟩)
  intro heq
  have hmem : current.dumped ∈ (a.addBars (bar :: bars)).2 := by
    rw [← heq, addBars_cons, hdone]
    exact List.mem_cons_self
  exact dumped_ne (hdatetime _ hmem) rfl

/-- When the next bar is of another slot, the bar would have been completed
    anyway, and the two aggregators go on alike. -/
theorem interrupted_read_of_roll (hbuilding : Building a last)
    (h : Ascends a.lastSeenTs (bar :: bars))
    (hslot : slotStart a.targetSeconds last ≠ slotStart a.targetSeconds bar.time) :
    (a.restart.addBars (bar :: bars)).2.map Bar.read = (a.addBars (bar :: bars)).2.map Bar.read ∧
      (a.restart.addBars (bar :: bars)).1.current = (a.addBars (bar :: bars)).1.current := by
  obtain ⟨current, hcurrent, hstamp⟩ := hbuilding.current
  have hnew : ¬ a.seen bar := h.cons.1
  have hother : current.timestampUtc ≠ .datetime (slotStart a.targetSeconds bar.time) := by
    rw [hstamp]
    exact fun heq => hslot (Timestamp.datetime.inj heq)
  obtain ⟨hdone, hnext⟩ := addBar_roll hnew hcurrent hother
  obtain ⟨hdone', hnext'⟩ := restart_addBar hnew hcurrent
  have halike : Alike Eq (a.restart.addBar bar).1 (a.addBar bar).1 := by
    refine restart_alike hnew ?_
    rw [hnext, hnext']
    exact .some rfl
  obtain ⟨hrun, hrest⟩ := halike.addBars Likeness.eq bars
  rw [List.forall₂_eq_eq_eq] at hrest
  rw [addBars_cons, addBars_cons, hdone, hdone', hrest]
  exact ⟨rfl, hrun.current_eq⟩

/-- When the next bar is of the same slot, the restarted aggregator completes one
    bar more. -/
theorem interrupted_length_of_extend (hbuilding : Building a last)
    (h : Ascends a.lastSeenTs (bar :: bars))
    (hslot : slotStart a.targetSeconds last = slotStart a.targetSeconds bar.time) :
    (a.restart.addBars (bar :: bars)).2.length = (a.addBars (bar :: bars)).2.length + 1 := by
  obtain ⟨current, hcurrent, hstamp⟩ := hbuilding.current
  have hnew : ¬ a.seen bar := h.cons.1
  have hsame : current.timestampUtc = .datetime (slotStart a.targetSeconds bar.time) := by
    rw [hstamp, hslot]
  obtain ⟨hdone, hnext⟩ := addBar_extend hnew hcurrent hsame
  obtain ⟨hdone', hnext'⟩ := restart_addBar hnew hcurrent
  have halike : Alike (fun b c => b.timestampUtc = c.timestampUtc) (a.restart.addBar bar).1
      (a.addBar bar).1 := by
    refine restart_alike hnew ?_
    rw [hnext, hnext']
    exact .some hsame.symm
  have hlength := (halike.addBars Likeness.sameTimestamp bars).2.length_eq
  rw [addBars_cons, addBars_cons, hdone, hdone']
  simp only [List.nil_append, List.singleton_append, List.length_cons, hlength]

end Interrupted

/-- A restart changes nothing exactly when nothing was added before it, and
    nothing but the form of timestamps exactly when it does not fall within a
    slot. -/
theorem restartEquivalent_iff (targetSeconds : ℕ+) (lookbackBars : ℕ) {before after : List Bar}
    (h : Ascends none (before ++ after)) :
    (RestartEquivalent (fresh targetSeconds lookbackBars) before after ↔ before = []) ∧
      (RestartEquivalentRead (fresh targetSeconds lookbackBars) before after ↔
        ¬ SlotShared targetSeconds before after) := by
  cases hlast : before.getLast? with
  | none =>
    obtain rfl := List.getLast?_eq_none_iff.mp hlast
    have hsame : RestartEquivalent (fresh targetSeconds lookbackBars) [] after := rfl
    refine ⟨iff_of_true hsame rfl, iff_of_true (congrArg Produced.read hsame) ?_⟩
    rintro ⟨last, hmem, -⟩
    cases hmem
  | some last =>
    have hne : before ≠ [] := by
      rintro rfl
      cases hlast
    have hbuilding : Building ((fresh targetSeconds lookbackBars).addBars before).1 last.time :=
      addBars_building hlast (a := fresh targetSeconds lookbackBars) h.left
    have hafter : Ascends ((fresh targetSeconds lookbackBars).addBars before).1.lastSeenTs after :=
      Ascends.append (a := fresh targetSeconds lookbackBars) h
    have htarget : ((fresh targetSeconds lookbackBars).addBars before).1.targetSeconds =
        targetSeconds := addBars_targetSeconds _ _
    unfold RestartEquivalent RestartEquivalentRead interrupted uninterrupted
    rw [addBars_append]
    dsimp only
    generalize ((fresh targetSeconds lookbackBars).addBars before).1 = a at hbuilding hafter htarget ⊢
    generalize ((fresh targetSeconds lookbackBars).addBars before).2 = done
    subst htarget
    cases after with
    | nil =>
      obtain ⟨current, hcurrent, hstamp⟩ := hbuilding.current
      refine ⟨iff_of_false (fun heq => ?_) hne, iff_of_true ?_ ?_⟩
      · have hdumped : some current.dumped = some current := by
          rw [← hcurrent]
          exact (congrArg (Option.map Bar.dumped) hcurrent).symm.trans (congrArg Produced.current heq)
        exact dumped_ne ⟨_, hstamp⟩ (Option.some.inj hdumped)
      · simp only [Produced.read, addBars_nil, restart_current, hcurrent]
        rfl
      · rintro ⟨-, -, next, hmem, -⟩
        cases hmem
    | cons bar bars =>
      refine ⟨iff_of_false (fun heq => ?_) hne, ?_⟩
      · have hdone := List.append_cancel_left (congrArg Produced.completed heq)
        exact interrupted_ne hbuilding hafter hdone
      · have hshared : SlotShared a.targetSeconds before (bar :: bars) ↔
            slotStart a.targetSeconds last.time = slotStart a.targetSeconds bar.time := by
          simp [SlotShared, hlast]
        rw [hshared]
        by_cases hslot : slotStart a.targetSeconds last.time = slotStart a.targetSeconds bar.time
        · refine iff_of_false (fun heq => ?_) (not_not.mpr hslot)
          have hlength := congrArg List.length (congrArg Produced.completed heq)
          have hextra := interrupted_length_of_extend hbuilding hafter hslot
          simp only [Produced.read, List.length_map, List.length_append, hextra] at hlength
          omega
        · obtain ⟨hdone, hcurrent⟩ := interrupted_read_of_roll hbuilding hafter hslot
          refine iff_of_true ?_ hslot
          simp only [Produced.read, List.map_append, hdone, hcurrent]

/-- The 5-second bar of a second of the epoch. -/
def barAt (second : ℤ) : Bar where
  timestampUtc := .datetime (second * 1000000)
  open_ := 100
  high := 101
  low := 99
  close := 100
  volume := 10

/-- A restart after the first of three bars, which ends its slot. -/
theorem restartEquivalent_iff_barAt :
    (RestartEquivalent (fresh 10 5) [barAt 5] [barAt 10, barAt 15] ↔ [barAt 5] = []) ∧
      (RestartEquivalentRead (fresh 10 5) [barAt 5] [barAt 10, barAt 15] ↔
        ¬ SlotShared 10 [barAt 5] [barAt 10, barAt 15]) :=
  restartEquivalent_iff 10 5 (by decide +kernel)

/-- A restart within a slot completes the bar of the slot twice. -/
theorem restartEquivalent_fails :
    ¬ ∀ (targetSeconds : ℕ+) (lookbackBars : ℕ) (before after : List Bar),
      Ascends none (before ++ after) →
      RestartEquivalent (fresh targetSeconds lookbackBars) before after := by
  intro h
  have hequivalent : RestartEquivalent (fresh 10 5) [barAt 0] [barAt 5] :=
    h 10 5 _ _ (by decide +kernel)
  exact absurd hequivalent (by decide +kernel)

end IbTrader.Bots.BarAggregator
