/-
  IbTrader.Bots.BarSlots

  What the bar aggregator completes, as a function of the whole list of 5-second bars.

  The bars that count are those newer than every bar before them.  They are grouped by
  slot, and a slot's bar is made of its group; the last slot may still grow, so its bar is
  the one being built (`Tracks`).  How the list is cut into calls does not enter into it.
-/

import Mathlib.Data.List.DropRight
import Mathlib.Data.List.Induction
import IbTrader.Bots.BarAggregatorRestart

namespace IbTrader.Bots.BarAggregator

-- ============================================================================
-- Bars by slot
-- ============================================================================

/-- The bars that are newer than every bar before them. -/
def newer : List Bar → List Bar → List Bar
  | _, [] => []
  | before, bar :: bars =>
    if ∀ b ∈ before, b.time < bar.time then bar :: newer (before ++ [bar]) bars
    else newer (before ++ [bar]) bars

/-- The slot of a bar. -/
def slotOf (targetSeconds : ℕ+) (bar : Bar) : Datetime := slotStart targetSeconds bar.time

/-- The slots that have bars, in the order of their first ones. -/
def slots (targetSeconds : ℕ+) (bars : List Bar) : List Datetime :=
  (bars.map (slotOf targetSeconds)).eraseDups

/-- The bars of a slot. -/
def inSlot (targetSeconds : ℕ+) (bars : List Bar) (slot : Datetime) : List Bar :=
  bars.filter (slotOf targetSeconds · = slot)

/-- The bar of a slot: first open, highest high, lowest low, last close and the volume in
    all. -/
def slotBar (slot : Datetime) (group : List Bar) : Option Bar := do
  let first ← group.head?
  let high ← (group.map (·.high)).max?
  let low ← (group.map (·.low)).min?
  let last ← group.getLast?
  return {
    timestampUtc := .datetime slot
    open_ := first.open_
    high, low
    close := last.close
    volume := (group.map (·.volume)).sum }

/-- The bar of one of the slots. -/
def barAtSlot (targetSeconds : ℕ+) (bars : List Bar) (slot : Datetime) : Option Bar :=
  slotBar slot (inSlot targetSeconds bars slot)

/-- The bars of all slots. -/
def slotBars (targetSeconds : ℕ+) (bars : List Bar) : List Bar :=
  (slots targetSeconds bars).filterMap (barAtSlot targetSeconds bars)

/-- Successive calls of `add_bars`, and what each returns. -/
def addCalls (a : BarAggregator) : List (List Bar) → BarAggregator × List (List Bar)
  | [] => (a, [])
  | bars :: calls =>
    (((a.addBars bars).1.addCalls calls).1, (a.addBars bars).2 :: ((a.addBars bars).1.addCalls calls).2)

-- ============================================================================
-- The slots
-- ============================================================================

section Slots

variable {targetSeconds : ℕ+} {bars : List Bar} {bar : Bar}

/-- A later time is of no earlier slot. -/
theorem slotStart_mono {s t : Datetime} (h : s ≤ t) : slotStart targetSeconds s ≤ slotStart targetSeconds t := by
  have htarget : (0 : ℤ) < targetSeconds := Int.natCast_pos.mpr targetSeconds.pos
  have hsec : s.tdiv 1000000 ≤ t.tdiv 1000000 := Int.tdiv_le_tdiv (by decide) h
  have hslot : s.tdiv 1000000 / targetSeconds ≤ t.tdiv 1000000 / targetSeconds := Int.ediv_le_ediv htarget hsec
  exact Int.mul_le_mul_of_nonneg_right (Int.mul_le_mul_of_nonneg_right hslot htarget.le) (by decide)

/-- The bars ascend strictly. -/
def Ascending (bars : List Bar) : Prop := bars.Pairwise fun b c => b.time < c.time

theorem mem_slots {slot : Datetime} : slot ∈ slots targetSeconds bars ↔ ∃ b ∈ bars, slotOf targetSeconds b = slot := by
  rw [slots, List.mem_eraseDups, List.mem_map]

theorem slots_snoc :
    slots targetSeconds (bars ++ [bar]) =
      if slotOf targetSeconds bar ∈ slots targetSeconds bars then slots targetSeconds bars
      else slots targetSeconds bars ++ [slotOf targetSeconds bar] := by
  simp only [slots, List.map_append, List.map_singleton, List.eraseDups_append, List.mem_eraseDups]
  split
  case isTrue h =>
    have hnone : [slotOf targetSeconds bar].removeAll (bars.map (slotOf targetSeconds)) = [] := by
      rw [List.removeAll, List.filter_singleton, List.elem_eq_true_of_mem h]
      rfl
    rw [hnone]
    exact List.append_nil _
  case isFalse h =>
    have hone : [slotOf targetSeconds bar].removeAll (bars.map (slotOf targetSeconds)) = [slotOf targetSeconds bar] := by
      have helem : (bars.map (slotOf targetSeconds)).elem (slotOf targetSeconds bar) = false := by
        rw [← Bool.not_eq_true, List.elem_iff]
        exact h
      rw [List.removeAll, List.filter_singleton, helem]
      rfl
    rw [hone]
    rfl

/-- The slots ascend, up to that of the next bar. -/
theorem slots_ascend (h : Ascending bars) : (slots targetSeconds bars).Pairwise (· < ·) := by
  induction bars using List.reverseRecOn with
  | nil => exact List.Pairwise.nil
  | append_singleton bars bar ih =>
    obtain ⟨hbars, -, hlast⟩ := List.pairwise_append.mp h
    rw [slots_snoc]
    split
    case isTrue => exact ih hbars
    case isFalse hnew =>
      refine List.pairwise_append.mpr ⟨ih hbars, List.pairwise_singleton _ _, ?_⟩
      intro slot hslot slot' hslot'
      rw [List.mem_singleton.mp hslot']
      obtain ⟨b, hb, rfl⟩ := mem_slots.mp hslot
      have hle : slotOf targetSeconds b ≤ slotOf targetSeconds bar :=
        slotStart_mono (hlast b hb bar List.mem_cons_self).le
      exact lt_of_le_of_ne hle fun heq => hnew (heq ▸ hslot)

/-- A slot that the next bar is of is the last one. -/
theorem slots_eq_of_mem (h : Ascending (bars ++ [bar])) (hmem : slotOf targetSeconds bar ∈ slots targetSeconds bars) :
    ∃ earlier, slots targetSeconds bars = earlier ++ [slotOf targetSeconds bar] ∧
      slotOf targetSeconds bar ∉ earlier := by
  obtain ⟨hbars, -, hlast⟩ := List.pairwise_append.mp h
  have hascend : (slots targetSeconds bars).Pairwise (· < ·) := slots_ascend hbars
  obtain ⟨earlier, later, hsplit⟩ := List.append_of_mem hmem
  rw [hsplit] at hascend
  obtain ⟨-, hright, hleft⟩ := List.pairwise_append.mp hascend
  have hnone : later = [] := by
    refine List.eq_nil_iff_forall_not_mem.mpr fun slot hslot => ?_
    have hin : slot ∈ slots targetSeconds bars := by
      rw [hsplit]
      exact List.mem_append_right _ (List.mem_cons_of_mem _ hslot)
    obtain ⟨b, hb, rfl⟩ := mem_slots.mp hin
    have hle : slotOf targetSeconds b ≤ slotOf targetSeconds bar :=
      slotStart_mono (hlast b hb bar List.mem_cons_self).le
    exact absurd ((List.pairwise_cons.mp hright).1 _ hslot) (not_lt.mpr hle)
  refine ⟨earlier, by rw [hsplit, hnone], fun hin => ?_⟩
  exact lt_irrefl _ (hleft _ hin _ List.mem_cons_self)

end Slots

-- ============================================================================
-- The bar of a slot
-- ============================================================================

section SlotBars

variable {targetSeconds : ℕ+} {bars : List Bar} {bar : Bar} {slot : Datetime}

theorem slotBar_cons (first : Bar) (rest : List Bar) :
    slotBar slot (first :: rest) = some {
      timestampUtc := .datetime slot
      open_ := first.open_
      high := (rest.map (·.high)).foldl max first.high
      low := (rest.map (·.low)).foldl min first.low
      close := ((first :: rest).getLast (List.cons_ne_nil first rest)).close
      volume := ((first :: rest).map (·.volume)).sum } := rfl

/-- A first bar starts the bar of its slot. -/
theorem slotBar_singleton : slotBar slot [bar] = some (bar.start slot) := by
  rw [slotBar_cons]
  simp [Bar.start]

/-- A further bar extends it. -/
theorem slotBar_snoc {group : List Bar} (hne : group ≠ []) :
    slotBar slot (group ++ [bar]) = (slotBar slot group).map (·.extend bar) := by
  obtain ⟨first, rest, rfl⟩ := List.exists_cons_of_ne_nil hne
  rw [List.cons_append, slotBar_cons, slotBar_cons, Option.map_some]
  simp [Bar.extend, List.sum_append, add_assoc]

theorem inSlot_ne_nil (h : slot ∈ slots targetSeconds bars) : inSlot targetSeconds bars slot ≠ [] := by
  obtain ⟨b, hb, hslot⟩ := mem_slots.mp h
  exact List.ne_nil_of_mem (List.mem_filter.mpr ⟨hb, by simpa using hslot⟩)

theorem inSlot_eq_nil (h : slot ∉ slots targetSeconds bars) : inSlot targetSeconds bars slot = [] := by
  refine List.filter_eq_nil_iff.mpr fun b hb hslot => h ?_
  exact mem_slots.mpr ⟨b, hb, by simpa using hslot⟩

theorem barAtSlot_isSome (h : slot ∈ slots targetSeconds bars) :
    ∃ b, barAtSlot targetSeconds bars slot = some b ∧ b.timestampUtc = .datetime slot := by
  obtain ⟨first, rest, hgroup⟩ := List.exists_cons_of_ne_nil (inSlot_ne_nil h)
  rw [barAtSlot, hgroup]
  exact ⟨_, slotBar_cons first rest, rfl⟩

/-- A further bar leaves the bars of the other slots as they are. -/
theorem barAtSlot_snoc_of_ne (h : slotOf targetSeconds bar ≠ slot) :
    barAtSlot targetSeconds (bars ++ [bar]) slot = barAtSlot targetSeconds bars slot := by
  simp [barAtSlot, inSlot, h]

theorem inSlot_snoc_self :
    inSlot targetSeconds (bars ++ [bar]) (slotOf targetSeconds bar) =
      inSlot targetSeconds bars (slotOf targetSeconds bar) ++ [bar] := by
  simp [inSlot]

theorem filterMap_barAtSlot_snoc {ss : List Datetime} (h : slotOf targetSeconds bar ∉ ss) :
    ss.filterMap (barAtSlot targetSeconds (bars ++ [bar])) = ss.filterMap (barAtSlot targetSeconds bars) := by
  refine List.filterMap_congr fun slot hslot => barAtSlot_snoc_of_ne ?_
  rintro rfl
  exact h hslot

/-- There is one bar for each slot. -/
theorem slotBars_timestamps :
    (slotBars targetSeconds bars).map (·.timestampUtc) = (slots targetSeconds bars).map .datetime := by
  have hall : ∀ ss : List Datetime, (∀ slot ∈ ss, slot ∈ slots targetSeconds bars) →
      (ss.filterMap (barAtSlot targetSeconds bars)).map (·.timestampUtc) = ss.map .datetime := by
    intro ss hss
    induction ss with
    | nil => rfl
    | cons slot ss ih =>
      obtain ⟨hslot, hss⟩ := List.forall_mem_cons.mp hss
      obtain ⟨b, hb, hstamp⟩ := barAtSlot_isSome hslot
      rw [List.filterMap_cons_some hb, List.map_cons, List.map_cons, ih hss, hstamp]
  exact hall _ fun _ h => h

/-- A bar of a new slot starts a bar. -/
theorem slotBars_snoc_new (h : slotOf targetSeconds bar ∉ slots targetSeconds bars) :
    slotBars targetSeconds (bars ++ [bar]) =
      slotBars targetSeconds bars ++ [bar.start (slotOf targetSeconds bar)] := by
  have hone : barAtSlot targetSeconds (bars ++ [bar]) (slotOf targetSeconds bar) =
      some (bar.start (slotOf targetSeconds bar)) := by
    rw [barAtSlot, inSlot_snoc_self, inSlot_eq_nil h, List.nil_append, slotBar_singleton]
  unfold slotBars
  rw [slots_snoc, if_neg h, List.filterMap_append, filterMap_barAtSlot_snoc h,
    List.filterMap_cons_some hone, List.filterMap_nil]

/-- A bar of the last slot extends its bar. -/
theorem slotBars_snoc_same (hascend : Ascending (bars ++ [bar]))
    (h : slotOf targetSeconds bar ∈ slots targetSeconds bars) :
    ∃ done current, slotBars targetSeconds bars = done ++ [current] ∧
      current.timestampUtc = .datetime (slotOf targetSeconds bar) ∧
      slotBars targetSeconds (bars ++ [bar]) = done ++ [current.extend bar] := by
  obtain ⟨earlier, hslots, hnew⟩ := slots_eq_of_mem hascend h
  obtain ⟨current, hcurrent, hstamp⟩ := barAtSlot_isSome h
  refine ⟨earlier.filterMap (barAtSlot targetSeconds bars), current, ?_, hstamp, ?_⟩
  · rw [slotBars, hslots, List.filterMap_append, List.filterMap_cons_some hcurrent, List.filterMap_nil]
  · have hextended : barAtSlot targetSeconds (bars ++ [bar]) (slotOf targetSeconds bar) =
        some (current.extend bar) := by
      rw [barAtSlot, inSlot_snoc_self, slotBar_snoc (inSlot_ne_nil h), ← barAtSlot, hcurrent, Option.map_some]
    rw [slotBars, slots_snoc, if_pos h, hslots, List.filterMap_append, filterMap_barAtSlot_snoc hnew,
      List.filterMap_cons_some hextended, List.filterMap_nil]

end SlotBars

-- ============================================================================
-- The bars that count
-- ============================================================================

section Newer

variable {before bars : List Bar}

theorem newer_append (before bars more : List Bar) :
    newer before (bars ++ more) = newer before bars ++ newer (before ++ bars) more := by
  induction bars generalizing before with
  | nil => simp [newer]
  | cons bar bars ih =>
    rw [List.cons_append, newer, newer, ih, ← List.append_cons]
    split <;> rfl

theorem newer_snoc (bars : List Bar) (bar : Bar) :
    newer [] (bars ++ [bar]) = newer [] bars ++ if ∀ b ∈ bars, b.time < bar.time then [bar] else [] := by
  rw [newer_append]
  rfl

theorem newer_subset : ∀ b ∈ newer before bars, b ∈ bars := by
  induction bars generalizing before with
  | nil => exact fun _ h => h
  | cons bar bars ih =>
    intro b hb
    rw [newer] at hb
    split at hb
    · rcases List.mem_cons.mp hb with rfl | hb
      · exact List.mem_cons_self
      · exact List.mem_cons_of_mem _ (ih b hb)
    · exact List.mem_cons_of_mem _ (ih b hb)

theorem newer_ascending (bars : List Bar) : Ascending (newer [] bars) := by
  induction bars using List.reverseRecOn with
  | nil => exact List.Pairwise.nil
  | append_singleton bars bar ih =>
    rw [newer_snoc]
    split
    case isTrue hnew =>
      refine List.pairwise_append.mpr ⟨ih, List.pairwise_singleton _ _, fun b hb c hc => ?_⟩
      rw [List.mem_singleton.mp hc]
      exact hnew b (newer_subset b hb)
    case isFalse => rwa [List.append_nil]

end Newer

-- ============================================================================
-- The aggregator keeps up with the list
-- ============================================================================

/-- After these bars, of which these have been completed, the aggregator builds the bar of
    the last slot and keeps the last completed ones. -/
structure Tracks (targetSeconds : ℕ+) (lookbackBars : ℕ) (bars done : List Bar) (a : BarAggregator) : Prop where
  target : a.targetSeconds = targetSeconds
  lookback : a.lookbackBars = lookbackBars
  seen : ∀ bar, a.seen bar ↔ ¬ ∀ b ∈ bars, b.time < bar.time
  returned : done = (slotBars targetSeconds (newer [] bars)).dropLast
  building : a.current = (slotBars targetSeconds (newer [] bars)).getLast?
  completed : a.completed = done.rtake lookbackBars

section Tracking

variable {targetSeconds : ℕ+} {lookbackBars : ℕ} {bars done : List Bar} {a : BarAggregator}

theorem tracks_fresh : Tracks targetSeconds lookbackBars [] [] (fresh targetSeconds lookbackBars) where
  target := rfl
  lookback := rfl
  seen bar := by simp [seen, fresh]
  returned := rfl
  building := rfl
  completed := (List.rtake_nil lookbackBars).symm

theorem appendBounded_rtake (n : ℕ) (xs : List Bar) (x : Bar) :
    appendBounded n (xs.rtake n) x = (xs ++ [x]).rtake n := by
  change (xs.rtake n ++ [x]).rtake n = _
  cases n with
  | zero => rw [List.rtake_zero, List.rtake_zero]
  | succ n =>
    rw [List.rtake_concat_succ, List.rtake_concat_succ]
    simp [List.rtake_eq_reverse_take_reverse, List.take_take]

theorem foldl_appendBounded (n : ℕ) (ys : List Bar) :
    ∀ xs : List Bar, ys.foldl (appendBounded n) (xs.rtake n) = (xs ++ ys).rtake n := by
  induction ys with
  | nil => simp
  | cons y ys ih =>
    intro xs
    rw [List.foldl_cons, appendBounded_rtake, ih, ← List.append_cons]

@[simp] theorem build_lookbackBars (a : BarAggregator) (slot : Datetime) (bar : Bar) :
    (a.build slot bar).lookbackBars = a.lookbackBars := by unfold build; split <;> rfl

@[simp] theorem build_completed (a : BarAggregator) (slot : Datetime) (bar : Bar) :
    (a.build slot bar).completed = a.completed := by unfold build; split <;> rfl

/-- What a bar completes is kept. -/
theorem addBar_completed (a : BarAggregator) (bar : Bar) :
    (a.addBar bar).1.lookbackBars = a.lookbackBars ∧
      (a.addBar bar).1.completed = (a.addBar bar).2.foldl (appendBounded a.lookbackBars) a.completed := by
  unfold addBar
  split
  · exact ⟨rfl, rfl⟩
  · dsimp only
    split
    · simp [finalize]
    · simp

/-- A bar that has been seen does not count. -/
theorem Tracks.skip (h : Tracks targetSeconds lookbackBars bars done a) {bar : Bar} (hseen : a.seen bar) :
    Tracks targetSeconds lookbackBars (bars ++ [bar]) done a := by
  have hold := (h.seen bar).mp hseen
  have hnewer : newer [] (bars ++ [bar]) = newer [] bars := by
    rw [newer_snoc, if_neg hold, List.append_nil]
  refine { h with seen := fun other => ?_, returned := hnewer ▸ h.returned, building := hnewer ▸ h.building }
  rw [h.seen, not_iff_not]
  constructor
  · intro hall b hb
    rcases List.mem_append.mp hb with hb | hb
    · exact hall b hb
    · -- the bar is no newer than one that came before it
      rw [List.mem_singleton.mp hb]
      obtain ⟨c, hc, hle⟩ := not_forall₂.mp hold
      exact lt_of_le_of_lt (not_lt.mp hle) (hall c hc)
  · exact fun hall b hb => hall b (List.mem_append_left _ hb)

/-- What a bar that has not been seen does to the bars of the slots. -/
theorem addBar_slotBars (h : Tracks targetSeconds lookbackBars bars done a) {bar : Bar} (hnew : ¬ a.seen bar) :
    done ++ (a.addBar bar).2 = (slotBars targetSeconds (newer [] (bars ++ [bar]))).dropLast ∧
      (a.addBar bar).1.current = (slotBars targetSeconds (newer [] (bars ++ [bar]))).getLast? := by
  have hslot : slotStart a.targetSeconds bar.time = slotOf targetSeconds bar := by rw [h.target, slotOf]
  have hall := not_not.mp (mt (h.seen bar).mpr hnew)
  have hcounts : newer [] (bars ++ [bar]) = newer [] bars ++ [bar] := by rw [newer_snoc, if_pos hall]
  have hascend := newer_ascending (bars ++ [bar])
  rw [hcounts] at hascend ⊢
  by_cases hmem : slotOf targetSeconds bar ∈ slots targetSeconds (newer [] bars)
  · obtain ⟨earlier, current, hbefore, hstamp, hafter⟩ := slotBars_snoc_same hascend hmem
    have hcurrent : a.current = some current := by rw [h.building, hbefore, List.getLast?_concat]
    obtain ⟨hdone, hnext⟩ := addBar_extend hnew hcurrent (hslot ▸ hstamp)
    rw [hdone, hnext, hafter, h.returned, hbefore]
    simp
  · rw [slotBars_snoc_new hmem, List.dropLast_concat, List.getLast?_concat]
    cases hcurrent : a.current with
    | none =>
      obtain ⟨hdone, hnext⟩ := addBar_first hnew hcurrent
      have hnone : slotBars targetSeconds (newer [] bars) = [] :=
        List.getLast?_eq_none_iff.mp (h.building.symm.trans hcurrent)
      rw [hdone, hnext, hslot, h.returned, hnone]
      exact ⟨rfl, rfl⟩
    | some current =>
      have hlast := h.building.symm.trans hcurrent
      have hother : current.timestampUtc ≠ .datetime (slotStart a.targetSeconds bar.time) := by
        intro hstamp
        have hin := List.mem_map_of_mem (f := (·.timestampUtc)) (List.mem_of_getLast? hlast)
        rw [slotBars_timestamps, hstamp, hslot, List.mem_map] at hin
        obtain ⟨slot, hmem', heq⟩ := hin
        exact hmem (Timestamp.datetime.inj heq ▸ hmem')
      obtain ⟨hdone, hnext⟩ := addBar_roll hnew hcurrent hother
      rw [hdone, hnext, hslot, h.returned, List.dropLast_append_getLast? current hlast]
      exact ⟨rfl, rfl⟩

/-- One more bar. -/
theorem Tracks.addBar (h : Tracks targetSeconds lookbackBars bars done a) (bar : Bar) :
    Tracks targetSeconds lookbackBars (bars ++ [bar]) (done ++ (a.addBar bar).2) (a.addBar bar).1 := by
  by_cases hseen : a.seen bar
  · rw [addBar_seen hseen, List.append_nil]
    exact h.skip hseen
  · obtain ⟨hdone, hcurrent⟩ := addBar_slotBars h hseen
    obtain ⟨hlookback, hcompleted⟩ := addBar_completed a bar
    have hall := not_not.mp (mt (h.seen bar).mpr hseen)
    constructor
    case target => rw [addBar_targetSeconds, h.target]
    case lookback => rw [hlookback, h.lookback]
    case seen =>
      intro other
      simp only [BarAggregator.seen, addBar_lastSeenTs hseen, Option.mem_some_iff, exists_eq_left', not_forall]
      constructor
      · exact fun hle => ⟨bar, by simp, not_lt.mpr hle⟩
      · rintro ⟨b, hb, hle⟩
        rcases List.mem_append.mp hb with hb | hb
        · exact (not_lt.mp hle).trans (hall b hb).le
        · rw [← List.mem_singleton.mp hb]
          exact not_lt.mp hle
    case returned => exact hdone
    case building => exact hcurrent
    case completed =>
      rw [hcompleted, h.lookback, h.completed, foldl_appendBounded]

/-- Any list of bars. -/
theorem tracks_addBars (targetSeconds : ℕ+) (lookbackBars : ℕ) (bars : List Bar) :
    Tracks targetSeconds lookbackBars bars ((fresh targetSeconds lookbackBars).addBars bars).2
      ((fresh targetSeconds lookbackBars).addBars bars).1 := by
  induction bars using List.reverseRecOn with
  | nil => exact tracks_fresh
  | append_singleton bars bar ih =>
    rw [addBars_append, addBars_cons, addBars_nil, List.append_nil]
    exact ih.addBar bar

/-- The window is that of the bars returned. -/
theorem Tracks.getBarWindow (h : Tracks targetSeconds lookbackBars bars done a) :
    a.getBarWindow = if done.length < lookbackBars then none else some (done.rtake lookbackBars) := by
  have hlength : (done.rtake lookbackBars).length < lookbackBars ↔ done.length < lookbackBars := by
    rw [List.rtake, List.length_drop]
    omega
  simp only [BarAggregator.getBarWindow, h.completed, h.lookback, hlength]

end Tracking

-- ============================================================================
-- However the list is cut
-- ============================================================================

theorem addCalls_eq (calls : List (List Bar)) :
    ∀ a : BarAggregator, (a.addCalls calls).1 = (a.addBars calls.flatten).1 ∧
      (a.addCalls calls).2.flatten = (a.addBars calls.flatten).2 := by
  induction calls with
  | nil => exact fun _ => ⟨rfl, rfl⟩
  | cons bars calls ih =>
    intro a
    obtain ⟨hnext, hrest⟩ := ih (a.addBars bars).1
    rw [List.flatten_cons, addBars_append, addCalls, List.flatten_cons]
    exact ⟨hnext, congrArg _ hrest⟩

/-- In however many calls the bars are added, what is returned in all are the bars of the
    slots but the last, ascending, and the window has the last of them. -/
theorem addCalls_slotBars (targetSeconds : ℕ+) (lookbackBars : ℕ) (calls : List (List Bar)) :
    let bars := newer [] calls.flatten
    let returned := ((fresh targetSeconds lookbackBars).addCalls calls).2.flatten
    returned = (slotBars targetSeconds bars).dropLast ∧
      returned.map (·.timestampUtc) = (slots targetSeconds bars).dropLast.map .datetime ∧
      (slots targetSeconds bars).Pairwise (· < ·) ∧
      ((fresh targetSeconds lookbackBars).addCalls calls).1.getBarWindow =
        if returned.length < lookbackBars then none else some (returned.rtake lookbackBars) := by
  obtain ⟨hnext, hreturned⟩ := addCalls_eq calls (fresh targetSeconds lookbackBars)
  have htracks := tracks_addBars targetSeconds lookbackBars calls.flatten
  rw [← hnext, ← hreturned] at htracks
  refine ⟨htracks.returned, ?_, slots_ascend (newer_ascending _), htracks.getBarWindow⟩
  rw [htracks.returned, List.map_dropLast, List.map_dropLast, slotBars_timestamps]

end IbTrader.Bots.BarAggregator
