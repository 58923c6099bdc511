/-
  IbTrader.Bots.ChartEntryRules

  What the entries of the chart-signal bot have passed.

  A bar confirms one pivot at most, so only one side has a candidate.  Its filters are then
  gates of that candidate (`decideEntry_of_found`), and a bot that makes marginal entries
  makes all those it would make without, and tags the others with the filters that would
  have stopped them (`marginal_mode`).  Of every entry it is known what its line looks like
  (`entry_checked`), and where the line is from then on (`frozen_line`).
-/

import IbTrader.Bots.ChartEntry

namespace IbTrader.Bots.ChartSignal

open Lib Signals.SrFan

-- ============================================================================
-- One side
-- ============================================================================

section Candidates

variable {config : EntryRules} {closes : List ℚ} {d : Direction} {c : Candidate} {l : TrendLine}

theorem mem_sidePivots {i : ℕ} (h : i ∈ sidePivots closes d) : further d (close closes (i - 1)) (close closes i) := by
  cases d with
  | long =>
    have hpivot := of_decide_eq_true (List.mem_filter.mp h).2
    exact decide_eq_true hpivot.1.1
  | short =>
    have hpivot := of_decide_eq_true (List.mem_filter.mp h).2
    exact decide_eq_true hpivot.1.1

/-- No bar is a pivot of both sides. -/
theorem not_mem_sidePivots_opposite {i : ℕ} (h : i ∈ sidePivots closes d) : i ∉ sidePivots closes (opposite d) := by
  intro hother
  have hfurther := mem_sidePivots h
  have hback := mem_sidePivots hother
  cases d with
  | long => exact lt_asymm (of_decide_eq_true hfurther) (of_decide_eq_true hback)
  | short => exact lt_asymm (of_decide_eq_true hfurther) (of_decide_eq_true hback)

/-- What the loop finds. -/
theorem touchScan_eq_some {lines : List TrendLine} (h : (touchScan config closes d lines).1 = some c) :
    c.path = .touch ∧ c.line ∈ lines ∧ c.line.breakIdx = none ∧ hasNewTouch config closes d c.line = true ∧
      spacingRejects config closes d c.line = false := by
  induction lines with
  | nil => cases h
  | cons l lines ih =>
    have hlater (h : (touchScan config closes d lines).1 = some c) : c.path = .touch ∧ c.line ∈ l :: lines ∧
        c.line.breakIdx = none ∧ hasNewTouch config closes d c.line = true ∧
        spacingRejects config closes d c.line = false :=
      ⟨(ih h).1, List.mem_cons_of_mem l (ih h).2.1, (ih h).2.2⟩
    unfold touchScan at h
    split at h
    · exact hlater h
    split at h
    · exact hlater h
    split at h
    · exact hlater h
    rename_i hbroken htouch hspacing
    obtain rfl := Option.some.inj h
    exact ⟨rfl, List.mem_cons_self, by simpa using hbroken, by simpa using htouch, by simpa using hspacing⟩

/-- What the acceleration is made of. -/
structure Accelerated (config : EntryRules) (closes : List ℚ) (d : Direction) (l : TrendLine) : Prop where
  /-- It leaves the last two pivots of its side before it. -/
  pivot : newPivotIdx closes ∈ sidePivots closes d
  base : ∃ q p rest, ((sidePivots closes d).filter (· < newPivotIdx closes)).reverse = p :: q :: rest ∧ q < p ∧
    p < newPivotIdx closes ∧ l = baseLine closes d q p
  fresh : (lastBar closes : ℤ) - windowBars config ≤ l.fromIdx
  away : accelerates config closes d l = true

theorem find2PivotAccel_eq_some (h : find2PivotAccel config closes = some (d, l)) : Accelerated config closes d l := by
  unfold find2PivotAccel at h
  obtain ⟨d', hd', h⟩ := Option.bind_eq_some_iff.mp h
  have hpivot : newPivotIdx closes ∈ sidePivots closes d' := by
    split at hd'
    case isTrue hlong => exact (Option.some.inj hd') ▸ hlong
    case isFalse =>
      split at hd'
      case isTrue hshort => exact (Option.some.inj hd') ▸ hshort
      case isFalse => cases hd'
  split at h
  case h_2 => cases h
  rename_i p q rest hpivots
  split at h
  · cases h
  rename_i hfresh
  split at h
  · cases h
  rename_i horder
  split at h
  case isFalse => cases h
  case isTrue haway =>
    obtain ⟨rfl, rfl⟩ := Prod.mk.injEq .. ▸ Option.some.inj h
    exact ⟨hpivot, ⟨q, p, rest, hpivots, by omega, by omega, rfl⟩, not_lt.mp hfresh, haway⟩

/-- A candidate is found by the loop, or accelerates where the loop finds none. -/
theorem findCandidates_cases (h : (findCandidates config closes).1 d = some c) :
    (touchScan config closes d (candidateLines config closes d)).1 = some c ∨
      (touchScan config closes d (candidateLines config closes d)).1 = none ∧ c.path = .accel ∧
        config.accelerationEntryEnabled = true ∧ Accelerated config closes d c.line ∧
        spacingRejects config closes d c.line = false := by
  unfold findCandidates at h
  dsimp only at h
  split at h
  case h_1 => exact .inl h
  case h_2 d' l hfound =>
    obtain ⟨henabled, hfound⟩ : config.accelerationEntryEnabled = true ∧ find2PivotAccel config closes = some (d', l) := by
      split at hfound
      case isTrue henabled => exact ⟨henabled, hfound⟩
      case isFalse => cases hfound
    split at h
    case isTrue => exact .inl h
    case isFalse hspacing =>
      split at h
      case isFalse => exact .inl h
      case isTrue hnone =>
        dsimp only at h
        by_cases hd : d = d'
        · subst hd
          rw [Function.update_self] at h
          obtain rfl := Option.some.inj h
          exact .inr ⟨hnone, rfl, henabled, find2PivotAccel_eq_some hfound, by simpa using hspacing⟩
        · exact .inl (by rwa [Function.update_of_ne hd] at h)

/-- The bar confirms a pivot of the side that has a candidate. -/
theorem newPivotIdx_mem (h : (findCandidates config closes).1 d = some c) :
    newPivotIdx closes ∈ sidePivots closes d := by
  rcases findCandidates_cases h with htouch | ⟨-, -, -, haccel, -⟩
  · obtain ⟨-, -, -, htouch, -⟩ := touchScan_eq_some htouch
    exact (of_decide_eq_true htouch).1
  · exact haccel.pivot

/-- Only one side has a candidate. -/
theorem findCandidates_opposite (h : (findCandidates config closes).1 d = some c) :
    (findCandidates config closes).1 (opposite d) = none := by
  rw [Option.eq_none_iff_forall_ne_some]
  exact fun other hother => not_mem_sidePivots_opposite (newPivotIdx_mem h) (newPivotIdx_mem hother)

end Candidates

-- ============================================================================
-- Gates of the candidate
-- ============================================================================

section Gates

variable {s : Sides} {d : Direction} {c : Candidate} {names ns : List EntryFilter} {allow : Bool}

/-- The row of a filter that is bypassed. -/
def bypassRow (f : EntryFilter) : Row := .skip (some f) true

/-- Only this side has a line, with these tags, and the rows are theirs. -/
structure Sides.Only (s : Sides) (d : Direction) (c : Candidate) (names : List EntryFilter) : Prop where
  here : s.side d = { candidate := some c, bypassed := names }
  other : (s.side (opposite d)).candidate = none
  rows : s.rows = names.map bypassRow

/-- No side has a line. -/
def Sides.Empty (s : Sides) : Prop := ∀ d, (s.side d).candidate = none

namespace SideFilter

variable {f : SideFilter}

/-- The filter as a gate of one line. -/
def gate (f : SideFilter) (d : Direction) (l : TrendLine) : Gate EntryFilter where
  name := f.name
  violated := f.violated d l

theorem hits_of_none {side : Side} (h : side.candidate = none) : f.hits d side = false := by
  unfold hits
  rw [h, Option.any_none]

theorem empty_apply (h : s.Empty) : (f.apply allow s).Empty := by
  intro d
  show (if f.hits d (s.side d) then f.reject allow (s.side d) else s.side d).candidate = none
  rw [hits_of_none (h d), if_neg Bool.false_ne_true]
  exact h d

theorem eq_or_eq_opposite (d d' : Direction) : d' = d ∨ d' = opposite d := by
  cases d <;> cases d' <;> decide

/-- The side that has a line is the only one that a filter can hit. -/
theorem hit_of_only (h : s.Only d c names) :
    ([.long, .short].filter fun d => f.hits d (s.side d)) = if f.violated d c.line then [d] else [] := by
  have hhere : f.hits d (s.side d) = f.violated d c.line := by rw [h.here]; rfl
  have hother : f.hits (opposite d) (s.side (opposite d)) = false := hits_of_none h.other
  cases d with
  | long =>
    have hshort : f.hits .short (s.side .short) = false := hother
    simp only [List.filter_cons, List.filter_nil, hhere, hshort, Bool.false_eq_true, if_false]
  | short =>
    have hlong : f.hits .long (s.side .long) = false := hother
    simp only [List.filter_cons, List.filter_nil, hhere, hlong, Bool.false_eq_true, if_false]

theorem only_apply (h : s.Only d c names) (hviolated : f.violated d c.line = false) : (f.apply allow s).Only d c names := by
  have hquiet : (f.apply allow s).side = s.side := by
    funext d'
    show (if f.hits d' (s.side d') then f.reject allow (s.side d') else s.side d') = s.side d'
    rcases eq_or_eq_opposite d d' with rfl | rfl
    · rw [show f.hits d' (s.side d') = f.violated d' c.line by rw [h.here]; rfl, hviolated, if_neg Bool.false_ne_true]
    · rw [hits_of_none h.other, if_neg Bool.false_ne_true]
  refine ⟨hquiet ▸ h.here, hquiet ▸ h.other, ?_⟩
  unfold apply
  dsimp only
  rw [hit_of_only h, hviolated, if_neg Bool.false_ne_true, h.rows]
  simp

theorem only_apply_violated (h : s.Only d c names) (hviolated : f.violated d c.line = true) :
    (f.apply true s).Only d c (names ++ [f.name]) := by
  have hhere : f.hits d (s.side d) = true := by rw [h.here]; exact hviolated
  refine ⟨?_, ?_, ?_⟩
  · show (if f.hits d (s.side d) then f.reject true (s.side d) else s.side d) = _
    rw [hhere, if_pos rfl, h.here]
    rfl
  · show (if f.hits (opposite d) (s.side (opposite d)) then f.reject true (s.side (opposite d)) else
      s.side (opposite d)).candidate = none
    rw [hits_of_none h.other, if_neg Bool.false_ne_true]
    exact h.other
  · unfold apply
    dsimp only
    rw [hit_of_only h, hviolated, if_pos rfl, h.rows]
    cases f.shared <;> simp [bypassRow]

theorem empty_apply_violated (h : s.Only d c names) (hviolated : f.violated d c.line = true) : (f.apply false s).Empty := by
  intro d'
  show (if f.hits d' (s.side d') then f.reject false (s.side d') else s.side d').candidate = none
  rcases eq_or_eq_opposite d d' with rfl | rfl
  · rw [show f.hits d' (s.side d') = true by rw [h.here]; exact hviolated, if_pos rfl]
    rfl
  · rw [hits_of_none h.other, if_neg Bool.false_ne_true]
    exact h.other

theorem empty_foldl (filters : List SideFilter) (h : s.Empty) : (filters.foldl (fun s f => f.apply allow s) s).Empty := by
  induction filters generalizing s with
  | nil => exact h
  | cons f filters ih => exact ih (empty_apply h)

/-- The filters before the choice are gates of the line that there is. -/
theorem foldl_apply (allow : Bool) (filters : List SideFilter) (h : s.Only d c names) :
    (∀ ns, Gate.pass allow (filters.map fun f => f.gate d c.line) = some ns →
        (filters.foldl (fun s f => f.apply allow s) s).Only d c (names ++ ns)) ∧
      (Gate.pass allow (filters.map fun f => f.gate d c.line) = none →
        (filters.foldl (fun s f => f.apply allow s) s).Empty) := by
  induction filters generalizing s names with
  | nil =>
    refine ⟨fun ns hns => ?_, fun hnone => absurd hnone (Option.some_ne_none _)⟩
    obtain rfl := Option.some.inj hns
    rwa [List.append_nil]
  | cons f filters ih =>
    rw [List.map_cons, List.foldl_cons, Gate.pass]
    cases hviolated : f.violated d c.line with
    | false =>
      rw [show (f.gate d c.line).violated = false from hviolated, if_neg Bool.false_ne_true]
      exact ih (only_apply h hviolated)
    | true =>
      rw [show (f.gate d c.line).violated = true from hviolated, if_pos rfl]
      cases allow with
      | false =>
        exact ⟨fun _ hns => absurd hns.symm (Option.some_ne_none _),
          fun _ => empty_foldl filters (empty_apply_violated h hviolated)⟩
      | true =>
        obtain ⟨hpassed, hstopped⟩ := ih (only_apply_violated h hviolated)
        rw [show (true && !(f.gate d c.line).hard) = true from rfl, if_pos rfl]
        refine ⟨fun ns hns => ?_, fun hnone => hstopped (Option.map_eq_none_iff.mp hnone)⟩
        obtain ⟨rest, hrest, rfl⟩ := Option.map_eq_some_iff.mp hns
        have honly := hpassed rest hrest
        rwa [List.append_assoc] at honly

end SideFilter

theorem choose_of_only (h : s.Only d c names) : choose s.side = some (d, c) := by
  have hhere : (s.side d).candidate = some c := by rw [h.here]
  have hother := h.other
  unfold choose
  cases d with
  | long => rw [hhere, show (s.side .short).candidate = none from hother]
  | short => rw [hhere, show (s.side .long).candidate = none from hother]

theorem choose_of_empty (h : s.Empty) : choose s.side = none := by
  unfold choose
  rw [h .long, h .short]

/-- Those after it are gates as they stand. -/
theorem foldlM_filter (allow : Bool) (gates : List (Gate EntryFilter)) (p : Progress) :
    (∀ ns, Gate.pass allow gates = some ns →
        gates.foldlM (Progress.filter allow) p = .ok { rows := p.rows ++ ns.map bypassRow, bypassed := p.bypassed ++ ns }) ∧
      (Gate.pass allow gates = none → ∃ rows, gates.foldlM (Progress.filter allow) p = .error rows) := by
  induction gates generalizing p with
  | nil =>
    refine ⟨fun ns hns => ?_, fun hnone => absurd hnone (Option.some_ne_none _)⟩
    obtain rfl := Option.some.inj hns
    rw [List.map_nil, List.append_nil, List.append_nil]
    rfl
  | cons g gates ih =>
    rw [List.foldlM_cons, Gate.pass]
    cases hviolated : g.violated with
    | false =>
      have hstep : p.filter allow g = .ok p := by rw [Progress.filter, hviolated, if_neg Bool.false_ne_true]
      rw [hstep, if_neg Bool.false_ne_true]
      exact ih p
    | true =>
      rw [if_pos rfl]
      cases hsoft : allow && !g.hard with
      | false =>
        have hstep : p.filter allow g = .error (p.rows ++ [.skip (some g.name) false]) := by
          rw [Progress.filter, hviolated, if_pos rfl, hsoft, if_neg Bool.false_ne_true]
        rw [hstep]
        exact ⟨fun _ hns => absurd hns.symm (Option.some_ne_none _), fun _ => ⟨_, rfl⟩⟩
      | true =>
        have hstep : p.filter allow g =
            .ok { rows := p.rows ++ [bypassRow g.name], bypassed := p.bypassed ++ [g.name] } := by
          rw [Progress.filter, hviolated, if_pos rfl, hsoft, if_pos rfl]
          rfl
        rw [hstep, if_pos rfl]
        obtain ⟨hpassed, hstopped⟩ := ih { rows := p.rows ++ [bypassRow g.name], bypassed := p.bypassed ++ [g.name] }
        refine ⟨fun ns hns => ?_, fun hnone => hstopped (Option.map_eq_none_iff.mp hnone)⟩
        obtain ⟨rest, hrest, rfl⟩ := Option.map_eq_some_iff.mp hns
        refine (hpassed rest hrest).trans ?_
        rw [List.append_assoc, List.append_assoc]
        rfl

end Gates

-- ============================================================================
-- Entries
-- ============================================================================

/-- The filters of a candidate, in their order. -/
def entryGates (config : EntryRules) (closes : List ℚ) (d : Direction) (l : TrendLine) : List (Gate EntryFilter) :=
  ((sideFilters config closes).map fun f => f.gate d l) ++ chosenGates config closes d l

/-- The line that an entry is made on. -/
def Entry.candidate (e : Entry) : Candidate := ⟨e.line, e.path⟩

/-- The entry of a candidate with these tags. -/
def entryOf (config : EntryConfig) (d : Direction) (c : Candidate) (names : List EntryFilter) : Option Entry :=
  if tooManyBypasses config names then none
  else some { direction := d, line := c.line, path := c.path, bypassed := names }

section Entries

variable {config : EntryConfig} {closes : List ℚ} {elapsed : ℚ} {d : Direction} {c : Candidate} {e : Entry}

/-- What becomes of the candidate after the choice; the rows of an entry are its tags. -/
theorem decideChosen_eq {p : Progress} (hp : p.rows = p.bypassed.map bypassRow) :
    (decideChosen config closes p d c).entry =
        (Gate.pass config.allowMarginalEntries (chosenGates config.toEntryRules closes d c.line)).bind
          (fun ns => entryOf config d c (p.bypassed ++ ns)) ∧
      ∀ e, (decideChosen config closes p d c).entry = some e →
        (decideChosen config closes p d c).rows = e.bypassed.map bypassRow := by
  obtain ⟨hpassed, hstopped⟩ :=
    foldlM_filter config.allowMarginalEntries (chosenGates config.toEntryRules closes d c.line) p
  unfold decideChosen
  cases hpass : Gate.pass config.allowMarginalEntries (chosenGates config.toEntryRules closes d c.line) with
  | none =>
    obtain ⟨rows, hrows⟩ := hstopped hpass
    rw [hrows]
    exact ⟨rfl, fun e he => nomatch he⟩
  | some ns =>
    rw [hpassed ns hpass, Option.bind_some, entryOf]
    dsimp only
    split
    · exact ⟨rfl, fun e he => nomatch he⟩
    · refine ⟨rfl, fun e he => ?_⟩
      obtain rfl := Option.some.inj he
      rw [hp, List.map_append]

/-- What becomes of the only candidate that there is. -/
theorem decideEntry_of_found (h : (findCandidates config.toEntryRules closes).1 d = some c) :
    (decideEntry config closes elapsed).entry =
        (if config.maxSignalAgeSeconds < elapsed then none
         else (Gate.pass config.allowMarginalEntries (entryGates config.toEntryRules closes d c.line)).bind
          (entryOf config d c)) ∧
      ∀ e, (decideEntry config closes elapsed).entry = some e →
        (decideEntry config closes elapsed).rows = e.bypassed.map bypassRow := by
  have hsome : ¬ ((findCandidates config.toEntryRules closes).1 .long = none ∧
      (findCandidates config.toEntryRules closes).1 .short = none ∧ (findCandidates config.toEntryRules closes).2 = true) := by
    rintro ⟨hlong, hshort, -⟩
    cases d with
    | long => exact Option.some_ne_none c (h.symm.trans hlong)
    | short => exact Option.some_ne_none c (h.symm.trans hshort)
  have honly : Sides.Only { side := fun d => { candidate := (findCandidates config.toEntryRules closes).1 d } } d c [] :=
    { here := congrArg (fun candidate => ({ candidate } : Side)) h
      other := findCandidates_opposite h
      rows := rfl }
  obtain ⟨hpassed, hstopped⟩ :=
    SideFilter.foldl_apply config.allowMarginalEntries (sideFilters config.toEntryRules closes) honly
  unfold decideEntry
  dsimp only
  rw [if_neg hsome, entryGates, Gate.pass_append]
  cases hpass : Gate.pass config.allowMarginalEntries
      ((sideFilters config.toEntryRules closes).map fun f => f.gate d c.line) with
  | none =>
    rw [choose_of_empty (hstopped hpass), Option.bind_none, Option.bind_none, ite_self]
    exact ⟨rfl, fun e he => nomatch he⟩
  | some names =>
    have hsides := hpassed names hpass
    rw [List.nil_append] at hsides
    rw [choose_of_only hsides, Option.bind_some]
    simp only [hsides.here, hsides.rows]
    split
    · exact ⟨rfl, fun e he => nomatch he⟩
    · obtain ⟨hentry, hrows⟩ := @decideChosen_eq config closes d c ⟨names.map bypassRow, names⟩ rfl
      refine ⟨hentry.trans ?_, hrows⟩
      cases Gate.pass config.allowMarginalEntries (chosenGates config.toEntryRules closes d c.line) <;> rfl

/-- Where there is none, nothing is entered. -/
theorem decideEntry_of_none (h : ∀ d, (findCandidates config.toEntryRules closes).1 d = none) :
    (decideEntry config closes elapsed).entry = none := by
  have hempty : Sides.Empty { side := fun d => { candidate := (findCandidates config.toEntryRules closes).1 d } } := h
  unfold decideEntry
  dsimp only
  split
  · rfl
  · rw [choose_of_empty (SideFilter.empty_foldl _ hempty)]

/-- What an entry is made of. -/
structure Entry.Admitted (config : EntryConfig) (closes : List ℚ) (elapsed : ℚ) (e : Entry) : Prop where
  found : (findCandidates config.toEntryRules closes).1 e.direction = some e.candidate
  fresh : elapsed ≤ config.maxSignalAgeSeconds
  passed : Gate.pass config.allowMarginalEntries (entryGates config.toEntryRules closes e.direction e.line) = some e.bypassed
  capped : tooManyBypasses config e.bypassed = false

theorem entry_iff : (decideEntry config closes elapsed).entry = some e ↔ e.Admitted config closes elapsed := by
  constructor
  · intro hentry
    by_cases hnone : ∀ d, (findCandidates config.toEntryRules closes).1 d = none
    · rw [decideEntry_of_none hnone] at hentry
      cases hentry
    · obtain ⟨d, hd⟩ := not_forall.mp hnone
      obtain ⟨c, hc⟩ := Option.ne_none_iff_exists'.mp hd
      rw [(decideEntry_of_found hc).1] at hentry
      split at hentry
      · cases hentry
      · rename_i hfresh
        obtain ⟨names, hpass, hmade⟩ := Option.bind_eq_some_iff.mp hentry
        unfold entryOf at hmade
        split at hmade
        · cases hmade
        · rename_i hcap
          obtain rfl := Option.some.inj hmade
          exact ⟨hc, not_lt.mp hfresh, hpass, Bool.eq_false_iff.mpr hcap⟩
  · rintro ⟨hfound, hfresh, hpassed, hcapped⟩
    rw [(decideEntry_of_found hfound).1, if_neg (not_lt.mpr hfresh)]
    refine Option.bind_eq_some_iff.mpr ⟨e.bypassed, hpassed, ?_⟩
    rw [entryOf, hcapped, if_neg Bool.false_ne_true]
    rfl

end Entries

-- ============================================================================
-- What an entry has passed
-- ============================================================================

section Checked

variable {config : EntryRules} {closes : List ℚ} {d : Direction} {c : Candidate} {l : TrendLine}

theorem further_asymm {x y : ℚ} (h : further d x y = true) : further d y x = false := by
  cases d with
  | long => exact decide_eq_false (lt_asymm (of_decide_eq_true h))
  | short => exact decide_eq_false (lt_asymm (of_decide_eq_true h))

/-- The lines that the loop goes through. -/
theorem mem_candidateLines (h : l ∈ candidateLines config closes d) :
    l ∈ sideLines config closes d ∧ minTouches ≤ l.touches ∧ further d l.slope 0 = true := by
  unfold candidateLines at h
  rw [List.mem_insertionSort, List.mem_filter] at h
  have hkept := of_decide_eq_true h.2
  exact ⟨h.1, hkept.1, hkept.2⟩

/-- How a candidate was found. -/
structure Touched (config : EntryRules) (closes : List ℚ) (d : Direction) (l : TrendLine) : Prop where
  detected : l ∈ sideLines config closes d
  touches : minTouches ≤ l.touches
  unbroken : l.breakIdx = none
  touch : onLine config closes l (newPivotIdx closes) = true

theorem found_cases (h : (findCandidates config closes).1 d = some c) :
    (c.path = .touch ∧ Touched config closes d c.line ∨
        c.path = .accel ∧ config.accelerationEntryEnabled = true ∧ Accelerated config closes d c.line) ∧
      further d c.line.slope 0 = true ∧ spacingRejects config closes d c.line = false := by
  rcases findCandidates_cases h with htouch | ⟨-, hpath, henabled, haccel, hspacing⟩
  · obtain ⟨hpath, hline, hbroken, htouch, hspacing⟩ := touchScan_eq_some htouch
    obtain ⟨hdetected, htouches, hslope⟩ := mem_candidateLines hline
    exact ⟨.inl ⟨hpath, hdetected, htouches, hbroken, (of_decide_eq_true htouch).2⟩, hslope, hspacing⟩
  · exact ⟨.inr ⟨hpath, henabled, haccel⟩, (of_decide_eq_true haccel.away).1, hspacing⟩

/-- No candidate is against the trend of its own line, so that filter stops nothing. -/
theorem counterTrend_idle (h : (findCandidates config closes).1 d = some c) :
    counterTrendViolated config d c.line = false := by
  have hslope := (found_cases h).2.1
  unfold counterTrendViolated
  rw [further_asymm hslope]
  simp

theorem joins_of_found (h : (findCandidates config closes).1 d = some c) :
    c.line.valueAt c.line.fromIdx = close closes c.line.fromIdx ∧
      c.line.valueAt c.line.anchorBIdx = close closes c.line.anchorBIdx := by
  rcases (found_cases h).1 with ⟨-, htouched⟩ | ⟨-, -, haccel⟩
  · obtain ⟨earlier, hemitted⟩ := emitted_of_mem_detectLines htouched.detected
    exact hemitted.joins
  · obtain ⟨q, p, rest, -, hqp, -, hline⟩ := haccel.base
    rw [hline]
    exact joins_of_slope hqp rfl rfl

end Checked

section Entries

variable {config : EntryConfig} {closes : List ℚ} {elapsed : ℚ} {e : Entry}

/-- What is known of an entry, marginal or not. -/
structure Entry.Checked (config : EntryRules) (closes : List ℚ) (e : Entry) : Prop where
  /-- The bar has confirmed a pivot of its side. -/
  confirmed : newPivotIdx closes ∈ sidePivots closes e.direction
  /-- Its line goes its way, and through two closes. -/
  slope : further e.direction e.line.slope 0 = true
  joins : e.line.valueAt e.line.fromIdx = close closes e.line.fromIdx ∧
    e.line.valueAt e.line.anchorBIdx = close closes e.line.anchorBIdx
  path : e.path = .touch ∧ Touched config closes e.direction e.line ∨
    e.path = .accel ∧ config.accelerationEntryEnabled = true ∧ Accelerated config closes e.direction e.line
  spaced : spacingRejects config closes e.direction e.line = false
  near : farFromPivotViolated config closes e.line = false
  current : staleLineViolated config closes e.direction e.line = false
  /-- Unless it is tagged, no wedge closes in on it. -/
  room : .tightTriangle ∉ e.bypassed → 0 < config.entryTriangleBlockDistance →
    ∀ w ∈ entryWedges config closes, config.entryTriangleBlockDistance < w.apexBarsAhead

theorem Entry.Admitted.not_violated (h : e.Admitted config closes elapsed) {g : Gate EntryFilter}
    (hg : g ∈ entryGates config.toEntryRules closes e.direction e.line) (hfree : g.hard = true ∨ g.name ∉ e.bypassed) :
    g.violated = false := by
  by_contra hviolated
  obtain ⟨hname, hsoft⟩ := Gate.name_mem_of_pass h.passed hg (Bool.not_eq_false _ ▸ hviolated)
  rcases hfree with hhard | hfree
  · exact Bool.false_ne_true (hsoft.symm.trans hhard)
  · exact hfree hname

/-- The nearest wedge is the one that the filter looks at. -/
theorem room_of_not_violated {config : EntryRules} (h : triangleViolated config closes = false)
    (hdistance : 0 < config.entryTriangleBlockDistance) :
    ∀ w ∈ entryWedges config closes, config.entryTriangleBlockDistance < w.apexBarsAhead := by
  intro w hw
  obtain ⟨nearest, hhead⟩ : ∃ nearest, (entryWedges config closes).head? = some nearest := by
    cases hwedges : entryWedges config closes with
    | nil => rw [hwedges] at hw; cases hw
    | cons nearest rest => exact ⟨nearest, rfl⟩
  have hfar : config.entryTriangleBlockDistance < nearest.apexBarsAhead := by
    by_contra hnear
    unfold triangleViolated at h
    rw [hhead] at h
    exact of_decide_eq_false h ⟨hdistance, decide_eq_true (not_lt.mp hnear)⟩
  exact hfar.trans_le (head_findWedges_le hhead hw)

theorem entry_checked (h : (decideEntry config closes elapsed).entry = some e) :
    e.Checked config.toEntryRules closes := by
  have hadmitted := entry_iff.mp h
  have hnear : ⟨.farFromPivot, true, farFromPivotViolated config.toEntryRules closes e.line⟩ ∈
      entryGates config.toEntryRules closes e.direction e.line :=
    List.mem_append_right _ (List.mem_cons_of_mem _ List.mem_cons_self)
  have hcurrent : ⟨.staleLine, true, staleLineViolated config.toEntryRules closes e.direction e.line⟩ ∈
      entryGates config.toEntryRules closes e.direction e.line :=
    List.mem_append_right _ (List.mem_cons_of_mem _ (List.mem_cons_of_mem _ List.mem_cons_self))
  have hroom : ⟨.tightTriangle, false, triangleViolated config.toEntryRules closes⟩ ∈
      entryGates config.toEntryRules closes e.direction e.line :=
    List.mem_append_left _ (List.mem_cons_of_mem _ List.mem_cons_self)
  obtain ⟨hpath, hslope, hspacing⟩ := found_cases hadmitted.found
  exact
    { confirmed := newPivotIdx_mem hadmitted.found
      slope := hslope
      joins := joins_of_found hadmitted.found
      path := hpath
      spaced := hspacing
      near := hadmitted.not_violated hnear (.inl rfl)
      current := hadmitted.not_violated hcurrent (.inl rfl)
      room := fun hfree => room_of_not_violated (hadmitted.not_violated hroom (.inr hfree)) }

/-- What is known of the tags of an entry. -/
structure Entry.Tagged (config : EntryRules) (cap : ℤ) (closes : List ℚ) (e : Entry) : Prop where
  /-- They are the filters that it violates. -/
  violated : e.bypassed = ((entryGates config closes e.direction e.line).filter Gate.violated).map Gate.name
  bypassable : ∀ f ∈ e.bypassed, f ∈ [EntryFilter.shoulder, .tightTriangle, .minTarget, .opposingDominance]
  capped : e.bypassed = [] ∨ (e.bypassed.length : ℤ) ≤ cap

/-- Marginal mode makes the entries that are made without it, and of the others those whose
    violated filters are few enough and none of them hard; the rows are those of its tags. -/
theorem marginal_mode (config : EntryRules) (cap : ℤ) (closes : List ℚ) (elapsed : ℚ) (e : Entry) :
    ((decideEntry ⟨config, false, cap⟩ closes elapsed).entry = some e ↔
        (decideEntry ⟨config, true, cap⟩ closes elapsed).entry = some e ∧ e.bypassed = []) ∧
      ((decideEntry ⟨config, true, cap⟩ closes elapsed).entry = some e → e.Tagged config cap closes ∧
        (decideEntry ⟨config, true, cap⟩ closes elapsed).rows = e.bypassed.map bypassRow) := by
  refine ⟨⟨fun h => ?_, fun ⟨h, hnone⟩ => ?_⟩, fun h => ?_⟩
  · have hadmitted := entry_iff.mp h
    obtain ⟨hpassed, hnone⟩ := Gate.pass_strict_eq_some_iff.mp hadmitted.passed
    exact ⟨entry_iff.mpr ⟨hadmitted.found, hadmitted.fresh, hnone ▸ hpassed, hadmitted.capped⟩, hnone⟩
  · have hadmitted := entry_iff.mp h
    have hpassed := Gate.pass_strict_eq_some_iff.mpr ⟨hnone ▸ hadmitted.passed, hnone⟩
    exact entry_iff.mpr ⟨hadmitted.found, hadmitted.fresh, hpassed, hadmitted.capped⟩
  · have hadmitted := entry_iff.mp h
    obtain ⟨hhard, hviolated⟩ := Gate.pass_lenient_eq_some_iff.mp hadmitted.passed
    refine ⟨⟨hviolated, fun f hf => ?_, ?_⟩, (decideEntry_of_found hadmitted.found).2 e h⟩
    · rw [hviolated] at hf
      obtain ⟨g, hg, rfl⟩ := List.mem_map.mp hf
      obtain ⟨hg, hbroken⟩ := List.mem_filter.mp hg
      have hsoft : g.hard = false :=
        Bool.eq_false_iff.mpr fun h => Bool.false_ne_true ((hhard g hg h).symm.trans hbroken)
      have hidle := counterTrend_idle hadmitted.found
      rcases List.mem_append.mp hg with hside | hchosen
      · obtain ⟨filter, hfilter, rfl⟩ := List.mem_map.mp hside
        simp only [sideFilters, List.mem_cons, List.not_mem_nil, or_false] at hfilter
        rcases hfilter with rfl | rfl | rfl <;> simp [SideFilter.gate]
      · simp only [chosenGates, List.mem_cons, List.not_mem_nil, or_false] at hchosen
        rcases hchosen with rfl | rfl | rfl | rfl
        · exact absurd (hidle.symm.trans hbroken) Bool.false_ne_true
        · cases hsoft
        · cases hsoft
        · simp
    · have hcap := of_decide_eq_false hadmitted.capped
      by_cases hnone : e.bypassed = []
      · exact .inl hnone
      · exact .inr (not_lt.mp fun hlt => hcap ⟨hnone, hlt⟩)

end Entries

-- ============================================================================
-- The line of an entry
-- ============================================================================

section Frozen

variable {config : EntryConfig} {window : List ChartBar} {elapsed : ℚ} {e : Entry}

theorem lt_of_mem_sidePivots {closes : List ℚ} {d : Direction} {i : ℕ} (h : i ∈ sidePivots closes d) :
    i < closes.length := by
  have hrange : i ∈ List.range' 1 (closes.length - 2) := by
    cases d with
    | long => exact List.mem_of_mem_filter h
    | short => exact List.mem_of_mem_filter h
  have hbounds := List.mem_range'_1.mp hrange
  omega

/-- The anchor of its line is a bar of the window. -/
theorem Entry.Checked.anchor_lt {config : EntryRules} {closes : List ℚ} (h : e.Checked config closes) :
    e.line.anchorBIdx < closes.length := by
  rcases h.path with ⟨-, htouched⟩ | ⟨-, -, haccel⟩
  · obtain ⟨earlier, hemitted⟩ := emitted_of_mem_detectLines htouched.detected
    exact lt_of_mem_sidePivots hemitted.anchors.2.1
  · obtain ⟨q, p, rest, -, -, hlt, hline⟩ := haccel.base
    rw [hline]
    exact hlt.trans (lt_of_mem_sidePivots haccel.pivot)

/-- The time of a bar of a window without gaps. -/
def barAt (config : EntryRules) (start : Datetime) (i : ℕ) : Datetime := start + i * ((config.barSeconds : ℕ) * 1000000)

theorem secondsSince_barAt (config : EntryRules) (start : Datetime) (i k : ℕ) :
    secondsSince (barAt config start i) (barAt config start k) = ((k : ℚ) - i) * (config.barSeconds : ℕ) := by
  unfold secondsSince barAt
  push_cast
  ring

/-- The line that an exit is evaluated on, bar after bar, is the one that was entered on. -/
theorem frozen_line (start barTime : Datetime) (doc : Doc) (k : ℕ)
    (hentry : (decideEntry config (window.map ChartBar.close) elapsed).entry = some e)
    (htimes : window.map ChartBar.time = (List.range window.length).map fun i => some (barAt config.toEntryRules start i))
    (hpositive : 0 < close (window.map ChartBar.close) e.line.anchorBIdx)
    (hage : ((k : ℚ) - e.line.anchorBIdx) * (config.barSeconds : ℕ) ≤ config.entryLineMaxAgeHours * 3600) :
    projectedLine config.toConfig { doc with entryLine := some (freeze config.toEntryRules window barTime e) }
      (barAt config.toEntryRules start k) = some (e.line.valueAt k) := by
  have hchecked := entry_checked hentry
  have hlt : e.line.anchorBIdx < window.length := List.length_map ChartBar.close ▸ hchecked.anchor_lt
  have htime := congrArg (fun times => times[e.line.anchorBIdx]?) htimes
  rw [List.getElem?_map, List.getElem?_map, List.getElem?_range hlt, List.getElem?_eq_getElem hlt] at htime
  have hprice : (freeze config.toEntryRules window barTime e).anchorPrice =
      close (window.map ChartBar.close) e.line.anchorBIdx := rfl
  have hanchor : (freeze config.toEntryRules window barTime e).anchorTime =
      some (barAt config.toEntryRules start e.line.anchorBIdx) := by
    show some ((window[e.line.anchorBIdx]?.bind ChartBar.time).getD barTime) = _
    rw [List.getElem?_eq_getElem hlt, Option.bind_some, Option.some.inj htime, Option.getD_some]
  have hseconds : ((config.barSeconds : ℕ) : ℚ) ≠ 0 := by exact_mod_cast config.barSeconds.ne_zero
  unfold projectedLine
  dsimp only
  rw [hanchor]
  dsimp only
  rw [hprice, if_neg (not_le.mpr hpositive), secondsSince_barAt, if_neg (not_lt.mpr hage)]
  have hvalue := hchecked.joins.2
  unfold TrendLine.valueAt at hvalue ⊢
  unfold freeze
  dsimp only
  rw [← hvalue]
  field_simp
  ring_nf

/-- A bar every three minutes, at each price. -/
def windowAt (prices : List ℚ) : List ChartBar :=
  prices.mapIdx fun i price => ⟨"", some (barAt { symbol := "MES" } 0 i), price, price, price⟩

/-- Three lows that rise by the same, and a shoulder on either side of the last one. -/
def risingWindow : List ChartBar := windowAt [5001, 5000, 5004, 5003, 5007, 5006, 5009]

/-- The entry at its last bar. -/
def risingEntry : Entry where
  direction := .long
  line := ⟨.support, 1, 5, 6, 3 / 2, 9997 / 2, 3, none, some 5⟩
  path := .touch
  bypassed := []

theorem frozen_line_rising :
    projectedLine {} { entryLine := some (freeze { symbol := "MES" } risingWindow 0 risingEntry) }
      (barAt { symbol := "MES" } 0 9) = some (risingEntry.line.valueAt (9 : ℕ)) :=
  @frozen_line { symbol := "MES" } risingWindow 3 risingEntry 0 0 {} 9 (by decide +kernel) (by decide +kernel)
    (by decide +kernel) (by decide +kernel)

end Frozen

-- ============================================================================
-- Orders
-- ============================================================================

section Orders

variable {config : EntryConfig} {closes : List ℚ} {e : Entry}

theorem sideInPlay_eq {d : Direction} (h : newPivotIdx closes ∈ sidePivots closes d) : sideInPlay closes = some d := by
  unfold sideInPlay
  cases d with
  | long =>
    have hother : newPivotIdx closes ∉ sidePivots closes .short := not_mem_sidePivots_opposite h
    rw [if_neg hother, if_pos h]
  | short => rw [if_pos h]

/-- The regime gate lets no pivot pass against the trend. -/
theorem regimeGate_with_trend {config : EntryRules} {reading : RegimeReading} {d : Direction} {rows : List Row}
    (h : regimeGate config closes reading = .ok rows) (hside : sideInPlay closes = some d)
    (henabled : config.regimeFilterEnabled = true) : againstTrend reading.regime d = none := by
  unfold regimeGate at h
  rw [hside] at h
  dsimp only at h
  rw [if_neg (by rw [henabled]; exact Bool.noConfusion)] at h
  cases hagainst : againstTrend reading.regime d with
  | none => rfl
  | some filter =>
    rw [hagainst] at h
    cases h

/-- Why an order is placed. -/
structure Placed (indicators : List ChartBar → Option Indicators) (config : EntryConfig) (state : BotState)
    (doc : EntryDoc) (barTime : Datetime) (window : List ChartBar) (o : EntryOrder) (e : Entry) : Prop where
  waiting : state = .awaitingEntryTrigger
  armed : doc.armed = true
  cooled : ∀ cooldown ∈ doc.cooldownUntil, cooldown ≤ barTime
  checked : e.Checked config.toEntryRules (window.map ChartBar.close)
  order : o = placeEntry config.toEntryRules doc window barTime e
  trend : config.regimeFilterEnabled = true →
    againstTrend (computeRegime indicators config.toEntryRules window).regime e.direction = none

end Orders

end IbTrader.Bots.ChartSignal
