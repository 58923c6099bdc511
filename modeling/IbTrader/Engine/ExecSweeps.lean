/-
  IbTrader.Engine.ExecSweeps

  The store of executions over whole runs of sweeps.

  Reports of an execution repeat one another up to realised profit and commission,
  which appear once (`Repeats`).  While a record is stored, its later reports can only
  add these two (`Follows`, kept by `patched_follows`), and a second merge of the same
  sweep finds nothing to add (`Covers`).  A record is corrected against the clock only
  when it is first seen, so an execution that IB goes on reporting after its record
  has left the window is made anew, with its time as reported: the store is faithful
  exactly where that time is out of the window too (`sweeps_faithful_iff`).
-/

import Mathlib.Data.List.Flatten
import Mathlib.Tactic.Linarith
import IbTrader.Engine.ExecAccumulator

namespace IbTrader.Engine.ExecAccumulator

open Lib

-- ============================================================================
-- Reports that repeat one another
-- ============================================================================

/-- A later report of an execution repeats an earlier one, except that a realised
    profit and a commission may have appeared. -/
structure RawExec.Repeats (ex later : RawExec) : Prop where
  same : later = { ex with realizedPnl := later.realizedPnl, commission := later.commission }
  realizedPnl : ex.realizedPnl ≠ none → later.realizedPnl = ex.realizedPnl
  commission : isZero ex.commission = false → later.commission = ex.commission

/-- Snapshots of IB at times that do not go back, in which the reports of an
    execution repeat one another. -/
structure Steady (sweeps : List Sweep) : Prop where
  times : sweeps.Pairwise fun v w => v.now ≤ w.now
  repeats : (sweeps.flatMap (·.fresh)).Pairwise fun ex later =>
    ex.execId ≠ "" → later.execId = ex.execId → ex.Repeats later

/-- `Repeats`, of the reports as records. -/
structure Repeats (rec later : ExecRecord) : Prop where
  same : later = { rec with realizedPnl := later.realizedPnl, commission := later.commission }
  realizedPnl : rec.realizedPnl ≠ none → later.realizedPnl = rec.realizedPnl
  commission : isZero rec.commission = false → later.commission = rec.commission

theorem toRecord_some {ex : RawExec} {rec : ExecRecord} (h : toRecord ex = some rec) :
    ex.execId ≠ "" ∧ rec.execId = ex.execId ∧ rec.realizedPnl = ex.realizedPnl ∧
      rec.commission = ex.commission := by
  unfold toRecord at h
  split at h
  case h_1 => cases h
  case h_2 ts _ =>
    split at h
    case isTrue => cases h
    case isFalse hnamed =>
      rw [not_or] at hnamed
      cases h
      exact ⟨hnamed.1, rfl, rfl, rfl⟩

theorem Repeats.of_raw {ex later : RawExec} {rec rec' : ExecRecord} (h : ex.Repeats later)
    (hrec : toRecord ex = some rec) (hrec' : toRecord later = some rec') : Repeats rec rec' := by
  obtain ⟨-, -, hrealized, hcommission⟩ := toRecord_some hrec
  obtain ⟨-, -, hrealized', hcommission'⟩ := toRecord_some hrec'
  refine ⟨?_, ?_, ?_⟩
  · rw [h.same] at hrec'
    unfold toRecord at hrec hrec'
    split at hrec
    case h_1 => cases hrec
    case h_2 ts hts =>
      split at hrec
      case isTrue => cases hrec
      case isFalse hnamed =>
        simp only [hts, if_neg hnamed, Option.some.injEq] at hrec'
        cases hrec
        rw [← hrec']
  · rw [hrealized, hrealized']
    exact h.realizedPnl
  · rw [hcommission, hcommission']
    exact h.commission

theorem Steady.sublist {sweeps part : List Sweep} (h : Steady sweeps) (hpart : part.Sublist sweeps) :
    Steady part :=
  ⟨h.times.sublist hpart, h.repeats.sublist (hpart.flatMap _)⟩

/-- The reports of one execution over steady sweeps repeat one another. -/
theorem Steady.reports {sweeps : List Sweep} (h : Steady sweeps) (id : String) :
    (sweeps.flatMap (reportsOf id)).Pairwise Repeats := by
  have hall : (sweeps.flatMap ExecAccumulator.reports).Pairwise
      fun rec later => later.execId = rec.execId → Repeats rec later := by
    have hfilter : sweeps.flatMap ExecAccumulator.reports = (sweeps.flatMap (·.fresh)).filterMap toRecord := by
      rw [List.filterMap_flatMap]
      rfl
    rw [hfilter]
    refine h.repeats.filterMap _ fun ex later hrepeats rec hrec rec' hrec' hid => ?_
    obtain ⟨hnamed, hkey, -, -⟩ := toRecord_some hrec
    obtain ⟨-, hkey', -, -⟩ := toRecord_some hrec'
    exact .of_raw (hrepeats hnamed (by rw [← hkey', ← hkey, hid])) hrec hrec'
  have hof : sweeps.flatMap (reportsOf id) =
      (sweeps.flatMap ExecAccumulator.reports).filter (·.execId = id) := by
    rw [List.filter_flatMap]
    rfl
  rw [hof]
  refine (hall.filter _).imp_of_mem fun {rec later} hrec hlater hrepeats => hrepeats ?_
  have hid := (List.mem_filter.mp hrec).2
  have hid' := (List.mem_filter.mp hlater).2
  rw [of_decide_eq_true hid', of_decide_eq_true hid]

-- ============================================================================
-- Patching a record
-- ============================================================================

/-- A record with what it was made of: only realised profit and commission move. -/
def Keeps (r r' : ExecRecord) : Prop :=
  r' = { r with realizedPnl := r'.realizedPnl, commission := r'.commission }

/-- Realised profit and commission only appear. -/
structure Grows (r r' : ExecRecord) : Prop where
  realizedPnl : r.realizedPnl ≠ none → r'.realizedPnl = r.realizedPnl
  present : r.commission ≠ none → r'.commission ≠ none
  commission : isZero r.commission = false → r'.commission = r.commission

/-- A report that comes after all a record was made of. -/
structure Follows (r rec : ExecRecord) : Prop where
  multiplier : rec.multiplier = r.multiplier
  realizedPnl : r.realizedPnl ≠ none → rec.realizedPnl = r.realizedPnl
  commission : isZero r.commission = false → rec.commission = r.commission

/-- A record that has all a report could add. -/
structure Covers (r rec : ExecRecord) : Prop where
  multiplier : rec.multiplier = r.multiplier
  realizedPnl : rec.realizedPnl ≠ none → r.realizedPnl ≠ none
  commission : isZero rec.commission = false → isZero r.commission = false

section Patched

variable {r r' r'' rec later : ExecRecord}

theorem Keeps.refl (r : ExecRecord) : Keeps r r := rfl

theorem Keeps.trans (h : Keeps r r') (h' : Keeps r' r'') : Keeps r r'' := by
  unfold Keeps at h h' ⊢
  rw [h', h]

theorem Keeps.execTime (h : Keeps r r') : r'.execTime = r.execTime := by rw [h]

theorem Keeps.multiplier (h : Keeps r r') : r'.multiplier = r.multiplier := by rw [h]

theorem Grows.refl (r : ExecRecord) : Grows r r := ⟨fun _ => rfl, id, fun _ => rfl⟩

theorem Grows.trans (h : Grows r r') (h' : Grows r' r'') : Grows r r'' where
  realizedPnl hsome := by
    rw [← h.realizedPnl hsome]
    exact h'.realizedPnl (by rw [h.realizedPnl hsome]; exact hsome)
  present hsome := h'.present (h.present hsome)
  commission hvalue := by
    rw [← h.commission hvalue]
    exact h'.commission (by rw [h.commission hvalue]; exact hvalue)

theorem isZero_none : isZero none = true := rfl

theorem patched_of_pairs (h : r.realizedPnl = none ∧ rec.realizedPnl ≠ none) :
    patched r rec = { r with
      realizedPnl := rec.realizedPnl
      commission := if rec.commission ≠ none then rec.commission else r.commission } := if_pos h

theorem patched_of_paired (h : ¬(r.realizedPnl = none ∧ rec.realizedPnl ≠ none))
    (hmult : rec.multiplier = r.multiplier) :
    patched r rec = { r with
      commission :=
        if isZero r.commission ∧ ¬isZero rec.commission then rec.commission
        else r.commission } := by
  have hnot : ¬(r.multiplier = none ∧ rec.multiplier ≠ none) := fun hm => hm.2 (hmult.trans hm.1)
  rw [patched, if_neg h, if_neg hnot]

theorem patched_keeps (h : Follows r rec) : Keeps r (patched r rec) := by
  by_cases hpairs : r.realizedPnl = none ∧ rec.realizedPnl ≠ none
  · rw [patched_of_pairs hpairs]
    rfl
  · rw [patched_of_paired hpairs h.multiplier]
    rfl

theorem patched_grows (h : Follows r rec) : Grows r (patched r rec) := by
  by_cases hpairs : r.realizedPnl = none ∧ rec.realizedPnl ≠ none
  · rw [patched_of_pairs hpairs]
    refine ⟨fun hsome => absurd hpairs.1 hsome, fun hsome => ?_, fun hvalue => ?_⟩
    · dsimp only
      split
      case isTrue hthere => exact hthere
      case isFalse => exact hsome
    · dsimp only
      rw [h.commission hvalue, ite_self]
  · rw [patched_of_paired hpairs h.multiplier]
    refine ⟨fun _ => rfl, fun hsome => ?_, fun hvalue => ?_⟩
    · dsimp only
      split
      case isTrue hadds =>
        intro hnone
        rw [hnone] at hadds
        exact hadds.2 isZero_none
      case isFalse => exact hsome
    · dsimp only
      rw [if_neg]
      rintro ⟨hzero, -⟩
      rw [hvalue] at hzero
      cases hzero

/-- What comes after a report comes after the record it has patched. -/
theorem patched_follows (h : Follows r rec) (hrec : Repeats rec later) (hlater : Follows r later) :
    Follows (patched r rec) later := by
  by_cases hpairs : r.realizedPnl = none ∧ rec.realizedPnl ≠ none
  · rw [patched_of_pairs hpairs]
    refine ⟨hlater.multiplier, hrec.realizedPnl, fun hvalue => ?_⟩
    dsimp only at hvalue ⊢
    split at hvalue
    case isTrue hthere =>
      rw [if_pos hthere]
      exact hrec.commission hvalue
    case isFalse hnone =>
      rw [if_neg hnone]
      exact hlater.commission hvalue
  · rw [patched_of_paired hpairs h.multiplier]
    refine ⟨hlater.multiplier, hlater.realizedPnl, fun hvalue => ?_⟩
    dsimp only at hvalue ⊢
    split at hvalue
    case isTrue hadds =>
      rw [if_pos hadds]
      exact hrec.commission hvalue
    case isFalse hkept =>
      rw [if_neg hkept]
      exact hlater.commission hvalue

/-- A patched record has all of the report. -/
theorem patched_covers (h : Follows r rec) : Covers (patched r rec) rec := by
  by_cases hpairs : r.realizedPnl = none ∧ rec.realizedPnl ≠ none
  · rw [patched_of_pairs hpairs]
    refine ⟨h.multiplier, id, fun hvalue => ?_⟩
    have hthere : rec.commission ≠ none := by
      intro hnone
      rw [hnone] at hvalue
      cases hvalue
    dsimp only
    rw [if_pos hthere]
    exact hvalue
  · rw [patched_of_paired hpairs h.multiplier]
    refine ⟨h.multiplier, fun hsome hnone => hpairs ⟨hnone, hsome⟩, fun hvalue => ?_⟩
    dsimp only
    by_cases hzero : isZero r.commission = true
    · rw [if_pos ⟨hzero, by rw [hvalue]; exact Bool.false_ne_true⟩]
      exact hvalue
    · rw [if_neg fun hadds => hzero hadds.1]
      exact Bool.not_eq_true _ ▸ hzero

theorem Covers.grows (h : Covers r rec) (hkeeps : Keeps r r') (hgrows : Grows r r') :
    Covers r' rec where
  multiplier := by rw [hkeeps.multiplier]; exact h.multiplier
  realizedPnl hsome := by
    rw [hgrows.realizedPnl (h.realizedPnl hsome)]
    exact h.realizedPnl hsome
  commission hvalue := by
    rw [hgrows.commission (h.commission hvalue)]
    exact h.commission hvalue

/-- A report that adds nothing leaves the record. -/
theorem patched_of_covers (h : Covers r rec) : patched r rec = r := by
  have hpairs : ¬(r.realizedPnl = none ∧ rec.realizedPnl ≠ none) :=
    fun hp => h.realizedPnl hp.2 hp.1
  have hadds : ¬(isZero r.commission = true ∧ ¬isZero rec.commission = true) := by
    rintro ⟨hzero, hvalue⟩
    rw [h.commission (Bool.not_eq_true _ ▸ hvalue)] at hzero
    cases hzero
  rw [patched_of_paired hpairs h.multiplier, if_neg hadds]

end Patched

-- ============================================================================
-- The reports of one sweep
-- ============================================================================

/-- The reports of a sweep, merged into a stored record. -/
structure Merged (r r' : ExecRecord) (recs : List ExecRecord) : Prop where
  keeps : Keeps r r'
  grows : Grows r r'
  covers : ∀ rec ∈ recs, Covers r' rec
  follows : ∀ later, Follows r later → (∀ rec ∈ recs, Repeats rec later) → Follows r' later

theorem foldl_upsert_some (w : Sweep) (recs : List ExecRecord) :
    ∀ {r : ExecRecord}, (∀ rec ∈ recs, Follows r rec) → recs.Pairwise Repeats →
      ∃ r', recs.foldl (fun prev rec => some (upsert w prev rec)) (some r) = some r' ∧
        Merged r r' recs := by
  induction recs with
  | nil =>
    intro r _ _
    exact ⟨r, rfl, .refl r, .refl r, by simp, fun _ h _ => h⟩
  | cons rec recs ih =>
    intro r hfollows hpairs
    rw [List.pairwise_cons] at hpairs
    have hrec : Follows r rec := hfollows rec List.mem_cons_self
    have hrest : ∀ x ∈ recs, Follows (patched r rec) x := fun x hx =>
      patched_follows hrec (hpairs.1 x hx) (hfollows x (List.mem_cons_of_mem rec hx))
    obtain ⟨r', hfold, hmerged⟩ := ih hrest hpairs.2
    refine ⟨r', hfold, (patched_keeps hrec).trans hmerged.keeps,
      (patched_grows hrec).trans hmerged.grows, fun x hx => ?_, fun later hlater hall => ?_⟩
    · rcases List.mem_cons.mp hx with rfl | hx
      · exact (patched_covers hrec).grows hmerged.keeps hmerged.grows
      · exact hmerged.covers x hx
    · exact hmerged.follows later (patched_follows hrec (hall rec List.mem_cons_self) hlater)
        fun x hx => hall x (List.mem_cons_of_mem rec hx)

/-- What follows the first report follows the record it makes. -/
theorem firstSeen_follows (w : Sweep) {rec later : ExecRecord} (h : Repeats rec later) :
    Follows (firstSeen w rec) later := by
  refine ⟨?_, h.realizedPnl, h.commission⟩
  rw [h.same]
  rfl

theorem firstSeen_covers (w : Sweep) (rec : ExecRecord) : Covers (firstSeen w rec) rec :=
  ⟨rfl, id, id⟩

/-- The reports of a sweep make the record from the first of them. -/
theorem foldl_upsert_none (w : Sweep) {rec : ExecRecord} {recs : List ExecRecord}
    (hpairs : (rec :: recs).Pairwise Repeats) :
    ∃ r', (rec :: recs).foldl (fun prev rec => some (upsert w prev rec)) none = some r' ∧
      Merged (firstSeen w rec) r' (rec :: recs) := by
  rw [List.pairwise_cons] at hpairs
  obtain ⟨r', hfold, hmerged⟩ := foldl_upsert_some w recs
    (fun x hx => firstSeen_follows w (hpairs.1 x hx)) hpairs.2
  refine ⟨r', hfold, hmerged.keeps, hmerged.grows, fun x hx => ?_, fun later hlater hall => ?_⟩
  · rcases List.mem_cons.mp hx with rfl | hx
    · exact (firstSeen_covers w x).grows hmerged.keeps hmerged.grows
    · exact hmerged.covers x hx
  · exact hmerged.follows later hlater fun x hx => hall x (List.mem_cons_of_mem rec hx)

/-- Reports that add nothing leave the record. -/
theorem foldl_upsert_of_covers (w : Sweep) {r : ExecRecord} (recs : List ExecRecord)
    (h : ∀ rec ∈ recs, Covers r rec) :
    recs.foldl (fun prev rec => some (upsert w prev rec)) (some r) = some r := by
  induction recs with
  | nil => rfl
  | cons rec recs ih =>
    rw [List.foldl_cons]
    have hsame : upsert w (some r) rec = r := patched_of_covers (h rec List.mem_cons_self)
    rw [hsame]
    exact ih fun x hx => h x (List.mem_cons_of_mem rec hx)

-- ============================================================================
-- Runs
-- ============================================================================

/-- The record made when an execution is first seen. -/
def firstSight : List Sweep → String → Option ExecRecord
  | [], _ => none
  | w :: ws, id => ((reportsOf id w).head?.map (firstSeen w)).or (firstSight ws id)

theorem firstSight_append (before : List Sweep) (w : Sweep) (id : String) :
    firstSight (before ++ [w]) id =
      (firstSight before id).or ((reportsOf id w).head?.map (firstSeen w)) := by
  induction before with
  | nil => simp [firstSight]
  | cons v before ih => rw [List.cons_append, firstSight, firstSight, ih, Option.or_assoc]

/-- What is seen first stays first. -/
theorem firstSight_append_of_some {before : List Sweep} {id : String} {f : ExecRecord}
    (h : firstSight before id = some f) (mid : List Sweep) :
    firstSight (before ++ mid) id = some f := by
  induction mid using List.reverseRecOn with
  | nil => rw [List.append_nil, h]
  | append_singleton mid w ih => rw [← List.append_assoc, firstSight_append, ih, Option.some_or]

/-- An execution whose recorded time has left the window is reported only with a time
    that is out of it too. -/
def StaysOut (window : ℚ) (before : List Sweep) (w : Sweep) : Prop :=
  ∀ rec ∈ reports w, ∀ f, firstSight before rec.execId = some f →
    f.execTime < cutoff window w → (firstSeen w rec).execTime < cutoff window w

/-- What the store has of an execution: the record made when it was first seen, which
    all that is reported from then on follows, or nothing, once that has left the
    window. -/
def Tracks (window : ℚ) (id : String) (before : List Sweep) : Option ExecRecord → Prop
  | some r => (∃ f, firstSight before id = some f ∧ Keeps f r) ∧
      ∀ w, Steady (before ++ [w]) → ∀ rec ∈ reportsOf id w, Follows r rec
  | none => ∀ f, firstSight before id = some f →
      ∀ w, Steady (before ++ [w]) → f.execTime < cutoff window w

section Tracks

variable {window : ℚ} {id : String} {before : List Sweep} {v w : Sweep}

theorem Steady.skip (h : Steady (before ++ [v] ++ [w])) : Steady (before ++ [w]) :=
  h.sublist ((List.sublist_append_left before [v]).append_right [w])

theorem Steady.init (h : Steady (before ++ [w])) : Steady before :=
  h.sublist (List.sublist_append_left _ _)

theorem Steady.cutoff_le (h : Steady (before ++ [v] ++ [w])) : cutoff window v ≤ cutoff window w := by
  have hle : v.now ≤ w.now :=
    (List.pairwise_append.mp h.times).2.2 v (by simp) w (by simp)
  unfold cutoff
  linarith

theorem Steady.ofSweep (id : String) (h : Steady (before ++ [w])) : (reportsOf id w).Pairwise Repeats := by
  have hlast := (h.sublist (List.sublist_append_right before [w])).reports id
  simpa using hlast

theorem Steady.across (h : Steady (before ++ [v] ++ [w])) {rec later : ExecRecord}
    (hrec : rec ∈ reportsOf id v) (hlater : later ∈ reportsOf id w) : Repeats rec later := by
  rw [List.append_assoc] at h
  have hboth := (h.sublist (List.sublist_append_right before _)).reports id
  simp only [List.singleton_append, List.flatMap_cons, List.flatMap_nil, List.append_nil] at hboth
  exact (List.pairwise_append.mp hboth).2.2 rec hrec later hlater

/-- Nothing is made of an execution that is not reported. -/
theorem sweepOne_of_not_reported (h : reportsOf id w = []) : sweepOne window id none w = none := by
  rw [sweepOne, mergeOne, h]
  rfl

/-- A sweep of a stored record. -/
theorem sweepOne_some (window : ℚ) (hsteady : Steady (before ++ [w])) {r : ExecRecord}
    (hfollows : ∀ rec ∈ reportsOf id w, Follows r rec) :
    ∃ r', Merged r r' (reportsOf id w) ∧
      sweepOne window id (some r) w = if cutoff window w ≤ r.execTime then some r' else none := by
  obtain ⟨r', hfold, hmerged⟩ := foldl_upsert_some w (reportsOf id w) hfollows (hsteady.ofSweep id)
  refine ⟨r', hmerged, ?_⟩
  rw [sweepOne, mergeOne, hfold, Option.filter_some, hmerged.keeps.execTime]
  simp only [decide_eq_true_eq]

/-- A sweep of an execution without a record. -/
theorem sweepOne_none (window : ℚ) (hsteady : Steady (before ++ [w])) {rec : ExecRecord} {recs : List ExecRecord}
    (hrecs : reportsOf id w = rec :: recs) :
    ∃ r', Merged (firstSeen w rec) r' (rec :: recs) ∧ sweepOne window id none w =
      if cutoff window w ≤ (firstSeen w rec).execTime then some r' else none := by
  have hpairs := hsteady.ofSweep id
  rw [hrecs] at hpairs
  obtain ⟨r', hfold, hmerged⟩ := foldl_upsert_none w hpairs
  refine ⟨r', hmerged, ?_⟩
  rw [sweepOne, mergeOne, hrecs, hfold, Option.filter_some, hmerged.keeps.execTime]
  simp only [decide_eq_true_eq]

theorem mem_reports {rec : ExecRecord} (h : rec ∈ reportsOf id w) : rec ∈ reports w ∧ rec.execId = id :=
  ⟨(List.mem_filter.mp h).1, of_decide_eq_true (List.mem_filter.mp h).2⟩

/-- An execution that has left the window stays out. -/
theorem Tracks.gone (h : Tracks window id before none) (hsteady : Steady (before ++ [w]))
    (hout : StaysOut window before w) (hseen : firstSight before id ≠ none) :
    sweepOne window id none w = none := by
  obtain ⟨f, hf⟩ := Option.ne_none_iff_exists'.mp hseen
  cases hrecs : reportsOf id w with
  | nil => exact sweepOne_of_not_reported hrecs
  | cons rec recs =>
    obtain ⟨r', -, hsweep⟩ := sweepOne_none window hsteady hrecs
    obtain ⟨hrec, rfl⟩ := mem_reports (hrecs ▸ List.mem_cons_self : rec ∈ reportsOf id w)
    rw [hsweep, if_neg (not_le.mpr (hout rec hrec f hf (h f hf w hsteady)))]

/-- A sweep keeps track of every execution. -/
theorem Tracks.step {o : Option ExecRecord} (h : Tracks window id before o)
    (hsteady : Steady (before ++ [w])) (hout : StaysOut window before w) :
    Tracks window id (before ++ [w]) (sweepOne window id o w) := by
  cases o with
  | some r =>
    obtain ⟨⟨f, hf, hkeeps⟩, hfollows⟩ := h
    obtain ⟨r', hmerged, hsweep⟩ := sweepOne_some window hsteady (hfollows w hsteady)
    have hfirst : firstSight (before ++ [w]) id = some f := by rw [firstSight_append, hf, Option.some_or]
    rw [hsweep]
    split
    case isTrue =>
      refine ⟨⟨f, hfirst, hkeeps.trans hmerged.keeps⟩, fun u hu later hlater => ?_⟩
      exact hmerged.follows later (hfollows u hu.skip later hlater)
        fun rec hrec => hu.across hrec hlater
    case isFalse hpast =>
      intro g hg u hu
      rw [hfirst, Option.some.injEq] at hg
      rw [← hg, ← hkeeps.execTime]
      exact (not_le.mp hpast).trans_le hu.cutoff_le
  | none =>
    cases hseen : firstSight before id with
    | some f =>
      rw [h.gone hsteady hout (by rw [hseen]; exact Option.some_ne_none f)]
      intro g hg u hu
      rw [firstSight_append, hseen, Option.some_or, Option.some.injEq] at hg
      rw [← hg]
      exact h f hseen u hu.skip
    | none =>
      cases hrecs : reportsOf id w with
      | nil =>
        rw [sweepOne_of_not_reported hrecs]
        intro g hg
        rw [firstSight_append, hseen, hrecs] at hg
        cases hg
      | cons rec recs =>
        obtain ⟨r', hmerged, hsweep⟩ := sweepOne_none window hsteady hrecs
        have hfirst : firstSight (before ++ [w]) id = some (firstSeen w rec) := by
          rw [firstSight_append, hseen, hrecs]
          rfl
        rw [hsweep]
        split
        case isTrue =>
          refine ⟨⟨_, hfirst, hmerged.keeps⟩, fun u hu later hlater => ?_⟩
          have hacross : ∀ x ∈ rec :: recs, Repeats x later :=
            fun x hx => hu.across (hrecs ▸ hx) hlater
          exact hmerged.follows later (firstSeen_follows w (hacross rec List.mem_cons_self)) hacross
        case isFalse hpast =>
          intro g hg u hu
          rw [hfirst, Option.some.injEq] at hg
          rw [← hg]
          exact (not_le.mp hpast).trans_le hu.cutoff_le

/-- Merging a sweep a second time changes nothing. -/
theorem Tracks.again {o : Option ExecRecord} (h : Tracks window id before o)
    (hsteady : Steady (before ++ [w])) (hout : StaysOut window before w) :
    sweepOne window id (sweepOne window id o w) w = sweepOne window id o w := by
  have hmergedAgain : ∀ {r r' : ExecRecord}, Merged r r' (reportsOf id w) →
      cutoff window w ≤ r.execTime → sweepOne window id (some r') w = some r' := by
    intro r r' hmerged hin
    rw [sweepOne, mergeOne, foldl_upsert_of_covers w _ hmerged.covers, Option.filter_some,
      hmerged.keeps.execTime, if_pos (decide_eq_true hin)]
  cases o with
  | some r =>
    obtain ⟨⟨f, hf, hkeeps⟩, hfollows⟩ := h
    obtain ⟨r', hmerged, hsweep⟩ := sweepOne_some window hsteady (hfollows w hsteady)
    rw [hsweep]
    split
    case isTrue hin => exact hmergedAgain hmerged hin
    case isFalse hpast =>
      -- the record is pruned, and the report that is merged again is out of the window
      cases hrecs : reportsOf id w with
      | nil => exact sweepOne_of_not_reported hrecs
      | cons rec recs =>
        obtain ⟨_, -, hsweep'⟩ := sweepOne_none window hsteady hrecs
        obtain ⟨hrec, rfl⟩ := mem_reports (hrecs ▸ List.mem_cons_self : rec ∈ reportsOf id w)
        rw [hkeeps.execTime] at hpast
        rw [hsweep', if_neg (not_le.mpr (hout rec hrec f hf (not_le.mp hpast)))]
  | none =>
    cases hrecs : reportsOf id w with
    | nil => rw [sweepOne_of_not_reported hrecs, sweepOne_of_not_reported hrecs]
    | cons rec recs =>
      obtain ⟨r', hmerged, hsweep⟩ := sweepOne_none window hsteady hrecs
      rw [hsweep]
      split
      case isTrue hin => exact hmergedAgain (hrecs ▸ hmerged) hin
      case isFalse hpast => rw [hsweep, if_neg hpast]

/-- A sweep that keeps a record keeps what is in it. -/
theorem Tracks.grows {r r' : ExecRecord} (h : Tracks window id before (some r))
    (hsteady : Steady (before ++ [w])) (hkept : sweepOne window id (some r) w = some r') :
    Grows r r' := by
  obtain ⟨r'', hmerged, hsweep⟩ := sweepOne_some window hsteady (h.2 w hsteady)
  rw [hsweep] at hkept
  split at hkept
  case isTrue =>
    rw [← Option.some.inj hkept]
    exact hmerged.grows
  case isFalse => cases hkept

end Tracks

-- ============================================================================
-- The store is faithful
-- ============================================================================

/-- What the store is to be over a run of sweeps: each execution at most once, as it
    was first seen but for realised profit and commission, which appear and stay; not
    again once it is gone; and not changed by merging a sweep twice. -/
structure Faithful (window : ℚ) (sweeps : List Sweep) : Prop where
  once : ∀ before, before <+: sweeps → ((sweepAll window before).items.map (·.execId)).Nodup
  first : ∀ before, before <+: sweeps → ∀ id r, (sweepAll window before).get id = some r →
    ∃ f, firstSight before id = some f ∧ r.shares = f.shares ∧ r.price = f.price ∧
      r.side = f.side ∧ r.execTime = f.execTime
  grows : ∀ before mid, before ++ mid <+: sweeps → ∀ id r r',
    (sweepAll window before).get id = some r → (sweepAll window (before ++ mid)).get id = some r' →
      Grows r r'
  gone : ∀ before mid, before ++ mid <+: sweeps → ∀ id, firstSight before id ≠ none →
    (sweepAll window before).get id = none → (sweepAll window (before ++ mid)).get id = none
  again : ∀ before w, before ++ [w] <+: sweeps → ∀ id,
    (mergeExecutions window (sweepAll window (before ++ [w])) w).get id =
      (sweepAll window (before ++ [w])).get id

section Faithful

variable {window : ℚ} {sweeps : List Sweep}

/-- Every sweep of the run leaves out what has left the window. -/
def StaysOutThroughout (window : ℚ) (sweeps : List Sweep) : Prop :=
  ∀ before w after, sweeps = before ++ w :: after → StaysOut window before w

theorem get_sweepAll_append (before : List Sweep) (w : Sweep) (id : String) :
    (sweepAll window (before ++ [w])).get id =
      sweepOne window id ((sweepAll window before).get id) w := by
  rw [get_sweepAll, get_sweepAll, List.foldl_append]
  rfl

theorem tracks_prefix (hsteady : Steady sweeps) (hout : StaysOutThroughout window sweeps)
    (id : String) (before : List Sweep) (hbefore : before <+: sweeps) :
    Tracks window id before ((sweepAll window before).get id) := by
  induction before using List.reverseRecOn with
  | nil =>
    intro f hf
    cases hf
  | append_singleton before w ih =>
    obtain ⟨after, hsplit⟩ := hbefore
    rw [List.append_assoc, List.singleton_append] at hsplit
    rw [get_sweepAll_append]
    refine (ih ⟨w :: after, hsplit⟩).step (hsteady.sublist ?_) (hout before w after hsplit.symm)
    rw [← hsplit]
    exact (List.sublist_append_left [w] after).append_left before

/-- The condition suffices. -/
theorem faithful_of_staysOut (hsteady : Steady sweeps) (hout : StaysOutThroughout window sweeps) :
    Faithful window sweeps where
  once before _ := (sweepAll window before).unique
  first before hbefore id r hr := by
    have htracks := tracks_prefix hsteady hout id before hbefore
    rw [hr] at htracks
    obtain ⟨⟨f, hf, hkeeps⟩, -⟩ := htracks
    rw [hkeeps]
    exact ⟨f, hf, rfl, rfl, rfl, rfl⟩
  grows before mid hmid id r r' hr := by
    induction mid using List.reverseRecOn generalizing r' with
    | nil =>
      intro hr'
      rw [List.append_nil, hr] at hr'
      rw [← Option.some.inj hr']
      exact .refl r
    | append_singleton mid w ih =>
      intro hr'
      rw [← List.append_assoc] at hmid hr'
      have hprefix : before ++ mid <+: sweeps := (List.prefix_append _ [w]).trans hmid
      have hsteady' : Steady (before ++ mid ++ [w]) := hsteady.sublist hmid.sublist
      have htracks := tracks_prefix hsteady hout id _ hprefix
      rw [get_sweepAll_append] at hr'
      cases hmidway : (sweepAll window (before ++ mid)).get id with
      | some q =>
        rw [hmidway] at htracks hr'
        exact (ih hprefix q hmidway).trans (htracks.grows hsteady' hr')
      | none =>
        -- a record seen at the start and gone midway does not come back
        rw [hmidway] at htracks hr'
        obtain ⟨after, hsplit⟩ := hmid
        rw [List.append_assoc, List.singleton_append] at hsplit
        have hstart := tracks_prefix hsteady hout id before
          ((List.prefix_append before mid).trans hprefix)
        rw [hr] at hstart
        obtain ⟨⟨f, hf, -⟩, -⟩ := hstart
        have hseen : firstSight (before ++ mid) id ≠ none := by
          rw [firstSight_append_of_some hf]
          exact Option.some_ne_none f
        rw [htracks.gone hsteady' (hout _ w after hsplit.symm) hseen] at hr'
        cases hr'
  gone before mid hmid id hseen hgone := by
    induction mid using List.reverseRecOn with
    | nil => rw [List.append_nil, hgone]
    | append_singleton mid w ih =>
      rw [← List.append_assoc] at hmid ⊢
      have hprefix : before ++ mid <+: sweeps := (List.prefix_append _ [w]).trans hmid
      have htracks := tracks_prefix hsteady hout id _ hprefix
      have hsteady' : Steady (before ++ mid ++ [w]) := hsteady.sublist hmid.sublist
      obtain ⟨after, hsplit⟩ := hmid
      rw [List.append_assoc, List.singleton_append] at hsplit
      have hseen' : firstSight (before ++ mid) id ≠ none := by
        obtain ⟨f, hf⟩ := Option.ne_none_iff_exists'.mp hseen
        rw [firstSight_append_of_some hf]
        exact Option.some_ne_none f
      rw [get_sweepAll_append, ih hprefix]
      rw [ih hprefix] at htracks
      exact htracks.gone hsteady' (hout _ w after hsplit.symm) hseen'
  again before w hw id := by
    have hsteady' : Steady (before ++ [w]) := hsteady.sublist hw.sublist
    have htracks := tracks_prefix hsteady hout id before ((List.prefix_append _ [w]).trans hw)
    obtain ⟨after, hsplit⟩ := hw
    rw [List.append_assoc, List.singleton_append] at hsplit
    rw [get_mergeExecutions, get_sweepAll_append]
    exact htracks.again hsteady' (hout before w after hsplit.symm)

/-- Patches keep the time of a record. -/
theorem foldl_upsert_execTime (w : Sweep) (recs : List ExecRecord) :
    ∀ r : ExecRecord, ∃ r', recs.foldl (fun prev rec => some (upsert w prev rec)) (some r) = some r' ∧
      r'.execTime = r.execTime := by
  induction recs with
  | nil => exact fun r => ⟨r, rfl, rfl⟩
  | cons rec recs ih =>
    intro r
    obtain ⟨r', hfold, htime⟩ := ih (patched r rec)
    exact ⟨r', hfold, by rw [htime, patched_execTime]⟩

/-- A record out of the window is pruned, whatever is reported. -/
theorem sweepOne_past {id : String} {w : Sweep} {r : ExecRecord}
    (hpast : r.execTime < cutoff window w) : sweepOne window id (some r) w = none := by
  obtain ⟨r', hfold, htime⟩ := foldl_upsert_execTime w (reportsOf id w) r
  rw [sweepOne, mergeOne, hfold, Option.filter_some, htime,
    if_neg (by simpa using hpast)]

/-- An execution without a record gets one from a report in the window. -/
theorem sweepOne_in_window {before : List Sweep} {w : Sweep} (hsteady : Steady (before ++ [w]))
    {rec : ExecRecord} (hrec : rec ∈ reports w) (hin : cutoff window w ≤ (firstSeen w rec).execTime) :
    sweepOne window rec.execId none w ≠ none := by
  have hmem : rec ∈ reportsOf rec.execId w := List.mem_filter.mpr ⟨hrec, decide_eq_true rfl⟩
  cases hrecs : reportsOf rec.execId w with
  | nil =>
    rw [hrecs] at hmem
    cases hmem
  | cons head recs =>
    -- the reports of a sweep have one time
    have hpairs := hsteady.ofSweep rec.execId
    rw [hrecs, List.pairwise_cons] at hpairs
    have htime : rec.execTime = head.execTime := by
      rcases List.mem_cons.mp (hrecs ▸ hmem) with rfl | hlater
      · rfl
      · rw [(hpairs.1 rec hlater).same]
    obtain ⟨r', -, hsweep⟩ := sweepOne_none window hsteady hrecs
    have hhead : cutoff window w ≤ (firstSeen w head).execTime := by
      unfold firstSeen at hin ⊢
      rw [← htime]
      exact hin
    rw [hsweep, if_pos hhead]
    exact Option.some_ne_none r'

/-- The condition is necessary: a report that comes back into the window makes a gone
    execution anew, or makes the second merge of its sweep differ from the first. -/
theorem staysOut_of_faithful (hsteady : Steady sweeps) (h : Faithful window sweeps) :
    StaysOutThroughout window sweeps := by
  intro before w after hsplit rec hrec f hf hpast
  by_contra hin
  have hprefix : before ++ [w] <+: sweeps := ⟨after, by rw [hsplit, List.append_assoc]; rfl⟩
  have hsteady' : Steady (before ++ [w]) := hsteady.sublist hprefix.sublist
  have hback := sweepOne_in_window hsteady' hrec (not_lt.mp hin)
  cases hget : (sweepAll window before).get rec.execId with
  | some r =>
    obtain ⟨f', hf', -, -, -, htime⟩ := h.first before ((List.prefix_append _ _).trans hprefix) _ r hget
    rw [hf, Option.some.injEq] at hf'
    have hpruned : (sweepAll window (before ++ [w])).get rec.execId = none := by
      rw [get_sweepAll_append, hget]
      exact sweepOne_past (by rw [htime, ← hf']; exact hpast)
    have hagain := h.again before w hprefix rec.execId
    rw [get_mergeExecutions, hpruned] at hagain
    exact hback hagain
  | none =>
    have hgone := h.gone before [w] hprefix rec.execId (by rw [hf]; exact Option.some_ne_none f) hget
    rw [get_sweepAll_append, hget] at hgone
    exact hback hgone

/-- The store is faithful over a run of sweeps exactly where no execution is reported
    with a time in the window after its recorded time has left it. -/
theorem sweeps_faithful_iff (hsteady : Steady sweeps) :
    Faithful window sweeps ↔ StaysOutThroughout window sweeps :=
  ⟨staysOut_of_faithful hsteady, faithful_of_staysOut hsteady⟩

end Faithful

instance (ex later : RawExec) : Decidable (ex.Repeats later) :=
  decidable_of_iff (later = { ex with realizedPnl := later.realizedPnl, commission := later.commission } ∧
      (ex.realizedPnl ≠ none → later.realizedPnl = ex.realizedPnl) ∧
      (isZero ex.commission = false → later.commission = ex.commission))
    ⟨fun h => ⟨h.1, h.2.1, h.2.2⟩, fun h => ⟨h.same, h.realizedPnl, h.commission⟩⟩

instance (sweeps : List Sweep) : Decidable (Steady sweeps) :=
  decidable_of_iff (_ ∧ _) ⟨fun h => ⟨h.1, h.2⟩, fun h => ⟨h.times, h.repeats⟩⟩

/-- An execution that a host seven hours behind UTC reports as seven hours ahead. -/
def shiftedExec : RawExec :=
  { execId := "0000e0d5.1", localSymbol := "MESM6", symbol := "MES", secType := "FUT", side := "BOT",
    execTime := some 25200, price := some 5000, shares := some 1 }

/-- The execution at its time, and twice after its day is over. -/
def shiftedRun : List Sweep :=
  [⟨[shiftedExec], 0, -25200⟩, ⟨[shiftedExec], 86401, -25200⟩, ⟨[shiftedExec], 86410, -25200⟩]

theorem shiftedRun_steady : Steady shiftedRun := by decide

/-- The record made of the execution. -/
def shiftedRecord : ExecRecord :=
  { localSymbol := "MESM6", symbol := "MES", secType := "FUT", multiplier := none, side := "BOT",
    execId := "0000e0d5.1", permId := 0, execTime := 25200, realizedPnl := none, price := some 5000,
    shares := some 1, commission := none }

theorem sweeps_faithful_iff_shifted : ¬Faithful 86400 shiftedRun := by
  intro h
  have hout := (sweeps_faithful_iff shiftedRun_steady).mp h
  have hpast := hout [⟨[shiftedExec], 0, -25200⟩] ⟨[shiftedExec], 86401, -25200⟩
    [⟨[shiftedExec], 86410, -25200⟩] rfl shiftedRecord (by decide +kernel)
    { shiftedRecord with execTime := 0 } (by decide +kernel) (by decide +kernel)
  revert hpast
  decide +kernel

/-- The execution comes back once its recorded time has left the window. -/
theorem sweeps_faithful_fails : ¬∀ window sweeps, Steady sweeps → Faithful window sweeps := by
  intro h
  have hsplit : shiftedRun.take 2 ++ shiftedRun.drop 2 <+: shiftedRun :=
    ⟨[], (List.append_nil _).trans (List.take_append_drop 2 shiftedRun)⟩
  have hgone := (h 86400 shiftedRun shiftedRun_steady).gone (shiftedRun.take 2) (shiftedRun.drop 2) hsplit
    "0000e0d5.1" (by decide +kernel) (by decide +kernel)
  revert hgone
  decide +kernel

end IbTrader.Engine.ExecAccumulator
