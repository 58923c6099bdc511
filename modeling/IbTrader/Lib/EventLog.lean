/-
  IbTrader.Lib.EventLog

  Logs that keep at least their newest entries, and a consumer that reads several of them
  after a cursor of its own for each.

  A read that waits is answered with what came after the cursors; the entries of an
  answer are handed on one by one, and a cursor moves when an entry is handed on.  A
  cursor may also stand for the end of the log, wherever it is when a read starts.
  What was handed on, what is in hand and what is not read yet is all that was appended
  after the start, each entry once and in order (`Conserved`), in exactly the runs that do
  not move past an entry (`conserved_iff`).  With a cursor that is not the end, and never
  more unread than the log keeps, that is every run (`conserved_of_backlog`).
-/

import IbTrader.Lib.Run
import Mathlib.Data.List.Dedup

namespace IbTrader.Lib

-- ============================================================================
-- Logs
-- ============================================================================

/-- All that was appended, and how many of the oldest entries are gone.  An entry is known
    by its number, from one. -/
structure EventLog (α : Type*) (keep : ℕ) where
  added : List α
  dropped : ℕ
  kept : dropped ≤ added.length - keep

namespace EventLog

variable {α : Type*} {keep : ℕ}

def empty : EventLog α keep := ⟨[], 0, Nat.zero_le _⟩

def length (l : EventLog α keep) : ℕ := l.added.length

/-- Append an entry; up to `drop` of the oldest go, as far as the newest are kept. -/
def append (l : EventLog α keep) (a : α) (drop : ℕ) : EventLog α keep where
  added := l.added ++ [a]
  dropped := max l.dropped (min drop (l.length + 1 - keep))
  kept := by
    have := l.kept
    rw [List.length_append, List.length_singleton]
    unfold length
    omega

def numbered (l : EventLog α keep) : List (α × ℕ) := l.added.zipIdx 1

/-- The entries after one, as far as they are still there. -/
def after (l : EventLog α keep) (id : ℕ) : List (α × ℕ) := l.numbered.drop (max id l.dropped)

/-- The first of them, if only so many are wanted. -/
def afterUpTo (l : EventLog α keep) (id : ℕ) (count : Option ℕ) : List (α × ℕ) :=
  (l.after id).take (count.getD (l.after id).length)

/-- The number of the last entry that is there, or zero. -/
def tail (l : EventLog α keep) : ℕ := if l.length = l.dropped then 0 else l.length

variable (l : EventLog α keep)

@[simp] theorem length_append (a : α) (drop : ℕ) : (l.append a drop).length = l.length + 1 := by
  simp [append, length]

@[simp] theorem length_numbered : l.numbered.length = l.length := List.length_zipIdx

theorem numbered_append (a : α) (drop : ℕ) :
    (l.append a drop).numbered = l.numbered ++ [(a, l.length + 1)] := by
  simp [append, numbered, length, List.zipIdx_append, Nat.add_comm]

/-- An entry stands where its number says. -/
theorem snd_of_getElem? {i : ℕ} {e : α × ℕ} (h : l.numbered[i]? = some e) : e.2 = i + 1 := by
  unfold numbered at h
  rw [List.getElem?_zipIdx] at h
  obtain ⟨a, -, rfl⟩ := Option.map_eq_some_iff.mp h
  exact Nat.add_comm 1 i

/-- A log that keeps anything is only empty where nothing was appended. -/
theorem tail_eq_length (hkeep : 0 < keep) : l.tail = l.length := by
  have hkept := l.kept
  unfold tail
  unfold length at *
  split
  · omega
  · rfl

/-- The last of some entries that follow one another. -/
theorem getLast?_take_drop {m n : ℕ} {e : α × ℕ} (h : ((l.numbered.drop m).take n).getLast? = some e) :
    e.2 = m + ((l.numbered.drop m).take n).length := by
  rw [List.getLast?_eq_getElem?] at h
  obtain ⟨hlt, -⟩ := List.getElem?_eq_some_iff.mp h
  rw [List.getElem?_take_of_lt (by rw [List.length_take] at hlt ⊢; omega), List.getElem?_drop] at h
  have hnumber := l.snd_of_getElem? h
  omega

/-- Some entries that follow one another, and the rest. -/
theorem take_append_rest (m n : ℕ) :
    (l.numbered.drop m).take n ++ l.numbered.drop (m + ((l.numbered.drop m).take n).length) = l.numbered.drop m := by
  rw [← List.drop_drop]
  exact List.prefix_iff_eq_append.mp (List.take_prefix n _)

/-- What is read after an entry, and what comes after the last that is read. -/
theorem afterUpTo_append {id : ℕ} (hid : id ≤ l.length) (hdropped : l.dropped ≤ id) (count : Option ℕ) :
    l.afterUpTo id count ++ l.numbered.drop (((l.afterUpTo id count).getLast?.map Prod.snd).getD id) =
        l.numbered.drop id ∧
      ((l.afterUpTo id count).getLast?.map Prod.snd).getD id ≤ l.length := by
  have hafter : l.afterUpTo id count = (l.numbered.drop id).take (count.getD (l.after id).length) := by
    unfold afterUpTo after
    rw [Nat.max_eq_left hdropped]
  rw [hafter]
  have hrest := l.take_append_rest id (count.getD (l.after id).length)
  cases hlast : ((l.numbered.drop id).take (count.getD (l.after id).length)).getLast? with
  | none => exact ⟨by rw [List.getLast?_eq_none_iff.mp hlast]; rfl, hid⟩
  | some e =>
    have hnumber := l.getLast?_take_drop hlast
    have hlength := congrArg List.length hrest
    rw [← hnumber, List.length_append, List.length_drop, List.length_drop, length_numbered] at hlength
    rw [← hnumber] at hrest
    refine ⟨hrest, ?_⟩
    show e.2 ≤ l.length
    omega

end EventLog

-- ============================================================================
-- A consumer
-- ============================================================================

/-- What a consumer reads a log after: an entry, or the end wherever it is. -/
inductive Cursor
  | entry (id : ℕ)
  | end_
  deriving DecidableEq, Repr

def Cursor.resolve (length : ℕ) : Cursor → ℕ
  | .entry id => id
  | .end_ => length

namespace Consumer

variable {S α : Type*} [DecidableEq S] {keep : S → ℕ}

inductive Phase (S α : Type*)
  | idle
  /-- A read waits for what comes after these. -/
  | waiting (after : S → ℕ)
  /-- Entries of an answer that are still to be handed on. -/
  | handing (rest : List (S × α × ℕ))
  | ended

structure World (S α : Type*) (keep : S → ℕ) where
  logs : ∀ s, EventLog α (keep s)
  cursor : S → Cursor
  phase : Phase S α
  /-- All that was handed on. -/
  handed : List (S × α × ℕ)

inductive Event (S α : Type*)
  | add (s : S) (a : α) (drop : ℕ)
  | read
  /-- The read is answered with what it waits for of these logs, up to `count` entries of each. -/
  | answer (ss : List S) (count : Option ℕ)
  /-- The read ends with nothing. -/
  | lapse
  /-- The next entry is handed on; after the last one the consumer may read again. -/
  | next
  | close

/-- The answer to a read. -/
def answered (logs : ∀ s, EventLog α (keep s)) (after : S → ℕ) (ss : List S) (count : Option ℕ) :
    List (S × α × ℕ) :=
  ss.dedup.flatMap fun s => ((logs s).afterUpTo (after s) count).map (s, ·)

def World.next (w : World S α keep) : Event S α → World S α keep
  | .add s a drop => { w with logs := Function.update w.logs s ((w.logs s).append a drop) }
  | .read =>
    match w.phase with
    | .idle => { w with phase := .waiting fun s => (w.cursor s).resolve (w.logs s).length }
    | _ => w
  | .answer ss count =>
    match w.phase with
    | .waiting after => { w with phase := .handing (answered w.logs after ss count) }
    | _ => w
  | .lapse =>
    match w.phase with
    | .waiting _ => { w with phase := .idle }
    | _ => w
  | .next =>
    match w.phase with
    | .handing [] => { w with phase := .idle }
    | .handing (e :: rest) =>
      { w with cursor := Function.update w.cursor e.1 (.entry e.2.2), phase := .handing rest,
               handed := w.handed ++ [e] }
    | _ => w
  | .close =>
    match w.phase with
    | .idle | .waiting _ => { w with phase := .ended }
    | _ => w

/-- What of a list of entries is from one log. -/
def ofLog (s : S) (es : List (S × α × ℕ)) : List (α × ℕ) := es.filterMap fun e => if e.1 = s then some e.2 else none

def Phase.held (s : S) : Phase S α → List (α × ℕ)
  | .handing rest => ofLog s rest
  | _ => []

/-- What a read waits for. -/
def Phase.waits : Phase S α → Option (S → ℕ)
  | .waiting after => some after
  | _ => none

/-- The entry after which a log is read next. -/
def World.position (w : World S α keep) (s : S) : ℕ :=
  match w.phase.waits, (w.phase.held s).getLast? with
  | some after, _ => after s
  | none, some e => e.2
  | none, none => (w.cursor s).resolve (w.logs s).length

/-- What comes after what was handed on and what is in hand. -/
def World.unread (w : World S α keep) (s : S) : List (α × ℕ) := (w.logs s).numbered.drop (w.position s)

/-- What was handed on and what is in hand. -/
def World.taken (w : World S α keep) (s : S) : List (α × ℕ) := ofLog s w.handed ++ w.phase.held s

/-- All that was appended after an entry was handed on, is in hand or is not read yet,
    each entry once and in order. -/
def Conserved (s : S) (start : ℕ) (w : World S α keep) : Prop :=
  w.taken s ++ w.unread s = (w.logs s).numbered.drop start

/-- The consumer does not move past an entry of the log.  The end of the log moves on with
    each entry that comes while no read waits, or that a read ends without. -/
def Unskipped (s : S) (w : World S α keep) : Event S α → Prop
  | .add t _ _ => w.phase.waits = none → t = s → w.phase.held s = [] → w.cursor s ≠ .end_
  | .lapse | .close => ∀ after, w.phase.waits = some after → w.cursor s = .end_ → w.unread s = []
  | .answer ss count => ∀ after, w.phase.waits = some after →
    if ofLog s (answered w.logs after ss count) = [] then w.cursor s = .end_ → w.unread s = []
    else (w.logs s).dropped ≤ after s
  | .read | .next => True

section Position

variable {w : World S α keep} {s : S}

theorem position_waiting {after : S → ℕ} (h : w.phase.waits = some after) : w.position s = after s := by
  unfold World.position
  rw [h]

theorem position_held {e : α × ℕ} (h : w.phase.waits = none) (hheld : (w.phase.held s).getLast? = some e) :
    w.position s = e.2 := by
  unfold World.position
  rw [h, hheld]

theorem position_free (h : w.phase.waits = none) (hheld : w.phase.held s = []) :
    w.position s = (w.cursor s).resolve (w.logs s).length := by
  unfold World.position
  rw [h, hheld]
  rfl

theorem held_of_waits {after : S → ℕ} (h : w.phase.waits = some after) : w.phase.held s = [] := by
  cases hphase : w.phase <;> rw [hphase] at h <;> first | rfl | cases h

end Position

theorem ofLog_append (s : S) (es fs : List (S × α × ℕ)) : ofLog s (es ++ fs) = ofLog s es ++ ofLog s fs :=
  List.filterMap_append

theorem ofLog_cons_self (e : S × α × ℕ) (es : List (S × α × ℕ)) : ofLog e.1 (e :: es) = e.2 :: ofLog e.1 es := by
  simp [ofLog]

theorem ofLog_cons_of_ne {s : S} {e : S × α × ℕ} (h : e.1 ≠ s) (es : List (S × α × ℕ)) :
    ofLog s (e :: es) = ofLog s es := by
  simp [ofLog, h]

theorem ofLog_map (s t : S) (es : List (α × ℕ)) : ofLog s (es.map (t, ·)) = if t = s then es else [] := by
  split
  · next h => simp [ofLog, h, List.filterMap_map]
  · next h => simp [ofLog, h, List.filterMap_map]

/-- Of an answer, what comes from one log. -/
theorem ofLog_answered (logs : ∀ s, EventLog α (keep s)) (after : S → ℕ) (ss : List S) (count : Option ℕ) (s : S) :
    ofLog s (answered logs after ss count) = if s ∈ ss then (logs s).afterUpTo (after s) count else [] := by
  have hflat : ∀ (ts : List S), ts.Nodup → ofLog s (ts.flatMap fun t => ((logs t).afterUpTo (after t) count).map (t, ·)) =
      if s ∈ ts then (logs s).afterUpTo (after s) count else [] := by
    intro ts hnodup
    induction ts with
    | nil => rfl
    | cons t ts ih =>
      obtain ⟨hnot, hnodup⟩ := List.nodup_cons.mp hnodup
      rw [List.flatMap_cons, ofLog_append, ofLog_map, ih hnodup]
      by_cases hts : t = s
      · subst hts
        simp [hnot]
      · simp [hts, Ne.symm hts]
  rw [answered, hflat _ (List.nodup_dedup ss)]
  simp only [List.mem_dedup]

-- ============================================================================
-- Nothing is moved past
-- ============================================================================

/-- What every event keeps: nothing is taken twice, out of order or from elsewhere, and a
    read that waits waits for what comes after the cursor. -/
structure Sound (s : S) (start : ℕ) (w : World S α keep) : Prop where
  start_le : start ≤ w.position s
  position_le : w.position s ≤ (w.logs s).length
  once : (w.taken s).Sublist (((w.logs s).numbered.take (w.position s)).drop start)
  waits_for : ∀ after, w.phase.waits = some after → ∀ id, w.cursor s = .entry id → after s = id

section Step

variable {s : S} {start : ℕ} {w w' : World S α keep}

/-- A step that leaves the log, and what is taken of it, where they are keeps everything
    exactly if it moves past nothing. -/
theorem step_move (h : Sound s start w) (hlogs : w'.logs s = w.logs s) (htaken : w'.taken s = w.taken s)
    (hle : w.position s ≤ w'.position s) (hle' : w'.position s ≤ (w.logs s).length)
    (hwaits : ∀ after, w'.phase.waits = some after → ∀ id, w'.cursor s = .entry id → after s = id) :
    Sound s start w' ∧ (Conserved s start w → (Conserved s start w' ↔ w'.position s = w.position s)) := by
  refine ⟨⟨h.start_le.trans hle, hlogs ▸ hle', ?_, hwaits⟩, fun hc => ?_⟩
  · rw [hlogs, htaken]
    exact h.once.trans ((List.take_sublist_take_left hle).drop start)
  · unfold Conserved World.unread at *
    rw [hlogs, htaken, ← hc, List.append_cancel_left_eq]
    refine ⟨fun heq => ?_, fun heq => by rw [heq]⟩
    have hlength := congrArg List.length heq
    rw [List.length_drop, List.length_drop, EventLog.length_numbered] at hlength
    omega

/-- The next position where nothing is in hand: after the cursor, or at the end. -/
theorem resolve_eq_iff (h : Sound s start w) {after : S → ℕ} (hwaits : w.phase.waits = some after) :
    (w.cursor s).resolve (w.logs s).length = w.position s ↔ (w.cursor s = .end_ → w.unread s = []) := by
  have hle := h.position_le
  cases hcursor : w.cursor s with
  | entry id =>
    rw [position_waiting hwaits, h.waits_for after hwaits id hcursor]
    exact iff_of_true rfl nofun
  | end_ =>
    unfold World.unread
    rw [List.drop_eq_nil_iff, EventLog.length_numbered]
    show (w.logs s).length = w.position s ↔ _
    exact ⟨fun heq _ => heq.le, fun h => le_antisymm (h rfl) hle⟩

theorem resolve_le (h : Sound s start w) {after : S → ℕ} (hwaits : w.phase.waits = some after) :
    w.position s ≤ (w.cursor s).resolve (w.logs s).length ∧
      (w.cursor s).resolve (w.logs s).length ≤ (w.logs s).length := by
  have hle := h.position_le
  cases hcursor : w.cursor s with
  | entry id =>
    have hid := h.waits_for after hwaits id hcursor
    rw [position_waiting hwaits, hid] at hle ⊢
    exact ⟨le_rfl, hle⟩
  | end_ => exact ⟨hle, le_rfl⟩

/-- A read that ends with nothing. -/
theorem step_lapse (h : Sound s start w) {after : S → ℕ} (hwaits : w.phase.waits = some after) {phase : Phase S α}
    (hphase : phase.waits = none) (hheld : phase.held s = []) :
    Sound s start { w with phase } ∧ (Conserved s start w →
      (Conserved s start { w with phase } ↔ (w.cursor s = .end_ → w.unread s = []))) := by
  have hposition : World.position { w with phase } s = (w.cursor s).resolve (w.logs s).length :=
    position_free hphase hheld
  have htaken : World.taken { w with phase } s = w.taken s := by
    unfold World.taken
    rw [held_of_waits hwaits]
    exact congrArg (ofLog s w.handed ++ ·) hheld
  obtain ⟨hle, hle'⟩ := resolve_le h hwaits
  rw [← resolve_eq_iff h hwaits, ← hposition]
  refine step_move h rfl htaken (hposition ▸ hle) (hposition ▸ hle') fun _ hw => ?_
  rw [show Phase.waits phase = none from hphase] at hw
  cases hw

/-- The next entry is handed on, or there is none. -/
theorem step_next (h : Sound s start w) :
    Sound s start (w.next .next) ∧ (Conserved s start w → Conserved s start (w.next .next)) := by
  obtain ⟨logs, cursor, phase, handed⟩ := w
  -- it is enough that what is taken, and the position, stay
  have hkeep : ∀ {w' : World S α keep}, w'.logs = logs → w'.phase.waits = none →
      w'.position s = World.position ⟨logs, cursor, phase, handed⟩ s →
      w'.taken s = World.taken ⟨logs, cursor, phase, handed⟩ s →
      Sound s start w' ∧ (Conserved s start ⟨logs, cursor, phase, handed⟩ → Conserved s start w') := by
    intro w' hlogs hwaits hposition htaken
    refine (step_move h (congrFun hlogs s) htaken hposition.ge (hposition.trans_le h.position_le) fun _ hw => ?_).imp_right
      fun hc hstart => (hc hstart).mpr hposition
    rw [hwaits] at hw
    cases hw
  cases phase with
  | idle => exact ⟨h, id⟩
  | waiting after => exact ⟨h, id⟩
  | ended => exact ⟨h, id⟩
  | handing rest =>
    cases rest with
    | nil => exact hkeep rfl rfl rfl rfl
    | cons e rest =>
      by_cases hs : e.1 = s
      · subst hs
        refine hkeep rfl rfl ?_ ?_
        · -- the cursor is where the last entry in hand was
          unfold World.position
          simp only [World.next, Phase.waits, Phase.held, ofLog_cons_self]
          cases hlast : (ofLog e.1 rest).getLast? with
          | none => rw [List.getLast?_eq_none_iff.mp hlast]; simp [Cursor.resolve]
          | some f => simp [List.getLast?_cons, hlast]
        · show ofLog e.1 (handed ++ [e]) ++ ofLog e.1 rest = _
          simp [World.taken, Phase.held, ofLog]
      · refine hkeep rfl rfl ?_ ?_
        · unfold World.position
          simp only [World.next, Phase.waits, Phase.held, ofLog_cons_of_ne hs]
          rw [Function.update_of_ne (Ne.symm hs)]
        · show ofLog s (handed ++ [e]) ++ ofLog s rest = _
          simp [World.taken, Phase.held, ofLog, hs]

/-- A read starts where the consumer would. -/
theorem step_read (h : Sound s start w) :
    Sound s start (w.next .read) ∧ (Conserved s start w → Conserved s start (w.next .read)) := by
  obtain ⟨logs, cursor, phase, handed⟩ := w
  cases phase with
  | idle =>
    have hposition : World.position (World.next ⟨logs, cursor, .idle, handed⟩ .read) s =
        World.position ⟨logs, cursor, .idle, handed⟩ s := rfl
    have hmove : Sound s start (World.next ⟨logs, cursor, .idle, handed⟩ .read) ∧ _ :=
      step_move h rfl rfl hposition.ge (hposition.trans_le h.position_le) ?_
    · exact hmove.imp_right fun hc hstart => (hc hstart).mpr hposition
    rintro after hwaits id hcursor
    cases hwaits
    show (cursor s).resolve _ = id
    rw [show cursor s = .entry id from hcursor]
    rfl
  | waiting after => exact ⟨h, id⟩
  | handing rest => exact ⟨h, id⟩
  | ended => exact ⟨h, id⟩

/-- Entries come to another log. -/
theorem step_add_other (h : Sound s start w) {t : S} (hts : t ≠ s) (a : α) (drop : ℕ) :
    Sound s start (w.next (.add t a drop)) ∧ (Conserved s start w → Conserved s start (w.next (.add t a drop))) := by
  have hlogs : (w.next (.add t a drop)).logs s = w.logs s := Function.update_of_ne (Ne.symm hts) _ _
  have hposition : (w.next (.add t a drop)).position s = w.position s := by
    unfold World.position
    rw [hlogs]
    rfl
  exact (step_move h hlogs rfl hposition.ge (hposition.trans_le h.position_le) h.waits_for).imp_right
    fun hc hstart => (hc hstart).mpr hposition

/-- Entries come to this log. -/
theorem step_add (h : Sound s start w) (a : α) (drop : ℕ) :
    Sound s start (w.next (.add s a drop)) ∧ (Conserved s start w →
      (Conserved s start (w.next (.add s a drop)) ↔ Unskipped s w (.add s a drop))) := by
  have hle := h.position_le
  have hlogs : (w.next (.add s a drop)).logs s = (w.logs s).append a drop := Function.update_self ..
  have hlength : ((w.next (.add s a drop)).logs s).length = (w.logs s).length + 1 := by
    rw [hlogs, EventLog.length_append]
  have hdrop : ∀ i ≤ (w.logs s).length, ((w.next (.add s a drop)).logs s).numbered.drop i =
      (w.logs s).numbered.drop i ++ [(a, (w.logs s).length + 1)] := by
    intro i hi
    rw [hlogs, EventLog.numbered_append, List.drop_append_of_le_length (by rwa [EventLog.length_numbered])]
  have hsound : w.position s ≤ (w.next (.add s a drop)).position s →
      (w.next (.add s a drop)).position s ≤ (w.logs s).length + 1 → Sound s start (w.next (.add s a drop)) := by
    refine fun hmoves hposition => ⟨h.start_le.trans hmoves, hlength ▸ hposition, h.once.trans ?_, h.waits_for⟩
    rw [hlogs, EventLog.numbered_append]
    have hsame : ((w.logs s).numbered ++ [(a, (w.logs s).length + 1)]).take (w.position s) =
        (w.logs s).numbered.take (w.position s) := List.take_append_of_le_length (by rwa [EventLog.length_numbered])
    rw [← hsame]
    exact (List.take_sublist_take_left hmoves).drop start
  -- the position stays, or it is the end and moves with it
  by_cases hend : w.phase.waits = none ∧ w.phase.held s = [] ∧ w.cursor s = .end_
  · obtain ⟨hwaits, hheld, hcursor⟩ := hend
    have hposition : w.position s = (w.logs s).length := by rw [position_free hwaits hheld, hcursor]; rfl
    have hposition' : (w.next (.add s a drop)).position s = (w.logs s).length + 1 := by
      rw [position_free (w := w.next (.add s a drop)) hwaits hheld, hlength,
        show (w.next (.add s a drop)).cursor s = .end_ from hcursor]
      rfl
    refine ⟨hsound (by omega) hposition'.le, fun hc => iff_of_false (fun hc' => ?_) fun hun =>
      hun hwaits rfl hheld hcursor⟩
    unfold Conserved World.unread at hc hc'
    rw [hdrop _ (h.start_le.trans hle), ← hc, hposition', hposition] at hc'
    change w.taken s ++ _ = _ at hc'
    have htotal := congrArg List.length hc'
    simp only [List.length_append, List.length_drop, EventLog.length_numbered, hlength, List.length_singleton] at htotal
    omega
  · have hposition : (w.next (.add s a drop)).position s = w.position s := by
      unfold World.position
      rw [show (w.next (.add s a drop)).phase = w.phase from rfl, hlength]
      cases hwaits : w.phase.waits with
      | some after => rfl
      | none =>
        cases hlast : (w.phase.held s).getLast? with
        | some e => rfl
        | none =>
          show (w.cursor s).resolve _ = (w.cursor s).resolve _
          cases hcursor : w.cursor s with
          | entry id => rfl
          | end_ => exact absurd ⟨hwaits, List.getLast?_eq_none_iff.mp hlast, hcursor⟩ hend
    refine ⟨hsound hposition.ge (by omega), fun hc => iff_of_true ?_ fun hwaits _ hheld hcursor =>
      hend ⟨hwaits, hheld, hcursor⟩⟩
    unfold Conserved World.unread at hc ⊢
    rw [hposition, hdrop _ hle, hdrop _ (h.start_le.trans hle), ← hc, List.append_assoc]
    rfl

/-- A read is answered. -/
theorem step_answer (h : Sound s start w) {after : S → ℕ} (hwaits : w.phase.waits = some after) (ss : List S)
    (count : Option ℕ) :
    Sound s start { w with phase := .handing (answered w.logs after ss count) } ∧ (Conserved s start w →
      (Conserved s start { w with phase := .handing (answered w.logs after ss count) } ↔
        Unskipped s w (.answer ss count))) := by
  have hunskipped : Unskipped s w (.answer ss count) ↔
      if ofLog s (answered w.logs after ss count) = [] then w.cursor s = .end_ → w.unread s = []
      else (w.logs s).dropped ≤ after s := by
    unfold Unskipped
    rw [hwaits]
    exact ⟨fun h => h after rfl, fun h _ heq => Option.some.inj heq ▸ h⟩
  rw [hunskipped]
  by_cases hnone : ofLog s (answered w.logs after ss count) = []
  · rw [if_pos hnone]
    exact step_lapse h hwaits rfl hnone
  rw [if_neg hnone]
  -- what is in hand now is what comes first after the cursor, as far as it is still there
  have hin : s ∈ ss := by
    by_contra hnot
    rw [ofLog_answered, if_neg hnot] at hnone
    exact hnone rfl
  obtain ⟨m, hm⟩ : ∃ m, m = max (after s) (w.logs s).dropped := ⟨_, rfl⟩
  obtain ⟨es, n, hes, hheld⟩ : ∃ es n, es = ((w.logs s).numbered.drop m).take n ∧
      ofLog s (answered w.logs after ss count) = es := by
    subst hm
    exact ⟨_, count.getD ((w.logs s).after (after s)).length, rfl, by rw [ofLog_answered, if_pos hin]; rfl⟩
  rw [hheld] at hnone
  have hposition : World.position { w with phase := .handing (answered w.logs after ss count) } s = m + es.length := by
    cases hlast : es.getLast? with
    | none => exact absurd (List.getLast?_eq_none_iff.mp hlast) hnone
    | some e =>
      rw [position_held (w := { w with phase := .handing (answered w.logs after ss count) }) (e := e) rfl
        (show (ofLog s (answered w.logs after ss count)).getLast? = some e by rw [hheld, hlast])]
      rw [hes] at hlast ⊢
      exact (w.logs s).getLast?_take_drop hlast
  have htaken : World.taken { w with phase := .handing (answered w.logs after ss count) } s = w.taken s ++ es := by
    unfold World.taken
    rw [held_of_waits hwaits, List.append_nil]
    exact congrArg (ofLog s w.handed ++ ·) hheld
  have hrest : es ++ (w.logs s).numbered.drop (m + es.length) = (w.logs s).numbered.drop m :=
    hes ▸ (w.logs s).take_append_rest m n
  have hlength : m < (w.logs s).length ∧ m + es.length ≤ (w.logs s).length := by
    have hpos := List.length_pos_iff.mpr hnone
    have htotal := congrArg List.length hrest
    rw [List.length_append, List.length_drop, List.length_drop, EventLog.length_numbered] at htotal
    omega
  have hpast : w.position s ≤ m := by
    rw [position_waiting hwaits, hm]
    exact Nat.le_max_left _ _
  refine ⟨⟨?_, hposition ▸ hlength.2, ?_, fun _ hw => by cases hw⟩, fun hc => ?_⟩
  · have := h.start_le
    omega
  · have hfirst : (w.logs s).numbered.take (m + es.length) = (w.logs s).numbered.take m ++ es := by
      rw [List.take_add, ← hrest, List.take_left']
      rfl
    rw [hposition, htaken]
    show (w.taken s ++ es).Sublist (((w.logs s).numbered.take (m + es.length)).drop start)
    rw [hfirst, List.drop_append_of_le_length (by
      rw [List.length_take, EventLog.length_numbered]
      have := h.start_le
      omega)]
    exact (h.once.trans ((List.take_sublist_take_left hpast).drop start)).append (List.Sublist.refl es)
  · unfold Conserved World.unread at hc ⊢
    rw [htaken, hposition, List.append_assoc]
    show _ ++ (es ++ (w.logs s).numbered.drop (m + es.length)) = (w.logs s).numbered.drop start ↔ _
    rw [hrest, ← hc, List.append_cancel_left_eq, position_waiting hwaits]
    refine ⟨fun heq => ?_, fun hle => by rw [hm, Nat.max_eq_left hle]⟩
    have hdropped := congrArg List.length heq
    rw [List.length_drop, List.length_drop, EventLog.length_numbered] at hdropped
    omega

/-- What one event does. -/
theorem step (h : Sound s start w) (e : Event S α) :
    Sound s start (w.next e) ∧ (Conserved s start w → (Conserved s start (w.next e) ↔ Unskipped s w e)) := by
  obtain ⟨logs, cursor, phase, handed⟩ := w
  cases e with
  | add t a drop =>
    by_cases hts : t = s
    · subst hts
      exact step_add h a drop
    · exact (step_add_other h hts a drop).imp_right fun hc hstart => iff_of_true (hc hstart) fun _ heq => absurd heq hts
  | read => exact (step_read h).imp_right fun hc hstart => iff_of_true (hc hstart) trivial
  | next => exact (step_next h).imp_right fun hc hstart => iff_of_true (hc hstart) trivial
  | answer ss count =>
    cases phase with
    | waiting after => exact step_answer h rfl ss count
    | idle => exact ⟨h, fun hc => iff_of_true hc fun _ hwaits => by cases hwaits⟩
    | handing rest => exact ⟨h, fun hc => iff_of_true hc fun _ hwaits => by cases hwaits⟩
    | ended => exact ⟨h, fun hc => iff_of_true hc fun _ hwaits => by cases hwaits⟩
  | lapse =>
    cases phase with
    | waiting after =>
      exact (step_lapse h rfl rfl rfl).imp_right fun hc hstart => (hc hstart).trans ⟨fun h _ _ => h, fun h => h after rfl⟩
    | idle => exact ⟨h, fun hc => iff_of_true hc fun _ hwaits => by cases hwaits⟩
    | handing rest => exact ⟨h, fun hc => iff_of_true hc fun _ hwaits => by cases hwaits⟩
    | ended => exact ⟨h, fun hc => iff_of_true hc fun _ hwaits => by cases hwaits⟩
  | close =>
    cases phase with
    | waiting after =>
      exact (step_lapse h rfl rfl rfl).imp_right fun hc hstart => (hc hstart).trans ⟨fun h _ _ => h, fun h => h after rfl⟩
    | idle =>
      exact ⟨⟨h.start_le, h.position_le, h.once, fun _ hwaits => by cases hwaits⟩, fun hc =>
        iff_of_true hc fun _ hwaits => by cases hwaits⟩
    | handing rest => exact ⟨h, fun hc => iff_of_true hc fun _ hwaits => by cases hwaits⟩
    | ended => exact ⟨h, fun hc => iff_of_true hc fun _ hwaits => by cases hwaits⟩

end Step

-- ============================================================================
-- Runs
-- ============================================================================

section Runs

variable {s : S} {start : ℕ} {w : World S α keep}

def World.after (w : World S α keep) (es : List (Event S α)) : World S α keep := es.foldl World.next w

/-- The consumer has not begun: it reads the log after an entry of it, or at its end. -/
structure Fresh (s : S) (w : World S α keep) : Prop where
  idle : w.phase = .idle
  none_handed : ofLog s w.handed = []
  in_log : (w.cursor s).resolve (w.logs s).length ≤ (w.logs s).length

theorem Fresh.position (h : Fresh s w) : w.position s = (w.cursor s).resolve (w.logs s).length :=
  position_free (by rw [h.idle]; rfl) (by rw [h.idle]; rfl)

theorem Fresh.sound (h : Fresh s w) : Sound s (w.position s) w :=
  have hle : w.position s ≤ (w.logs s).length := h.position ▸ h.in_log
  have htaken : w.taken s = [] := by unfold World.taken; rw [h.none_handed, h.idle]; rfl
  ⟨le_rfl, hle, htaken ▸ List.nil_sublist _, fun _ hwaits => by rw [h.idle] at hwaits; cases hwaits⟩

theorem Fresh.conserved (h : Fresh s w) : Conserved s (w.position s) w := by
  unfold Conserved World.unread World.taken
  rw [h.none_handed, h.idle]
  rfl

/-- Nothing is taken twice, out of order or from elsewhere. -/
theorem taken_sublist (h : Fresh s w) (es : List (Event S α)) :
    ((w.after es).taken s).Sublist (((w.after es).logs s).numbered.drop (w.position s)) := by
  have hstep : ∀ (v : World S α keep) e, Sound s (w.position s) v → True → Sound s (w.position s) (v.next e) :=
    fun v e hs _ => (step hs e).1
  have hsound := Along.invariant hstep es h.sound (Along.of_forall es fun _ _ => trivial)
  exact hsound.once.trans ((List.take_sublist _ _).drop _)

/-- Everything is conserved throughout exactly the runs that move past nothing. -/
theorem conserved_iff (h : Fresh s w) (es : List (Event S α)) :
    (∀ js, js <+: es → Conserved s (w.position s) (w.after js)) ↔ Along World.next (Unskipped s) w es :=
  Along.iff_forall_prefix (I := Sound s (w.position s)) (fun _ e hs => (step hs e).1)
    (fun _ e hs hc => (step hs e).2 hc) es h.sound h.conserved

/-- A log keeps its entries and their numbers. -/
theorem numbered_next (w : World S α keep) (e : Event S α) (s : S) :
    (w.logs s).numbered <+: ((w.next e).logs s).numbered := by
  obtain ⟨logs, cursor, phase, handed⟩ := w
  cases e with
  | add t a drop =>
    show _ <+: (Function.update logs t _ s).numbered
    by_cases hs : s = t
    · subst hs
      rw [Function.update_self, EventLog.numbered_append]
      exact List.prefix_append _ _
    · rw [Function.update_of_ne hs]
  | next =>
    cases phase with
    | handing rest => cases rest <;> exact List.prefix_refl _
    | _ => exact List.prefix_refl _
  | _ => cases phase <;> exact List.prefix_refl _

theorem numbered_after (es : List (Event S α)) (w : World S α keep) (s : S) :
    (w.logs s).numbered <+: ((w.after es).logs s).numbered := by
  induction es generalizing w with
  | nil => exact List.prefix_refl _
  | cons e es ih => exact (numbered_next w e s).trans (ih _)

/-- Nothing that is not read yet is gone. -/
theorem dropped_le_position (h : (w.unread s).length ≤ keep s) : (w.logs s).dropped ≤ w.position s := by
  have hkept := (w.logs s).kept
  unfold World.unread at h
  rw [List.length_drop, EventLog.length_numbered] at h
  unfold EventLog.length at h
  omega

/-- A cursor that is an entry stays one. -/
theorem cursor_next (h : w.cursor s ≠ .end_) (e : Event S α) : (w.next e).cursor s ≠ .end_ := by
  obtain ⟨logs, cursor, phase, handed⟩ := w
  cases e <;> cases phase <;> first | exact h | skip
  rename_i rest
  cases rest with
  | nil => exact h
  | cons e rest =>
    show Function.update cursor e.1 _ s ≠ _
    by_cases hs : s = e.1
    · subst hs
      rw [Function.update_self]
      nofun
    · rwa [Function.update_of_ne hs]

theorem cursor_after (h : w.cursor s ≠ .end_) (es : List (Event S α)) : (w.after es).cursor s ≠ .end_ := by
  induction es generalizing w with
  | nil => exact h
  | cons e es ih => exact ih (cursor_next h e)

/-- After an entry, and with no more unread than the log keeps, nothing is moved past. -/
theorem unskipped_of_backlog (hcursor : w.cursor s ≠ .end_) (hbacklog : (w.unread s).length ≤ keep s)
    (e : Event S α) : Unskipped s w e := by
  cases e with
  | add t a drop => exact fun _ _ _ => hcursor
  | answer ss count =>
    intro after hwaits
    split
    · exact fun hend => absurd hend hcursor
    · have hdropped := dropped_le_position hbacklog
      rwa [position_waiting hwaits] at hdropped
  | lapse => exact fun _ _ hend => absurd hend hcursor
  | close => exact fun _ _ hend => absurd hend hcursor
  | read => trivial
  | next => trivial

/-- There is no more unread than the log keeps. -/
def Backlog (s : S) (w : World S α keep) (_ : Event S α) : Prop := (w.unread s).length ≤ keep s

instance (s : S) (w : World S α keep) (e : Event S α) : Decidable (Backlog s w e) :=
  inferInstanceAs (Decidable ((w.unread s).length ≤ keep s))

/-- A consumer that starts after an entry gets everything, in every run in which there is
    never more unread than the log keeps. -/
theorem conserved_of_backlog (h : Fresh s w) (hcursor : w.cursor s ≠ .end_) (es : List (Event S α))
    (hbacklog : Along World.next (Backlog s) w es) : Conserved s (w.position s) (w.after es) := by
  refine (conserved_iff h es).mpr (Along.iff_forall_snoc es |>.mpr fun js e hjs => ?_) es (List.prefix_refl es)
  have hjs := (Along.iff_forall_snoc es).mp hbacklog js e hjs
  exact unskipped_of_backlog (cursor_after hcursor js) hjs e

end Runs

end Consumer

end IbTrader.Lib
