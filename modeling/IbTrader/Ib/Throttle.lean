/-
  IbTrader.Ib.Throttle

  The minimum interval between calls to the broker (`_throttle` in
  `ib_trader/ib/base.py` and, but for the log line, in `ib_trader/broker/base.py`).

  A call takes the lock, sleeps for what is left of the interval, and notes when it
  passes.  It may be cancelled while it waits for the lock or sleeps.  Calls pass in the
  order in which they were made (`calls_in_order`), and so far apart that few pass in any
  time (`calls_spaced`).
-/

import IbTrader.Lib.FifoLock
import IbTrader.Lib.Run
import IbTrader.Lib.SlidingWindow
import Mathlib.Algebra.Order.Field.Rat
import Mathlib.Data.List.Nodup
import Mathlib.Tactic.Linarith
import Mathlib.Tactic.NormNum
import Mathlib.Tactic.Ring

namespace IbTrader.Ib

open Lib

-- ============================================================================
-- The throttle
-- ============================================================================

variable {β : Type}

structure Throttle (β : Type) where
  /-- `_throttle_lock`; its holder sleeps. -/
  lock : FifoLock β := {}
  /-- `_last_call_time`. -/
  lastCallTime : ℚ := 0
  /-- When the sleep of the holder is over. -/
  wakeAt : ℚ := 0
  /-- The calls that have been made, that have passed and when, and that were cancelled
      before. -/
  asked : List β := []
  passed : List (β × ℚ) := []
  gone : List β := []

/-- What happens, with what `time.monotonic` says when the call has the lock and when it
    passes. -/
inductive ThrottleEvent (β : Type)
  | call (b : β) (now stamp : ℚ)
  /-- A release has woken the first that waits. -/
  | wakes (now stamp : ℚ)
  /-- The sleep is over. -/
  | slept (stamp : ℚ)
  | cancel (b : β)

namespace Throttle

/-- The holder passes: it notes the time and releases the lock. -/
def pass (s : Throttle β) (b : β) (stamp : ℚ) : Throttle β :=
  { s with lastCallTime := stamp, passed := s.passed ++ [(b, stamp)], lock := s.lock.release.1 }

/-- The body of `_throttle` for the one that has got the lock, if one has. -/
def enter (minInterval : ℚ) (s : Throttle β) (now stamp : ℚ) : Throttle β :=
  match s.lock.holder with
  | none => s
  | some b =>
    let elapsed := now - s.lastCallTime
    if elapsed < minInterval then { s with wakeAt := now + (minInterval - elapsed) } else s.pass b stamp

def call (minInterval : ℚ) (s : Throttle β) (b : β) (now stamp : ℚ) : Throttle β :=
  let asking := { s with asked := s.asked ++ [b] }
  if s.lock.holder = none ∧ s.lock.waiters = [] then
    enter minInterval { asking with lock := (s.lock.acquire b).1 } now stamp
  else { asking with lock := (s.lock.acquire b).1 }

def wakes (minInterval : ℚ) (s : Throttle β) (now stamp : ℚ) : Throttle β :=
  if s.lock.woken then enter minInterval { s with lock := s.lock.wake.1 } now stamp else s

def slept (s : Throttle β) (stamp : ℚ) : Throttle β :=
  match s.lock.holder with
  | none => s
  | some b => s.pass b stamp

/-- A call that sleeps or waits is cancelled. -/
def cancel [DecidableEq β] (s : Throttle β) (b : β) : Throttle β :=
  if s.lock.holder = some b then { s with lock := s.lock.release.1, gone := s.gone ++ [b] }
  else if b ∈ s.lock.waiters then { s with lock := s.lock.abandon b, gone := s.gone ++ [b] }
  else s

def next [DecidableEq β] (minInterval : ℚ) (s : Throttle β) : ThrottleEvent β → Throttle β
  | .call b now stamp => s.call minInterval b now stamp
  | .wakes now stamp => s.wakes minInterval now stamp
  | .slept stamp => s.slept stamp
  | .cancel b => s.cancel b

def after [DecidableEq β] (minInterval : ℚ) (events : List (ThrottleEvent β)) : Throttle β := events.foldl (next minInterval) {}

/-- The clock does not run backwards, and `asyncio.sleep` is not short. -/
def Timely (s : Throttle β) : ThrottleEvent β → Prop
  | .call _ now stamp | .wakes now stamp => now ≤ stamp
  | .slept stamp => s.wakeAt ≤ stamp
  | .cancel _ => True

instance decidableTimely (s : Throttle β) : ∀ e, Decidable (s.Timely e)
  | .call _ now stamp => inferInstanceAs (Decidable (now ≤ stamp))
  | .wakes now stamp => inferInstanceAs (Decidable (now ≤ stamp))
  | .slept stamp => inferInstanceAs (Decidable (s.wakeAt ≤ stamp))
  | .cancel _ => isTrue trivial

-- ============================================================================
-- Apart
-- ============================================================================

section Spaced

variable {minInterval : ℚ} {s : Throttle β} {b : β} {now stamp : ℚ}

/-- The times so far are apart, the last one is noted, and who sleeps does so until the
    interval is over. -/
structure Spaced (minInterval : ℚ) (s : Throttle β) : Prop where
  apart : (s.passed.map Prod.snd).Pairwise fun t u => t + minInterval ≤ u
  last : ∀ t ∈ s.passed.map Prod.snd, t ≤ s.lastCallTime
  sleeps : s.lock.holder ≠ none → s.wakeAt = s.lastCallTime + minInterval

/-- A call that comes late enough passes. -/
theorem Spaced.pass (hmin : 0 ≤ minInterval) (h : (s.passed.map Prod.snd).Pairwise fun t u => t + minInterval ≤ u)
    (hlast : ∀ t ∈ s.passed.map Prod.snd, t ≤ s.lastCallTime) (hstamp : s.lastCallTime + minInterval ≤ stamp)
    (hfree : s.lock.release.1.holder = none) : Spaced minInterval (s.pass b stamp) := by
  refine ⟨?_, ?_, fun hholder => absurd hfree hholder⟩
  · show ((s.passed ++ [(b, stamp)]).map Prod.snd).Pairwise _
    rw [List.map_append, List.pairwise_append]
    refine ⟨h, List.pairwise_singleton _ _, fun t ht u hu => ?_⟩
    obtain rfl : u = stamp := by simpa using hu
    exact (add_le_add_left (hlast t ht) _).trans hstamp
  · intro t ht
    change t ∈ (s.passed ++ [(b, stamp)]).map Prod.snd at ht
    show t ≤ stamp
    rw [List.map_append, List.mem_append] at ht
    rcases ht with ht | ht
    · linarith [hlast t ht]
    · obtain rfl : t = stamp := by simpa using ht
      exact le_rfl

theorem spaced_enter (hmin : 0 ≤ minInterval) (h : (s.passed.map Prod.snd).Pairwise fun t u => t + minInterval ≤ u)
    (hlast : ∀ t ∈ s.passed.map Prod.snd, t ≤ s.lastCallTime) (hnow : now ≤ stamp) :
    Spaced minInterval (s.enter minInterval now stamp) := by
  unfold enter
  split
  case h_1 hnone => exact ⟨h, hlast, fun hholder => absurd hnone hholder⟩
  case h_2 b hb =>
    dsimp only
    split
    case isTrue => exact ⟨h, hlast, fun _ => by show now + (minInterval - (now - s.lastCallTime)) = _; ring⟩
    case isFalse hlate => exact Spaced.pass hmin h hlast (by linarith) (FifoLock.holder_release _)

variable [DecidableEq β]

theorem spaced_next (hmin : 0 ≤ minInterval) (h : Spaced minInterval s) (e : ThrottleEvent β) (he : s.Timely e) :
    Spaced minInterval (s.next minInterval e) := by
  cases e with
  | call b now stamp =>
    show Spaced minInterval (s.call minInterval b now stamp)
    unfold call
    dsimp only
    split
    case isTrue => exact spaced_enter hmin h.apart h.last he
    case isFalse hbusy =>
      refine ⟨h.apart, h.last, fun hholder => h.sleeps ?_⟩
      rw [FifoLock.acquire_busy hbusy] at hholder
      exact hholder
  | wakes now stamp =>
    show Spaced minInterval (s.wakes minInterval now stamp)
    unfold wakes
    split
    case isTrue => exact spaced_enter hmin h.apart h.last he
    case isFalse => exact h
  | slept stamp =>
    show Spaced minInterval (s.slept stamp)
    unfold slept
    split
    case h_1 => exact h
    case h_2 b hb =>
      have hwake : s.wakeAt ≤ stamp := he
      rw [h.sleeps (by rw [hb]; nofun)] at hwake
      exact Spaced.pass hmin h.apart h.last hwake (FifoLock.holder_release _)
  | cancel b =>
    show Spaced minInterval (s.cancel b)
    unfold cancel
    split
    · exact ⟨h.apart, h.last, fun hholder => absurd (FifoLock.holder_release _) hholder⟩
    · split
      · exact ⟨h.apart, h.last, h.sleeps⟩
      · exact h

/-- The times at which calls pass are the interval apart, so that in any time no more pass
    than fit into it, and one. -/
theorem calls_spaced (minInterval : ℚ) (hmin : 0 ≤ minInterval) (events : List (ThrottleEvent β))
    (htimely : Along (next minInterval) Timely ({} : Throttle β) events) :
    ((after minInterval events).passed.map Prod.snd).Pairwise (fun t u => t + minInterval ≤ u) ∧
      ∀ a b, a ≤ b →
        SlidingWindow.between a b ((after minInterval events).passed.map Prod.snd) • minInterval ≤ b - a + minInterval := by
  have hspaced : Spaced minInterval (after minInterval events) :=
    Along.invariant (I := Spaced minInterval) (fun _ e h he => spaced_next hmin h e he) events
      ⟨.nil, fun _ ht => absurd ht List.not_mem_nil, fun h => absurd rfl h⟩ htimely
  exact ⟨hspaced.apart, fun a b hab => SlidingWindow.between_of_spaced hmin hspaced.apart hab⟩

/-- Of four calls at about the same time one is cancelled while it sleeps. -/
def fourCalls : List (ThrottleEvent String) :=
  [.call "place" 1000 1000, .call "cancel" 1020 1020, .call "positions" 1030 1030, .call "bars" 1040 1040,
    .slept 1100, .wakes 1100 1100, .cancel "positions", .wakes 1150 1150, .slept 1201]

theorem calls_spaced_four : ((after 100 fourCalls).passed.map Prod.snd).Pairwise (fun t u => t + 100 ≤ u) ∧
    ∀ a b, a ≤ b → SlidingWindow.between a b ((after 100 fourCalls).passed.map Prod.snd) • 100 ≤ b - a + 100 :=
  calls_spaced 100 (by norm_num) fourCalls (by decide +kernel)

end Spaced

-- ============================================================================
-- In order
-- ============================================================================

section Order

variable [DecidableEq β] {minInterval : ℚ} {s : Throttle β} {b : β} {now stamp : ℚ}

/-- Each call is one of its own. -/
def New (s : Throttle β) : ThrottleEvent β → Prop
  | .call b _ _ => b ∉ s.asked
  | _ => True

instance decidableNew (s : Throttle β) : ∀ e, Decidable (s.New e)
  | .call b _ _ => inferInstanceAs (Decidable (b ∉ s.asked))
  | .wakes _ _ => isTrue trivial
  | .slept _ => isTrue trivial
  | .cancel _ => isTrue trivial

/-- The calls that have passed, that sleep and that wait are those that were not cancelled,
    in the order in which they were made, and the lock is never left to nobody. -/
structure InOrder (s : Throttle β) : Prop where
  nodup : s.asked.Nodup
  asked_eq : s.passed.map Prod.fst ++ s.lock.holder.toList ++ s.lock.waiters = s.asked.filter (· ∉ s.gone)
  gone_asked : ∀ b ∈ s.gone, b ∈ s.asked
  woken_iff : s.lock.woken ↔ s.lock.holder = none ∧ s.lock.waiters ≠ []

theorem InOrder.pass (h : InOrder s) (hb : s.lock.holder = some b) : InOrder (s.pass b stamp) := by
  have hasked := h.asked_eq
  unfold Throttle.pass FifoLock.release
  rw [hb] at hasked ⊢
  refine ⟨h.nodup, ?_, h.gone_asked, ?_⟩
  · simpa using hasked
  · simp

theorem inOrder_enter (h : InOrder s) : InOrder (s.enter minInterval now stamp) := by
  unfold enter
  split
  case h_1 => exact h
  case h_2 b hb =>
    dsimp only
    split
    · exact ⟨h.nodup, h.asked_eq, h.gone_asked, h.woken_iff⟩
    · exact h.pass hb

/-- A new call is behind all others. -/
theorem inOrder_acquire (h : InOrder s) (hnew : b ∉ s.asked) :
    InOrder { s with asked := s.asked ++ [b], lock := (s.lock.acquire b).1 } := by
  have hgone : b ∉ s.gone := fun hb => hnew (h.gone_asked b hb)
  have hall : (s.asked ++ [b]).filter (· ∉ s.gone) = s.asked.filter (· ∉ s.gone) ++ [b] := by simp [hgone]
  have hnodup : (s.asked ++ [b]).Nodup := List.concat_eq_append ▸ List.Nodup.concat hnew h.nodup
  have hsub : ∀ c ∈ s.gone, c ∈ s.asked ++ [b] := fun c hc => List.mem_append_left _ (h.gone_asked c hc)
  by_cases hfree : s.lock.holder = none ∧ s.lock.waiters = []
  · obtain ⟨hholder, hwaiters⟩ := hfree
    have hasked := h.asked_eq
    have hwoken : s.lock.woken = false := Bool.eq_false_iff.mpr fun hw => (h.woken_iff.mp hw).2 hwaiters
    rw [FifoLock.acquire_free hholder hwaiters]
    rw [hholder, hwaiters] at hasked
    refine ⟨hnodup, ?_, hsub, ?_⟩
    · show _ ++ [b] ++ s.lock.waiters = (s.asked ++ [b]).filter _
      rw [hall, ← hasked, hwaiters]
      simp
    · simp [hwoken]
  · rw [FifoLock.acquire_busy hfree]
    refine ⟨hnodup, ?_, hsub, ?_⟩
    · show _ ++ _ ++ (s.lock.waiters ++ [b]) = (s.asked ++ [b]).filter _
      rw [hall, ← h.asked_eq, List.append_assoc _ s.lock.waiters]
    · show s.lock.woken ↔ s.lock.holder = none ∧ s.lock.waiters ++ [b] ≠ []
      rw [h.woken_iff]
      exact and_congr_right fun hholder => iff_of_true (fun hwaiters => hfree ⟨hholder, hwaiters⟩) (by simp)

theorem inOrder_wake (h : InOrder s) : InOrder { s with lock := s.lock.wake.1 } := by
  have hasked := h.asked_eq
  have hwoken := h.woken_iff
  unfold FifoLock.wake
  split
  case h_1 b waiters hw hwaiters =>
    have hholder := (hwoken.mp hw).1
    rw [hholder, hwaiters] at hasked
    exact ⟨h.nodup, by simpa using hasked, h.gone_asked, by simp⟩
  case h_2 => exact ⟨h.nodup, hasked, h.gone_asked, hwoken⟩

/-- Without one that was cancelled. -/
theorem filter_gone (h : InOrder s) (b : β) : s.asked.filter (· ∉ s.gone ++ [b]) =
    (s.passed.map Prod.fst ++ s.lock.holder.toList ++ s.lock.waiters).erase b := by
  have hnodup := h.nodup.filter (· ∉ s.gone)
  rw [h.asked_eq, List.Nodup.erase_eq_filter hnodup, List.filter_filter]
  refine List.filter_congr fun c _ => ?_
  simp [and_comm, not_or, bne, beq_eq_decide]

theorem inOrder_cancel (h : InOrder s) (b : β) : InOrder (s.cancel b) := by
  have hfilter := filter_gone h b
  have hall : (s.passed.map Prod.fst ++ s.lock.holder.toList ++ s.lock.waiters).Nodup :=
    h.asked_eq ▸ h.nodup.filter _
  have hmem (hb : b ∈ s.passed.map Prod.fst ++ s.lock.holder.toList ++ s.lock.waiters) :
      ∀ c ∈ s.gone ++ [b], c ∈ s.asked := by
    intro c hc
    rcases List.mem_append.mp hc with hc | hc
    · exact h.gone_asked c hc
    · obtain rfl := List.mem_singleton.mp hc
      rw [h.asked_eq] at hb
      exact List.mem_of_mem_filter hb
  unfold cancel
  split
  case isTrue hholder =>
    rw [hholder] at hfilter hall hmem
    refine ⟨h.nodup, ?_, hmem (by simp), ?_⟩
    · show _ = s.asked.filter (· ∉ s.gone ++ [b])
      have hnot : b ∉ s.passed.map Prod.fst := by
        intro hb
        rw [List.append_assoc] at hall
        exact List.disjoint_of_nodup_append hall hb (by simp)
      rw [hfilter, List.append_assoc (s.passed.map Prod.fst) (some b).toList, List.erase_append_right _ hnot]
      unfold FifoLock.release
      rw [hholder]
      simp
    · unfold FifoLock.release
      rw [hholder]
      simp
  case isFalse =>
    split
    case isTrue hwaits =>
      refine ⟨h.nodup, ?_, hmem (List.mem_append_right _ hwaits), ?_⟩
      · show _ = s.asked.filter (· ∉ s.gone ++ [b])
        have hnot : b ∉ s.passed.map Prod.fst ++ s.lock.holder.toList := fun hb =>
          List.disjoint_of_nodup_append hall hb hwaits
        rw [hfilter, List.erase_append_right _ hnot]
        rfl
      · have hwoken := h.woken_iff
        have hne : s.lock.waiters ≠ [] := List.ne_nil_of_mem hwaits
        simp only [FifoLock.abandon, Bool.and_eq_true, hwoken, Bool.not_eq_true', List.isEmpty_eq_false_iff]
        tauto
    case isFalse => exact h

theorem inOrder_next (h : InOrder s) (e : ThrottleEvent β) (he : s.New e) : InOrder (s.next minInterval e) := by
  cases e with
  | call b now stamp =>
    show InOrder (s.call minInterval b now stamp)
    unfold call
    dsimp only
    split
    · exact inOrder_enter (inOrder_acquire h he)
    · exact inOrder_acquire h he
  | wakes now stamp =>
    show InOrder (s.wakes minInterval now stamp)
    unfold wakes
    split
    · exact inOrder_enter (inOrder_wake h)
    · exact h
  | slept stamp =>
    show InOrder (s.slept stamp)
    unfold slept
    split
    case h_1 => exact h
    case h_2 b hb => exact h.pass hb
  | cancel b => exact inOrder_cancel h b

/-- Calls pass in the order in which they were made, each once and none that was cancelled
    before; when nobody sleeps and nobody has been woken, all others have passed. -/
theorem calls_in_order (minInterval : ℚ) (events : List (ThrottleEvent β))
    (hnew : Along (next minInterval) New ({} : Throttle β) events) :
    (after minInterval events).passed.map Prod.fst <+:
        (after minInterval events).asked.filter (· ∉ (after minInterval events).gone) ∧
      ((after minInterval events).lock.holder = none → (after minInterval events).lock.woken = false →
        (after minInterval events).passed.map Prod.fst =
          (after minInterval events).asked.filter (· ∉ (after minInterval events).gone)) := by
  have horder : InOrder (after minInterval events) :=
    Along.invariant (I := InOrder) (fun _ e h he => inOrder_next h e he) events
      ⟨.nil, rfl, fun _ hb => absurd hb List.not_mem_nil, by simp⟩ hnew
  rw [← horder.asked_eq]
  refine ⟨⟨_, (List.append_assoc _ _ _).symm⟩, fun hholder hwoken => ?_⟩
  have hwaiters : (after minInterval events).lock.waiters = [] := by
    by_contra hne
    exact absurd (horder.woken_iff.mpr ⟨hholder, hne⟩) (by simp [hwoken])
  rw [hholder, hwaiters]
  simp

theorem calls_in_order_four : (after 100 fourCalls).passed.map Prod.fst <+:
      (after 100 fourCalls).asked.filter (· ∉ (after 100 fourCalls).gone) ∧
    ((after 100 fourCalls).lock.holder = none → (after 100 fourCalls).lock.woken = false →
      (after 100 fourCalls).passed.map Prod.fst =
        (after 100 fourCalls).asked.filter (· ∉ (after 100 fourCalls).gone)) :=
  calls_in_order 100 fourCalls (by decide +kernel)

example : (after 100 fourCalls).passed = [("place", 1000), ("cancel", 1100), ("bars", 1201)] := by decide +kernel

end Order

end Throttle

end IbTrader.Ib
