/-
  IbTrader.Lib.FifoLock

  A lock that is handed over in the order in which it was asked for.

  Who asks while the lock is held, or while others wait for it, waits behind them.  A
  holder that releases the lock wakes the first of those that wait; until that one runs
  nobody holds the lock and nobody else gets it.  So what runs under the lock runs one
  piece at a time, in the order in which they asked (`Served`), and when nobody holds the
  lock and nobody is woken, all that asked have run (`Served.all_ran`).
-/

import Mathlib.Data.List.Infix

namespace IbTrader.Lib

variable {β : Type*}

/-- What is seen of a piece of work under the lock. -/
inductive Mark (β : Type*)
  | begins (b : β)
  | ends (b : β)
  deriving DecidableEq, Repr

structure FifoLock (β : Type*) where
  holder : Option β := none
  waiters : List β := []
  /-- The first that waits has been woken and has not run yet. -/
  woken : Bool := false
  deriving DecidableEq, Repr

namespace FifoLock

def acquire (l : FifoLock β) (b : β) : FifoLock β × List (Mark β) :=
  match l.holder, l.waiters with
  | none, [] => ({ l with holder := some b }, [.begins b])
  | _, _ => ({ l with waiters := l.waiters ++ [b] }, [])

def release (l : FifoLock β) : FifoLock β × List (Mark β) :=
  match l.holder with
  | none => (l, [])
  | some b => ({ l with holder := none, woken := !l.waiters.isEmpty }, [.ends b])

/-- The one that was woken runs. -/
def wake (l : FifoLock β) : FifoLock β × List (Mark β) :=
  match l.woken, l.waiters with
  | true, b :: waiters => ({ holder := some b, waiters, woken := false }, [.begins b])
  | _, _ => (l, [])

/-- Who waits gives up; had it been woken, the next one is. -/
def abandon [DecidableEq β] (l : FifoLock β) (b : β) : FifoLock β :=
  { l with waiters := l.waiters.erase b, woken := l.woken && !(l.waiters.erase b).isEmpty }

theorem acquire_free {l : FifoLock β} {b : β} (hholder : l.holder = none) (hwaiters : l.waiters = []) :
    l.acquire b = ({ l with holder := some b }, [.begins b]) := by
  unfold acquire
  rw [hholder, hwaiters]

theorem acquire_busy {l : FifoLock β} {b : β} (h : ¬(l.holder = none ∧ l.waiters = [])) :
    l.acquire b = ({ l with waiters := l.waiters ++ [b] }, []) := by
  unfold acquire
  split
  case h_1 hholder hwaiters => exact absurd ⟨hholder, hwaiters⟩ h
  case h_2 => rfl

theorem holder_release (l : FifoLock β) : l.release.1.holder = none := by
  unfold release
  split
  case h_1 h => exact h
  case h_2 => rfl

end FifoLock

/-- One after the other. -/
def serial (bs : List β) : List (Mark β) := bs.flatMap fun b => [.begins b, .ends b]

/-- One at a time and in the order in which they asked: some have run, and the next one
    may be running. -/
def InTurn (asked : List β) (marks : List (Mark β)) : Prop :=
  ∃ (ran : List β) (running : Option β),
    marks = serial ran ++ running.toList.map .begins ∧ ran ++ running.toList <+: asked

/-- Those that asked have run, hold the lock or wait for it. -/
structure Serving (asked : List β) (marks : List (Mark β)) (l : FifoLock β) (ran : List β) : Prop where
  asked_eq : asked = ran ++ l.holder.toList ++ l.waiters
  marks_eq : marks = serial ran ++ l.holder.toList.map .begins
  woken_iff : l.woken ↔ l.holder = none ∧ l.waiters ≠ []

def Served (asked : List β) (marks : List (Mark β)) (l : FifoLock β) : Prop := ∃ ran, Serving asked marks l ran

section Served

variable {asked ran : List β} {marks : List (Mark β)} {l : FifoLock β}

theorem serial_append (bs cs : List β) : serial (bs ++ cs) = serial bs ++ serial cs := List.flatMap_append

theorem served_nil : Served [] [] ({} : FifoLock β) :=
  ⟨[], rfl, rfl, by simp⟩

theorem Served.acquire (h : Served asked marks l) (b : β) :
    Served (asked ++ [b]) (marks ++ (l.acquire b).2) (l.acquire b).1 := by
  obtain ⟨ran, hasked, hmarks, hwoken⟩ := h
  by_cases hfree : l.holder = none ∧ l.waiters = []
  · obtain ⟨hholder, hwaiters⟩ := hfree
    have hnot : l.woken = false := Bool.eq_false_iff.mpr fun hw => (hwoken.mp hw).2 hwaiters
    rw [FifoLock.acquire_free hholder hwaiters]
    rw [hholder, hwaiters] at hasked
    rw [hholder] at hmarks
    refine ⟨ran, ?_, ?_, ?_⟩
    · simp [hasked, hwaiters]
    · simp [hmarks]
    · simp [hnot]
  · -- it waits behind the others
    rw [FifoLock.acquire_busy hfree]
    refine ⟨ran, ?_, ?_, ?_⟩
    · rw [hasked, List.append_assoc]
    · rw [List.append_nil, hmarks]
    · show l.woken ↔ l.holder = none ∧ l.waiters ++ [b] ≠ []
      rw [hwoken]
      exact and_congr_right fun hholder =>
        iff_of_true (fun hwaiters => hfree ⟨hholder, hwaiters⟩) (by simp)

theorem Served.release (h : Served asked marks l) :
    Served asked (marks ++ l.release.2) l.release.1 := by
  obtain ⟨ran, hasked, hmarks, hwoken⟩ := h
  obtain ⟨holder, waiters, woken⟩ := l
  unfold FifoLock.release
  cases holder with
  | none => exact ⟨ran, hasked, by rw [hmarks]; simp, hwoken⟩
  | some b =>
    -- the holder has run
    refine ⟨ran ++ [b], ?_, ?_, ?_⟩
    · rw [hasked]; simp
    · rw [hmarks, serial_append]; simp [serial]
    · simp

theorem Served.wake (h : Served asked marks l) :
    Served asked (marks ++ l.wake.2) l.wake.1 := by
  obtain ⟨ran, hasked, hmarks, hwoken⟩ := h
  obtain ⟨holder, waiters, woken⟩ := l
  have hsame : Served asked (marks ++ []) ⟨holder, waiters, woken⟩ :=
    ⟨ran, hasked, by rw [List.append_nil]; exact hmarks, hwoken⟩
  unfold FifoLock.wake
  cases woken with
  | false => exact hsame
  | true =>
    cases waiters with
    | nil => exact hsame
    | cons b waiters =>
      obtain ⟨hholder, -⟩ := hwoken.mp rfl
      change holder = none at hholder
      subst hholder
      refine ⟨ran, ?_, ?_, ?_⟩
      · rw [hasked]; simp
      · rw [hmarks]; simp
      · simp

theorem Served.inTurn (h : Served asked marks l) : InTurn asked marks := by
  obtain ⟨ran, hasked, hmarks, -⟩ := h
  exact ⟨ran, l.holder, hmarks, hasked ▸ List.prefix_append _ _⟩

/-- Nobody is forgotten. -/
theorem Served.all_ran (h : Served asked marks l) (hholder : l.holder = none) (hwoken : l.woken = false) :
    marks = serial asked := by
  obtain ⟨ran, hasked, hmarks, hiff⟩ := h
  have hwaiters : l.waiters = [] := by
    by_contra hne
    exact absurd (hiff.mpr ⟨hholder, hne⟩) (by simp [hwoken])
  rw [hmarks, hasked, hholder, hwaiters]
  simp

end Served

/-- More may ask. -/
theorem InTurn.mono {asked asked' : List β} {marks : List (Mark β)} (h : InTurn asked marks)
    (hmore : asked <+: asked') : InTurn asked' marks := by
  obtain ⟨ran, running, hmarks, hran⟩ := h
  exact ⟨ran, running, hmarks, hran.trans hmore⟩

/-- The first to begin is the first that asked. -/
theorem InTurn.head?_eq {asked : List β} {marks : List (Mark β)} (h : InTurn asked marks) (hne : marks ≠ []) :
    marks.head? = asked.head?.map .begins := by
  obtain ⟨ran, running, rfl, later, rfl⟩ := h
  cases ran with
  | nil =>
    cases running with
    | none => exact absurd rfl hne
    | some b => rfl
  | cons b ran => rfl

end IbTrader.Lib
