/-
  IbTrader.Lib.IsoTime

  Moments of the Gregorian calendar in UTC and their texts in ISO 8601.

  A moment is a number of microseconds since the first day of the year 1, up to the end
  of the year 9999.  Its text has fields of fixed width, the largest unit first, so the
  texts sort as the moments do (`isoformat_strictMono`), with and without a fraction of a
  second.
-/

import Mathlib.Data.Prod.Lex
import Mathlib.Data.String.Basic
import Mathlib.Order.Fin.Basic

namespace IbTrader.Lib.IsoTime

-- ============================================================================
-- Texts that differ before they end
-- ============================================================================

section Precedes

variable {α : Type*} [LT α] {xs ys : List α}

/-- The first text sorts before the second, whatever follows them. -/
def Precedes (xs ys : List α) : Prop := ∀ us vs, xs ++ us < ys ++ vs

theorem Precedes.append (h : Precedes xs ys) (us vs : List α) : Precedes (xs ++ us) (ys ++ vs) := by
  intro us' vs'
  rw [List.append_assoc, List.append_assoc]
  exact h _ _

theorem Precedes.after (h : Precedes xs ys) (us : List α) : Precedes (us ++ xs) (us ++ ys) := by
  intro us' vs'
  rw [List.append_assoc, List.append_assoc]
  exact List.append_left_lt (h us' vs')

theorem Precedes.cons (h : Precedes xs ys) (a : α) : Precedes (a :: xs) (a :: ys) := h.after [a]

theorem precedes_of_head {a b : α} (h : a < b) (xs ys : List α) : Precedes (a :: xs) (b :: ys) :=
  fun _ _ => List.Lex.rel h

theorem Precedes.lt (h : Precedes xs ys) : xs < ys := by simpa using h [] []

end Precedes

-- ============================================================================
-- Numbers of fixed width
-- ============================================================================

/-- The last digits of a number. -/
def pad : ℕ → ℕ → List Char
  | 0, _ => []
  | w + 1, n => pad w (n / 10) ++ [Nat.digitChar (n % 10)]

theorem digitChar_lt : ∀ n < 10, ∀ m < n, Nat.digitChar m < Nat.digitChar n := by decide

theorem precedes_pad {w : ℕ} : ∀ {m n : ℕ}, m < n → n < 10 ^ w → Precedes (pad w m) (pad w n) := by
  induction w with
  | zero => intro m n hmn hn; omega
  | succ w ih =>
    intro m n hmn hn
    unfold pad
    rcases Nat.lt_or_ge (m / 10) (n / 10) with hlt | hge
    · have hw : n / 10 < 10 ^ w := by rw [Nat.pow_succ] at hn; omega
      exact (ih hlt hw).append _ _
    · have hsame : m / 10 = n / 10 := le_antisymm (Nat.div_le_div_right hmn.le) hge
      rw [hsame]
      have hdigit := digitChar_lt (n % 10) (Nat.mod_lt n (by decide)) (m % 10) (by omega)
      exact (precedes_of_head hdigit _ _).after _

-- ============================================================================
-- The time of day
-- ============================================================================

/-- A count of units in two digits, and what is left of them. -/
def unitText (micros : ℕ) (rest : ℕ → List Char) (t : ℕ) : List Char :=
  pad 2 (t / micros) ++ rest (t % micros)

theorem precedes_unitText {micros : ℕ} {rest : ℕ → List Char} (hmicros : 0 < micros)
    (hrest : ∀ s t, s < t → t < micros → Precedes (rest s) (rest t)) {s t : ℕ} (hst : s < t)
    (ht : t < 100 * micros) : Precedes (unitText micros rest s) (unitText micros rest t) := by
  unfold unitText
  rcases Nat.lt_or_ge (s / micros) (t / micros) with hlt | hge
  · have hwidth : t / micros < 10 ^ 2 := (Nat.div_lt_iff_lt_mul hmicros).mpr ht
    exact (precedes_pad hlt hwidth).append _ _
  · have hsame : s / micros = t / micros := le_antisymm (Nat.div_le_div_right hst.le) hge
    rw [hsame]
    have hleft : s % micros < t % micros := by
      have hs := Nat.div_add_mod s micros
      have ht := Nat.div_add_mod t micros
      rw [hsame] at hs
      omega
    exact (hrest _ _ hleft (Nat.mod_lt t hmicros)).after _

/-- The microseconds, left out where there are none, and the offset from UTC. -/
def fractionText (us : ℕ) : List Char :=
  if us = 0 then "+00:00".toList else '.' :: pad 6 us ++ "+00:00".toList

theorem precedes_fractionText (s t : ℕ) (hst : s < t) (ht : t < 1000000) :
    Precedes (fractionText s) (fractionText t) := by
  unfold fractionText
  rw [if_neg (by omega : ¬t = 0)]
  split
  case isTrue => exact precedes_of_head (by decide : '+' < '.') _ _
  case isFalse => exact ((precedes_pad hst ht).cons '.').append _ _

def timeText : ℕ → List Char :=
  unitText 3600000000 fun t => ':' :: unitText 60000000 (fun t => ':' :: unitText 1000000 fractionText t) t

/-- How many microseconds a day has. -/
def dayMicros : ℕ := 86400000000

theorem precedes_timeText {s t : ℕ} (hst : s < t) (ht : t < dayMicros) :
    Precedes (timeText s) (timeText t) := by
  have hseconds : ∀ s t, s < t → t < 60000000 →
      Precedes (unitText 1000000 fractionText s) (unitText 1000000 fractionText t) :=
    fun s t hst ht => precedes_unitText (by decide) precedes_fractionText hst (by omega)
  have hminutes : ∀ s t, s < t → t < 3600000000 →
      Precedes (unitText 60000000 (fun t => ':' :: unitText 1000000 fractionText t) s)
        (unitText 60000000 (fun t => ':' :: unitText 1000000 fractionText t) t) :=
    fun s t hst ht =>
      precedes_unitText (by decide) (fun s t hst ht => (hseconds s t hst ht).cons ':') hst (by omega)
  have hlimit : t < 100 * 3600000000 := by unfold dayMicros at ht; omega
  exact precedes_unitText (by decide) (fun s t hst ht => (hminutes s t hst ht).cons ':') hst hlimit

-- ============================================================================
-- The date
-- ============================================================================

/-- The block a number falls into, of blocks of these lengths, and its place there. -/
def splitBlocks : List ℕ → ℕ → ℕ × ℕ
  | [], n => (0, n)
  | len :: lens, n =>
    if n < len then (0, n)
    else ((splitBlocks lens (n - len)).1 + 1, (splitBlocks lens (n - len)).2)

theorem splitBlocks_strictMono (lens : List ℕ) : StrictMono fun n => toLex (splitBlocks lens n) := by
  induction lens with
  | nil => exact fun m n hmn => Prod.Lex.toLex_lt_toLex.mpr (.inr ⟨rfl, hmn⟩)
  | cons len lens ih =>
    intro m n hmn
    refine Prod.Lex.toLex_lt_toLex.mpr ?_
    unfold splitBlocks
    by_cases hn : n < len
    · rw [if_pos hn, if_pos (hmn.trans hn)]
      exact .inr ⟨rfl, hmn⟩
    · rw [if_neg hn]
      by_cases hm : m < len
      · rw [if_pos hm]
        exact .inl (Nat.succ_pos _)
      · rw [if_neg hm]
        rcases Prod.Lex.toLex_lt_toLex.mp (ih (by omega : m - len < n - len)) with hlt | ⟨hsame, hlt⟩
        · exact .inl (Nat.succ_lt_succ hlt)
        · exact .inr ⟨congrArg Nat.succ hsame, hlt⟩

theorem splitBlocks_fst_le (lens : List ℕ) (n : ℕ) : (splitBlocks lens n).1 ≤ lens.length := by
  induction lens generalizing n with
  | nil => exact Nat.le_refl 0
  | cons len lens ih =>
    unfold splitBlocks
    split
    case isTrue => exact Nat.zero_le _
    case isFalse => exact Nat.succ_le_succ (ih _)

/-- A year, counted from 1, has a day more. -/
def isLeap (year : ℕ) : Bool := year % 4 = 0 ∧ (year % 100 ≠ 0 ∨ year % 400 = 0)

/-- The months but the last. -/
def monthLengths (leap : Bool) : List ℕ :=
  [31, if leap then 29 else 28, 31, 30, 31, 30, 31, 31, 30, 31, 30]

/-- The days in so many years from the first on. -/
def daysInYears (y : ℕ) : ℕ := 365 * y + y / 4 - y / 100 + y / 400

/-- How many years are over: cycles of 400 years, centuries, cycles of four, single years.
    The last day of a leap year stays in its year. -/
def yearsOver (d : ℕ) : ℕ :=
  let ofCycle := d % 146097
  let ofCentury := ofCycle - 36524 * min (ofCycle / 36524) 3
  400 * (d / 146097) + 100 * min (ofCycle / 36524) 3 + 4 * (ofCentury / 1461) +
    min (ofCentury % 1461 / 365) 3

theorem daysInYears_mono : Monotone daysInYears := by
  refine monotone_nat_of_le_succ fun y => ?_
  unfold daysInYears
  omega

/-- The days of cycles, centuries, cycles of four and single years. -/
theorem daysInYears_parts {a b c e : ℕ} (hb : b ≤ 3) (hc : c ≤ 24) (he : e ≤ 3) :
    daysInYears (400 * a + 100 * b + 4 * c + e) = 146097 * a + 36524 * b + 1461 * c + 365 * e := by
  have h4 : (400 * a + 100 * b + 4 * c + e) / 4 = 100 * a + 25 * b + c := by omega
  have h100 : (400 * a + 100 * b + 4 * c + e) / 100 = 4 * a + b := by omega
  have h400 : (400 * a + 100 * b + 4 * c + e) / 400 = a := by omega
  unfold daysInYears
  rw [h4, h100, h400]
  omega

/-- The year after has begun on no day of these. -/
theorem lt_daysInYears_succ {a b c e r : ℕ} (hb : b ≤ 3) (hc : c ≤ 24) (he : e ≤ 3)
    (hyear : e < 3 → r < 365) (hfour : 365 * e + r < 1461)
    (hcentury : b < 3 → 1461 * c + 365 * e + r < 36524) :
    146097 * a + 36524 * b + 1461 * c + 365 * e + r < daysInYears (400 * a + 100 * b + 4 * c + e + 1) := by
  by_cases he3 : e < 3
  · have hnext := daysInYears_parts (a := a) hb hc (by omega : e + 1 ≤ 3)
    have hr := hyear he3
    rw [Nat.add_assoc _ e 1, hnext]
    omega
  · by_cases hc24 : c < 24
    · have hnext := daysInYears_parts (a := a) hb (by omega : c + 1 ≤ 24) (Nat.zero_le 3)
      rw [show 400 * a + 100 * b + 4 * c + e + 1 = 400 * a + 100 * b + 4 * (c + 1) + 0 by omega, hnext]
      omega
    · by_cases hb3 : b < 3
      · have hnext := daysInYears_parts (a := a) (by omega : b + 1 ≤ 3) (Nat.zero_le 24) (Nat.zero_le 3)
        have hr := hcentury hb3
        rw [show 400 * a + 100 * b + 4 * c + e + 1 = 400 * a + 100 * (b + 1) + 4 * 0 + 0 by omega, hnext]
        omega
      · have hnext := daysInYears_parts (a := a + 1) (Nat.zero_le 3) (Nat.zero_le 24) (Nat.zero_le 3)
        rw [show 400 * a + 100 * b + 4 * c + e + 1 = 400 * (a + 1) + 100 * 0 + 4 * 0 + 0 by omega, hnext]
        omega

/-- A day falls into the year after those that are over. -/
theorem yearsOver_spec (d : ℕ) : daysInYears (yearsOver d) ≤ d ∧ d < daysInYears (yearsOver d + 1) := by
  unfold yearsOver
  dsimp only
  generalize ha : d / 146097 = a
  generalize hofCycle : d % 146097 = ofCycle
  generalize hb : min (ofCycle / 36524) 3 = b
  generalize hofCentury : ofCycle - 36524 * b = ofCentury
  generalize hc : ofCentury / 1461 = c
  generalize he : min (ofCentury % 1461 / 365) 3 = e
  have hb3 : b ≤ 3 := hb ▸ Nat.min_le_right _ _
  have he3 : e ≤ 3 := he ▸ Nat.min_le_right _ _
  obtain ⟨r, hr⟩ : ∃ r, ofCentury = 1461 * c + 365 * e + r := ⟨ofCentury - 1461 * c - 365 * e, by omega⟩
  have hc24 : c ≤ 24 := by omega
  have hd : d = 146097 * a + 36524 * b + 1461 * c + 365 * e + r := by omega
  constructor
  · rw [daysInYears_parts hb3 hc24 he3]
    omega
  · rw [hd]
    exact lt_daysInYears_succ hb3 hc24 he3 (by omega) (by omega) (by omega)

/-- The years that are over, and the day of the year. -/
def splitYears (d : ℕ) : ℕ × ℕ := (yearsOver d, d - daysInYears (yearsOver d))

theorem yearsOver_mono : Monotone yearsOver := by
  intro d e hde
  by_contra hlt
  have hle : daysInYears (yearsOver e + 1) ≤ daysInYears (yearsOver d) :=
    daysInYears_mono (not_le.mp hlt)
  have hd := (yearsOver_spec d).1
  have he := (yearsOver_spec e).2
  omega

theorem splitYears_strictMono : StrictMono fun d => toLex (splitYears d) := by
  intro d e hde
  refine Prod.Lex.toLex_lt_toLex.mpr ?_
  unfold splitYears
  rcases (yearsOver_mono hde.le).lt_or_eq with hlt | hsame
  · exact .inl hlt
  · have hd := (yearsOver_spec d).1
    rw [hsame] at hd ⊢
    exact .inr ⟨rfl, by omega⟩

/-- The month and the day of the month, both counted from 0. -/
def splitMonths (year d : ℕ) : ℕ × ℕ := splitBlocks (monthLengths (isLeap year)) d

def monthText (year d : ℕ) : List Char :=
  pad 2 ((splitMonths year d).1 + 1) ++ '-' :: pad 2 ((splitMonths year d).2 + 1)

def dateText (d : ℕ) : List Char :=
  pad 4 ((splitYears d).1 + 1) ++ '-' :: monthText ((splitYears d).1 + 1) (splitYears d).2

/-- The days up to the end of the year 9999. -/
def maxDays : ℕ := 3652059

theorem yearsOver_lt {d : ℕ} (hd : d < maxDays) : yearsOver d < 9999 := by
  by_contra hle
  have hdays := daysInYears_mono (not_lt.mp hle)
  have hfirst := (yearsOver_spec d).1
  have hall : daysInYears 9999 = maxDays := rfl
  omega

/-- A day of the month has two digits. -/
theorem splitMonths_snd_le (year : ℕ) : ∀ d < 366, (splitMonths year d).2 ≤ 31 := by
  unfold splitMonths
  cases isLeap year <;> decide +kernel

theorem precedes_monthText {year c d : ℕ} (hcd : c < d) (hd : d < 366) :
    Precedes (monthText year c) (monthText year d) := by
  have hmonth : (splitMonths year d).1 ≤ 11 := splitBlocks_fst_le (monthLengths (isLeap year)) d
  have hday := splitMonths_snd_le year d hd
  have hsplit : (splitMonths year c).1 < (splitMonths year d).1 ∨
      (splitMonths year c).1 = (splitMonths year d).1 ∧ (splitMonths year c).2 < (splitMonths year d).2 :=
    Prod.Lex.toLex_lt_toLex.mp (splitBlocks_strictMono (monthLengths (isLeap year)) hcd)
  unfold monthText
  rcases hsplit with hlt | ⟨hsame, hlt⟩
  · exact (precedes_pad (Nat.succ_lt_succ hlt) (by omega)).append _ _
  · rw [hsame]
    exact ((precedes_pad (Nat.succ_lt_succ hlt) (by omega)).cons '-').after _

theorem precedes_dateText {c d : ℕ} (hcd : c < d) (hd : d < maxDays) :
    Precedes (dateText c) (dateText d) := by
  have hyear := yearsOver_lt hd
  unfold dateText
  rcases Prod.Lex.toLex_lt_toLex.mp (splitYears_strictMono hcd) with hlt | ⟨hsame, hlt⟩
  · exact (precedes_pad (Nat.succ_lt_succ hlt) (by unfold splitYears; omega)).append _ _
  · have hyears : (splitYears c).1 = (splitYears d).1 := hsame
    have hrest : (splitYears d).2 < 366 := by
      have hnext := (yearsOver_spec d).2
      have hlength : daysInYears (yearsOver d + 1) ≤ daysInYears (yearsOver d) + 366 := by
        unfold daysInYears
        omega
      unfold splitYears
      omega
    rw [hyears]
    exact ((precedes_monthText hlt hrest).cons '-').after _

-- ============================================================================
-- Moments
-- ============================================================================

/-- The microseconds since the first day of the year 1, in UTC. -/
abbrev Moment := Fin (maxDays * dayMicros)

/-- The date, the time of day and the offset from UTC. -/
def isoformat (t : Moment) : String :=
  String.ofList (dateText (t / dayMicros) ++ 'T' :: timeText (t % dayMicros))

/-- A later moment, or an earlier one, within the calendar. -/
def Moment.shift (t : Moment) (micros : ℤ) : Option Moment :=
  if h : 0 ≤ (t : ℤ) + micros ∧ (t : ℤ) + micros < maxDays * dayMicros then
    some ⟨((t : ℤ) + micros).toNat, by omega⟩
  else none

/-- Texts sort as the moments do. -/
theorem isoformat_strictMono : StrictMono isoformat := by
  intro s t hst
  have hlt : s.val < t.val := hst
  have hdays : t / dayMicros < maxDays := (Nat.div_lt_iff_lt_mul (by decide)).mpr t.isLt
  rw [String.lt_iff_toList_lt]
  unfold isoformat
  rw [String.toList_ofList, String.toList_ofList]
  rcases Nat.lt_or_ge (s / dayMicros) (t / dayMicros) with hday | hge
  · exact ((precedes_dateText hday hdays).append _ _).lt
  · have hsame : s.val / dayMicros = t / dayMicros := le_antisymm (Nat.div_le_div_right hlt.le) hge
    have htime : s.val % dayMicros < t % dayMicros := by unfold dayMicros at hsame ⊢; omega
    rw [hsame]
    exact (((precedes_timeText htime (Nat.mod_lt _ (by decide))).cons 'T').after _).lt

example : isoformat ⟨63923317323000000, by decide⟩ = "2026-08-26T05:02:03+00:00" := by decide +kernel

end IbTrader.Lib.IsoTime
