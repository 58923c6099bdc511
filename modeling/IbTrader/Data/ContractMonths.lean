/-
  IbTrader.Data.ContractMonths

  The three readings of a contract month with a one-digit year
  (`ib_trader/utils/symbol.py`).

  What is pasted into IB keeps the last digit of the year.  The display symbol of a local
  symbol takes it to be of the twenties, a month code takes it to be of the current decade
  or, where that is more than a year ago, of the next.  Texts are ASCII.
-/

import IbTrader.Data.Python

namespace IbTrader.Data

-- ============================================================================
-- Formats
-- ============================================================================

/-- `CODE_MONTHS`. -/
def codeMonth (code : String) : Option ℕ := (monthCodes.findIdx? (· = code)).map (· + 1)

/-- `_widen_single_digit_year`, in a year. -/
def widenSingleDigitYear (currentYear digit : ℕ) : ℕ :=
  let currentYy := currentYear % 100
  let decadeStart := currentYy - currentYy % 10
  let candidate := decadeStart + digit
  if (candidate : ℤ) < currentYy - 1 then candidate + 10 else candidate

/-- `parse_month_code`, in a year. -/
def parseMonthCode (currentYear : ℕ) (token : String) : Option (ℕ × ℕ) :=
  match token.toList with
  | [] => none
  | first :: rest => do
    let month ← codeMonth (String.singleton first.toUpper)
    if rest.all Char.isDigit ∧ 1 ≤ rest.length ∧ rest.length ≤ 2 then
      let year := digitsValue rest
      return (month, if rest.length = 1 then widenSingleDigitYear currentYear year else year)
    else none

/-- `format_ib_paste_symbol`. -/
def formatIbPasteSymbol (root secType expiry : String) : Option String :=
  if upper secType ≠ "FUT" then some root
  else if expiry = "" then none
  else do
    let (month, yy) ← expiryToMonthYear expiry
    let code ← monthToCode month
    return root ++ code ++ toString (yy % 10)

/-- `_LS_MONTH_CODES`. -/
def lsMonthCodes : String := "FGHJKMNQUVXZ"

/-- `[A-Z0-9]`. -/
def rootChar (c : Char) : Bool := c.isUpper ∨ c.isDigit

/-- The rest of `_LS_RE` after the root: a month code, one or two digits and the end, before
    which there may be a newline. -/
def lsMonth : List Char → Option (Char × List Char)
  | [] => none
  | code :: rest =>
    let yr := if rest.getLast? = some '\n' then rest.dropLast else rest
    if code ∈ lsMonthCodes.toList ∧ (yr.length = 1 ∨ yr.length = 2) ∧ yr.all Char.isDigit then some (code, yr)
    else none

/-- `_LS_RE.match`, with the shortest root for which the rest matches. -/
def lsMatch (root : List Char) : List Char → Option (List Char × Char × List Char)
  | [] => none
  | c :: cs =>
    if rootChar c then
      match lsMonth cs with
      | some (code, yr) => some (root ++ [c], code, yr)
      | none => lsMatch (root ++ [c]) cs
    else none

/-- `display_from_local_symbol`. -/
def displayFromLocalSymbol (localSym : Option String) : Option String :=
  (lsMatch [] (upper (localSym.getD "")).toList).map fun (root, code, yr) =>
    let yy := if yr.length = 2 then yr else '2' :: yr
    String.ofList root ++ " " ++ String.singleton code ++ String.ofList yy

-- ============================================================================
-- Agreement
-- ============================================================================

/-- The year of an expiry. -/
def expiryYear (expiry : String) : ℕ := digitsValue (expiry.toList.take 4)

/-- What follows the root of a paste symbol. -/
def monthCodeOf (root paste : String) : String := String.ofList (paste.toList.drop root.toList.length)

/-- Both readings of the paste symbol of a contract give its month. -/
structure MonthsAgree (currentYear : ℕ) (root expiry paste : String) : Prop where
  display : displayFromLocalSymbol (some paste) = formatDisplaySymbol root "FUT" expiry
  month : parseMonthCode currentYear (monthCodeOf root paste) = expiryToMonthYear expiry

/-- When the two readings agree, for an expiry from the current year to nine years after:
    the expiry is in the twenties, and it is in the current decade or at most eight years
    ahead. -/
def Readable (currentYear : ℕ) (root expiry : String) : Prop :=
  root ≠ "" ∧ expiryYear expiry % 100 / 10 = 2 ∧
    (expiryYear expiry / 10 = currentYear / 10 ∨ expiryYear expiry ≤ currentYear + 8)

-- ============================================================================
-- Characters
-- ============================================================================

theorem toUpper_of_rootChar {c : Char} (h : rootChar c) : c.toUpper = c := by
  rcases of_decide_eq_true h with hupper | hdigit
  · exact toUpper_of_isUpper hupper
  · have hhigh := (toNat_of_isDigit hdigit).2
    refine dif_neg fun hlower => ?_
    have hlow : 97 ≤ c.toNat := UInt32.le_iff_toNat_le.mp hlower.1
    omega

theorem upper_of_rootChars {s : String} (h : ∀ c ∈ s.toList, rootChar c) : upper s = s := by
  have hchars : s.toList.map Char.toUpper = s.toList :=
    (List.map_congr_left fun c hc => toUpper_of_rootChar (h c hc)).trans (List.map_id _)
  rw [upper, hchars, String.ofList_toList]

/-- A digit as it is written. -/
theorem toString_digit {d : ℕ} (hd : d < 10) :
    ∃ c : Char, toString d = String.singleton c ∧ c.isDigit ∧ digitsValue [c] = d := by
  have hall : ∀ d < 10, toString d = String.singleton (Nat.digitChar d) ∧ (Nat.digitChar d).isDigit ∧
      digitsValue [Nat.digitChar d] = d := by decide
  exact ⟨Nat.digitChar d, hall d hd⟩

/-- A month code is one letter, which names its month. -/
theorem monthToCode_letter {month : ℕ} (hlow : 1 ≤ month) (hhigh : month ≤ 12) :
    ∃ c : Char, monthToCode month = some (String.singleton c) ∧ c ∈ lsMonthCodes.toList ∧ c.isUpper ∧
      codeMonth (String.singleton c) = some month := by
  have hall : ∀ month < 13, 1 ≤ month → lsMonthCodes.toList.any fun c =>
      decide (monthToCode month = some (String.singleton c) ∧ c.isUpper ∧
        codeMonth (String.singleton c) = some month) := by decide
  obtain ⟨c, hmem, hc⟩ := List.any_eq_true.mp (hall month (Nat.lt_succ_of_le hhigh) hlow)
  obtain ⟨hcode, hupper, hmonth⟩ := of_decide_eq_true hc
  exact ⟨c, hcode, hmem, hupper, hmonth⟩

-- ============================================================================
-- The shortest root
-- ============================================================================

section Match

variable {code d x : Char} {cs root : List Char}

theorem lsMonth_pair (hcode : code ∈ lsMonthCodes.toList) (hd : d.isDigit) : lsMonth [code, d] = some (code, [d]) := by
  have hnewline : ¬ [d].getLast? = some '\n' := by
    rintro h
    obtain rfl := Option.some.inj h
    exact absurd hd (by decide)
  rw [lsMonth, if_neg hnewline, if_pos ⟨hcode, .inl rfl, by simp [hd]⟩]

/-- What has a letter after its first character is no month with a year. -/
theorem lsMonth_eq_none (hcode : ¬ code.isDigit) (hd : d.isDigit) : lsMonth (x :: (cs ++ [code, d])) = none := by
  have hlast : (cs ++ [code, d]).getLast? = some d := by simp
  have hnewline : ¬ (cs ++ [code, d]).getLast? = some '\n' := by
    rw [hlast]
    rintro h
    obtain rfl := Option.some.inj h
    exact absurd hd (by decide)
  rw [lsMonth, if_neg hnewline]
  refine if_neg fun h => hcode ?_
  exact List.all_eq_true.mp h.2.2 code (by simp)

/-- The root is all that stands before the last two characters. -/
theorem lsMatch_root (hcode : code ∈ lsMonthCodes.toList) (hletter : ¬ code.isDigit) (hd : d.isDigit) :
    ∀ {acc : List Char}, root ≠ [] → (∀ c ∈ root, rootChar c) →
      lsMatch acc (root ++ [code, d]) = some (acc ++ root, code, [d]) := by
  induction root with
  | nil => exact fun hne => absurd rfl hne
  | cons c cs ih =>
    intro acc _ hroot
    rw [List.cons_append, lsMatch, if_pos (hroot c List.mem_cons_self)]
    cases cs with
    | nil =>
      rw [List.nil_append, lsMonth_pair hcode hd]
    | cons e cs =>
      rw [List.cons_append, lsMonth_eq_none hletter hd]
      dsimp only
      rw [← List.cons_append, ih (List.cons_ne_nil e cs) fun c hc => hroot c (List.mem_cons_of_mem _ hc),
        List.append_assoc]
      rfl

/-- Without a root nothing matches. -/
theorem lsMatch_pair (acc : List Char) : lsMatch acc [code, d] = none := by
  have hone : lsMonth [d] = none := by simp [lsMonth]
  rw [lsMatch, hone]
  split
  · dsimp only
    rw [lsMatch]
    split <;> rfl
  · rfl

end Match

-- ============================================================================
-- Years
-- ============================================================================

/-- The display symbol has the year if it is in the twenties. -/
theorem twoDigits_eq_iff {yy : ℕ} (h : yy < 100) :
    String.singleton '2' ++ toString (yy % 10) = twoDigits yy ↔ yy / 10 = 2 := by
  have hall : ∀ yy < 100, String.singleton '2' ++ toString (yy % 10) = twoDigits yy ↔ yy / 10 = 2 := by decide
  exact hall yy h

/-- A month code has the year if it is of the twenties as the display symbol has it, and in
    the current decade or at most eight years ahead. -/
theorem widenSingleDigitYear_iff {currentYear year : ℕ} (hlow : currentYear ≤ year) (hhigh : year ≤ currentYear + 9)
    (hyear : year % 100 / 10 = 2) :
    widenSingleDigitYear currentYear (year % 100 % 10) = year % 100 ↔
      year / 10 = currentYear / 10 ∨ year ≤ currentYear + 8 := by
  unfold widenSingleDigitYear
  dsimp only
  split <;> omega

-- ============================================================================
-- The two readings
-- ============================================================================

/-- What an expiry is read as. -/
theorem expiryToMonthYear_eq_some {expiry : String} {month yy : ℕ} (h : expiryToMonthYear expiry = some (month, yy)) :
    1 ≤ month ∧ month ≤ 12 ∧ yy = expiryYear expiry % 100 := by
  unfold expiryToMonthYear at h
  dsimp only at h
  split at h
  case isFalse => cases h
  case isTrue =>
    split at h
    case isFalse => cases h
    case isTrue hmonth =>
      obtain ⟨rfl, rfl⟩ := Prod.mk.inj (Option.some.inj h)
      exact ⟨hmonth.1, hmonth.2, rfl⟩

theorem expiry_ne_empty {expiry : String} {month yy : ℕ} (h : expiryToMonthYear expiry = some (month, yy)) :
    expiry ≠ "" := by
  rintro rfl
  have hnone : expiryToMonthYear "" = none := by decide
  exact absurd (hnone.symm.trans h) (Option.some_ne_none _).symm

/-- A contract, the symbols of which both have its root, the letter of its month and digits
    of its year. -/
theorem formats_of_expiry (root : String) {expiry : String} {month yy : ℕ} {code d : Char}
    (h : expiryToMonthYear expiry = some (month, yy)) (hcode : monthToCode month = some (String.singleton code))
    (hd : toString (yy % 10) = String.singleton d) :
    formatIbPasteSymbol root "FUT" expiry = some (root ++ String.singleton code ++ String.singleton d) ∧
      formatDisplaySymbol root "FUT" expiry = some (root ++ " " ++ String.singleton code ++ twoDigits yy) := by
  have hfut : ¬ upper "FUT" ≠ "FUT" := by decide
  constructor
  · rw [formatIbPasteSymbol, if_neg hfut, if_neg (expiry_ne_empty h), h]
    dsimp only [Option.bind_eq_bind, Option.bind_some]
    rw [hcode, ← hd]
    rfl
  · rw [formatDisplaySymbol, if_neg hfut, if_neg (expiry_ne_empty h), h]
    dsimp only [Option.bind_eq_bind, Option.bind_some]
    rw [hcode]
    rfl

section Readings

variable {root : String} {code d : Char}

/-- The display symbol of a paste symbol. -/
theorem displayFromLocalSymbol_paste (hroot : ∀ c ∈ root.toList, rootChar c) (hcode : code ∈ lsMonthCodes.toList)
    (hupper : code.isUpper) (hd : d.isDigit) :
    displayFromLocalSymbol (some (root ++ String.singleton code ++ String.singleton d)) =
      if root = "" then none
      else some (root ++ " " ++ String.singleton code ++ (String.singleton '2' ++ String.singleton d)) := by
  have hchars : (root ++ String.singleton code ++ String.singleton d).toList = root.toList ++ [code, d] := by simp
  have hpaste : ∀ c ∈ (root ++ String.singleton code ++ String.singleton d).toList, rootChar c := by
    rw [hchars]
    intro c hc
    rcases List.mem_append.mp hc with hc | hc
    · exact hroot c hc
    · rcases List.mem_pair.mp hc with rfl | rfl
      · exact decide_eq_true (.inl hupper)
      · exact decide_eq_true (.inr hd)
  have hletter : ¬ code.isDigit := by
    have hlow := ((isUpper_iff code).mp hupper).1
    intro hdigit
    have hhigh := (toNat_of_isDigit hdigit).2
    omega
  rw [displayFromLocalSymbol, Option.getD_some, upper_of_rootChars hpaste, hchars]
  split
  case isTrue hempty =>
    rw [hempty, show ("" : String).toList = [] from rfl, List.nil_append, lsMatch_pair]
    rfl
  case isFalse hne =>
    rw [lsMatch_root hcode hletter hd (fun hnil => hne (String.toList_eq_nil_iff.mp hnil)) hroot, Option.map_some,
      List.nil_append]
    dsimp only
    have htail : String.ofList ['2', d] = String.singleton '2' ++ String.singleton d := by
      rw [← String.toList_inj]
      simp
    rw [String.ofList_toList, if_neg (by simp), htail]

/-- The month code of a paste symbol. -/
theorem parseMonthCode_paste {currentYear month n : ℕ} (hupper : code.isUpper)
    (hmonth : codeMonth (String.singleton code) = some month) (hd : d.isDigit) (hn : digitsValue [d] = n) :
    parseMonthCode currentYear (monthCodeOf root (root ++ String.singleton code ++ String.singleton d)) =
      some (month, widenSingleDigitYear currentYear n) := by
  have hchars : (monthCodeOf root (root ++ String.singleton code ++ String.singleton d)).toList = [code, d] := by
    simp [monthCodeOf]
  rw [parseMonthCode, hchars]
  dsimp only
  rw [toUpper_of_isUpper hupper, hmonth, Option.bind_eq_bind, Option.bind_some, if_pos (by simp [hd]), hn]
  rfl

end Readings

theorem append_right_inj_iff {s a b : String} : s ++ a = s ++ b ↔ a = b := by
  rw [← String.toList_inj, String.toList_append, String.toList_append, List.append_cancel_left_eq, String.toList_inj]

/-- The readings of a paste symbol agree exactly for the expiries that are readable. -/
theorem monthsAgree_iff {currentYear : ℕ} {root expiry : String} (hroot : ∀ c ∈ root.toList, rootChar c)
    (hexpiry : (expiryToMonthYear expiry).isSome) (hlow : currentYear ≤ expiryYear expiry)
    (hhigh : expiryYear expiry ≤ currentYear + 9) :
    ∃ paste, formatIbPasteSymbol root "FUT" expiry = some paste ∧
      (MonthsAgree currentYear root expiry paste ↔ Readable currentYear root expiry) := by
  obtain ⟨⟨month, yy⟩, h⟩ := Option.isSome_iff_exists.mp hexpiry
  obtain ⟨hmonthLow, hmonthHigh, hyy⟩ := expiryToMonthYear_eq_some h
  obtain ⟨code, hcode, hmem, hupper, hmonth⟩ := monthToCode_letter hmonthLow hmonthHigh
  obtain ⟨d, hd, hdigit, hvalue⟩ := toString_digit (Nat.mod_lt yy (by decide : 0 < 10))
  obtain ⟨hpaste, hdisplay⟩ := formats_of_expiry root h hcode hd
  have hdisplayed : displayFromLocalSymbol (some (root ++ String.singleton code ++ String.singleton d)) =
      formatDisplaySymbol root "FUT" expiry ↔ root ≠ "" ∧ yy / 10 = 2 := by
    rw [displayFromLocalSymbol_paste hroot hmem hupper hdigit, hdisplay]
    split
    case isTrue hempty => exact iff_of_false (Option.some_ne_none _).symm fun hne => hne.1 hempty
    case isFalse hne =>
      rw [Option.some.injEq, append_right_inj_iff, ← hd, twoDigits_eq_iff (hyy ▸ Nat.mod_lt _ (by decide))]
      exact (and_iff_right hne).symm
  have hmonths : parseMonthCode currentYear (monthCodeOf root (root ++ String.singleton code ++ String.singleton d)) =
      expiryToMonthYear expiry ↔ widenSingleDigitYear currentYear (yy % 10) = yy := by
    rw [parseMonthCode_paste hupper hmonth hdigit hvalue, h, Option.some.injEq, Prod.mk.injEq]
    exact and_iff_right rfl
  refine ⟨_, hpaste, ?_⟩
  have hagree : MonthsAgree currentYear root expiry (root ++ String.singleton code ++ String.singleton d) ↔
      (root ≠ "" ∧ yy / 10 = 2) ∧ widenSingleDigitYear currentYear (yy % 10) = yy := by
    rw [← hdisplayed, ← hmonths]
    exact ⟨fun ⟨hd, hm⟩ => ⟨hd, hm⟩, fun ⟨hd, hm⟩ => ⟨hd, hm⟩⟩
  rw [hagree, Readable, and_assoc, ← hyy]
  refine and_congr_right fun _ => and_congr_right fun htwenties => ?_
  rw [hyy] at htwenties ⊢
  exact widenSingleDigitYear_iff hlow hhigh htwenties

theorem monthsAgree_iff_december : ∃ paste, formatIbPasteSymbol "MNQ" "FUT" "20261218" = some paste ∧
    (MonthsAgree 2026 "MNQ" "20261218" paste ↔ Readable 2026 "MNQ" "20261218") :=
  monthsAgree_iff (by decide) (by decide) (by decide) (by decide)

/-- A contract of 2031 is displayed as one of 2021, and the month code of one of 2035 is
    read in 2026 as one of 2025. -/
theorem monthsAgree_fails :
    (expiryYear "203112" = 2031 ∧ formatIbPasteSymbol "ES" "FUT" "203112" = some "ESZ1" ∧
      ¬ MonthsAgree 2026 "ES" "203112" "ESZ1" ∧ displayFromLocalSymbol (some "ESZ1") = some "ES Z21" ∧
      formatDisplaySymbol "ES" "FUT" "203112" = some "ES Z31") ∧
    expiryYear "203512" = 2035 ∧ formatIbPasteSymbol "ES" "FUT" "203512" = some "ESZ5" ∧
      ¬ MonthsAgree 2026 "ES" "203512" "ESZ5" ∧ parseMonthCode 2026 (monthCodeOf "ES" "ESZ5") = some (12, 25) ∧
      expiryToMonthYear "203512" = some (12, 35) := by
  refine ⟨⟨by decide, by decide, fun h => ?_, by decide, by decide⟩, by decide, by decide, fun h => ?_, by decide,
    by decide⟩
  · exact absurd h.display (by decide)
  · exact absurd h.month (by decide)

end IbTrader.Data
