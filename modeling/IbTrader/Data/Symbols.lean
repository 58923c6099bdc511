/-
  IbTrader.Data.Symbols

  Display symbols of futures contracts (`ib_trader/utils/symbol.py`).

  Texts are ASCII: a digit is `0` to `9`, and upper case moves `a` to `z` alone.  A
  function that raises ValueError returns none.
-/

import Mathlib.Data.Nat.Notation

namespace IbTrader.Data

/-- `str.upper`. -/
def upper (s : String) : String := String.ofList (s.toList.map Char.toUpper)

theorem upper_ne_empty {s : String} (h : s ≠ "") : upper s ≠ "" := by
  unfold upper
  intro hempty
  have hnil : s.toList.map Char.toUpper = [] := String.ofList_injective hempty
  exact h (String.toList_eq_nil_iff.mp (List.map_eq_nil_iff.mp hnil))

/-- `a or b`, of texts. -/
def either (a b : String) : String := if a = "" then b else a

theorem either_ne_empty {a b : String} (h : b ≠ "") : either a b ≠ "" := by
  unfold either
  split
  case isTrue => exact h
  case isFalse hne => exact hne

@[simp] theorem either_of_ne {a b : String} (h : a ≠ "") : either a b = a := if_neg h

/-- `int`, of digits. -/
def digitsValue (ds : List Char) : ℕ := ds.foldl (fun n d => 10 * n + (d.toNat - '0'.toNat)) 0

/-- `MONTH_CODES`. -/
def monthCodes : List String := ["F", "G", "H", "J", "K", "M", "N", "Q", "U", "V", "X", "Z"]

/-- `month_to_code`. -/
def monthToCode (month : ℕ) : Option String := if month = 0 then none else monthCodes[month - 1]?

/-- `expiry_to_month_year`. -/
def expiryToMonthYear (expiry : String) : Option (ℕ × ℕ) :=
  let ds := expiry.toList
  if (ds.length = 6 ∨ ds.length = 8) ∧ ds.all Char.isDigit then
    let year := digitsValue (ds.take 4)
    let month := digitsValue ((ds.drop 4).take 2)
    if 1 ≤ month ∧ month ≤ 12 then some (month, year % 100) else none
  else none

/-- A number below a hundred in two digits. -/
def twoDigits (n : ℕ) : String := if n < 10 then s!"0{n}" else s!"{n}"

/-- `format_display_symbol`. -/
def formatDisplaySymbol (root secType expiry : String) : Option String :=
  if upper secType ≠ "FUT" then some root
  else if expiry = "" then none
  else do
    let (month, yy) ← expiryToMonthYear expiry
    let code ← monthToCode month
    return root ++ " " ++ code ++ twoDigits yy

theorem append_space_ne_empty (root rest : String) : root ++ " " ++ rest ≠ "" := by
  intro h
  have hspace := (String.append_eq_empty_iff.mp (String.append_eq_empty_iff.mp h).1).2
  revert hspace
  decide

/-- A display symbol of a future is not empty. -/
theorem formatDisplaySymbol_ne_empty {root expiry display : String}
    (h : formatDisplaySymbol root "FUT" expiry = some display) : display ≠ "" := by
  have hfut : upper "FUT" = "FUT" := by decide
  unfold formatDisplaySymbol at h
  rw [if_neg fun hne => hne hfut] at h
  split at h
  case isTrue => cases h
  case isFalse =>
    obtain ⟨⟨month, yy⟩, -, h⟩ := Option.bind_eq_some_iff.mp h
    obtain ⟨code, -, h⟩ := Option.bind_eq_some_iff.mp h
    cases h
    rw [String.append_assoc]
    exact append_space_ne_empty root _

end IbTrader.Data
