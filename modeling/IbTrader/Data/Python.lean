/-
  IbTrader.Data.Python

  Texts and decimals as Python reads them.

  What Python takes from its tables of Unicode is a parameter: upper and lower case,
  which characters are blank and which are digits, and how a text or a set is printed
  in an error.  The tables agree with ASCII where the characters are (`Lawful`).  A
  decimal is read by the grammar of the module `decimal`; that it refuses an exponent
  of more than eighteen digits is left out.  An integer is read by `int` and written by
  `str`, both of which stop at 4300 digits.
-/

import Mathlib.Algebra.Order.Field.Rat
import Mathlib.Data.List.TakeWhile
import IbTrader.Data.Symbols
import IbTrader.Lib.ShellWords

namespace IbTrader.Data

open Lib

-- ============================================================================
-- Tables
-- ============================================================================

structure Python where
  /-- `str.upper`. -/
  upper : String → String
  /-- `str.lower`. -/
  lower : String → String
  /-- `str.isspace`, of a character. -/
  space : Char → Bool
  /-- The value of a decimal digit. -/
  digit : Char → Option ℕ
  /-- `repr`, of a text. -/
  repr : String → String
  /-- What a set of texts prints as. -/
  printSet : List String → String

/-- The tables for ASCII alone. -/
def ascii : Python where
  upper := upper
  lower s := String.ofList (s.toList.map Char.toLower)
  space c := c = ' ' ∨ 9 ≤ c.toNat ∧ c.toNat ≤ 13 ∨ 28 ≤ c.toNat ∧ c.toNat ≤ 31
  digit c := if c.isDigit then some (c.toNat - '0'.toNat) else none
  repr s := "'" ++ s ++ "'"
  printSet xs := ", ".intercalate xs

def isAscii (s : String) : Prop := ∀ c ∈ s.toList, c.toNat < 128

instance (s : String) : Decidable (isAscii s) := inferInstanceAs (Decidable (∀ _ ∈ _, _))

/-- The tables are Unicode's, as far as the program relies on them. -/
structure Python.Lawful (py : Python) : Prop where
  upper_ascii : ∀ s, isAscii s → py.upper s = ascii.upper s
  lower_ascii : ∀ s, isAscii s → py.lower s = ascii.lower s
  space_ascii : ∀ c : Char, c.toNat < 128 → py.space c = ascii.space c
  digit_ascii : ∀ c : Char, c.toNat < 128 → py.digit c = ascii.digit c
  upper_upper : ∀ s, py.upper (py.upper s) = py.upper s
  upper_ne_empty : ∀ s, s ≠ "" → py.upper s ≠ ""
  /-- A character that upper case brings in is neither blank, nor a quote, nor a
      backslash. -/
  upper_new : ∀ s, ∀ c ∈ (py.upper s).toList, c ∈ s.toList ∨ py.space c = false ∧ ShellWords.PlainChar c

section Texts

variable (py : Python)

/-- `str.strip`. -/
def strip (s : String) : String :=
  String.ofList ((s.toList.dropWhile py.space).reverse.dropWhile py.space).reverse

/-- The first character is one. -/
def startsWith (s : String) (c : Char) : Bool := s.toList.head? = some c

/-- The last character is one. -/
def endsWith (s : String) (c : Char) : Bool := s.toList.getLast? = some c

/-- A text as a value that may be missing: an empty one is none. -/
def given (s : Option String) : Option String := s.filter (· ≠ "")

-- ============================================================================
-- Decimals
-- ============================================================================

inductive Decimal
  | finite (q : ℚ)
  | infinite (negative : Bool)
  | nan
  deriving DecidableEq, Repr

/-- A sign, and what follows it. -/
def sign : List Char → Bool × List Char
  | '-' :: cs => (true, cs)
  | '+' :: cs => (false, cs)
  | cs => (false, cs)

/-- Digits, and what follows them. -/
def digits : List Char → List ℕ × List Char
  | [] => ([], [])
  | c :: cs =>
    match py.digit c with
    | some d => (d :: (digits cs).1, (digits cs).2)
    | none => ([], c :: cs)

def digitsNumber (ds : List ℕ) : ℕ := ds.foldl (fun n d => 10 * n + d) 0

/-- An exponent and nothing else. -/
def exponent : List Char → Option ℤ
  | [] => some 0
  | c :: cs =>
    if c = 'e' ∨ c = 'E' then
      match digits py (sign cs).2 with
      | (d :: ds, []) =>
        let n : ℤ := digitsNumber (d :: ds)
        some (if (sign cs).1 then -n else n)
      | _ => none
    else none

/-- Digits after a point, and what follows them. -/
def fraction : List Char → List ℕ × List Char
  | '.' :: cs => digits py cs
  | cs => ([], cs)

/-- A number without its sign. -/
def number (cs : List Char) : Option ℚ :=
  let whole := (digits py cs).1
  let part := (fraction py (digits py cs).2).1
  if whole = [] ∧ part = [] then none
  else (exponent py (fraction py (digits py cs).2).2).map fun e : ℤ =>
    (digitsNumber (whole ++ part) : ℚ) * 10 ^ (e - part.length)

/-- A name for what is not a finite number. -/
def special (negative : Bool) (cs : List Char) : Option Decimal :=
  let name := cs.map Char.toLower
  if name = "inf".toList ∨ name = "infinity".toList then some (.infinite negative)
  else if name.take 3 = "nan".toList ∧ (digits py (cs.drop 3)).2 = [] then some .nan
  else if name.take 4 = "snan".toList ∧ (digits py (cs.drop 4)).2 = [] then some .nan
  else none

/-- `Decimal`, of a text; none where it raises InvalidOperation. -/
def decimal (text : String) : Option Decimal :=
  let (negative, cs) := sign ((strip py text).toList.filter (· ≠ '_'))
  match number py cs with
  | some q => some (.finite (if negative then -q else q))
  | none => special py negative cs

-- ============================================================================
-- Integers
-- ============================================================================

/-- Digits and nothing else, between which single underscores may stand. -/
def grouped : List Char → Option (List ℕ)
  | [] => none
  | [c] => (py.digit c).map ([·])
  | c :: d :: cs =>
    (py.digit c).bind fun n => (if d = '_' then grouped cs else grouped (d :: cs)).map (n :: ·)

/-- How many digits of an integer are read and written. -/
def maxStrDigits : ℕ := 4300

/-- `int`, of a text; none where it raises ValueError. -/
def integer (text : String) : Option ℤ :=
  let (negative, cs) := sign (strip py text).toList
  match grouped py cs with
  | some ds =>
    if ds.length ≤ maxStrDigits then
      some (if negative then -(digitsNumber ds : ℤ) else digitsNumber ds)
    else none
  | none => none

/-- `str`, of an integer; none where it raises ValueError. -/
def integerText (n : ℤ) : Option String :=
  if (Nat.toDigits 10 n.natAbs).length ≤ maxStrDigits then some (toString n) else none

-- ============================================================================
-- Numerals
-- ============================================================================

/-- A finite positive number. -/
def Decimal.positive : Decimal → Bool
  | .finite q => 0 < q
  | _ => false

theorem Decimal.positive_iff (d : Decimal) : d.positive ↔ ∃ q : ℚ, 0 < q ∧ d = .finite q := by
  cases d <;> simp [positive]

/-- A text that reads as a finite positive number. -/
structure Numeral (text : String) : Prop where
  positive : (decimal py text).any Decimal.positive

instance (text : String) : Decidable (Numeral py text) :=
  decidable_of_iff ((decimal py text).any Decimal.positive) ⟨Numeral.mk, Numeral.positive⟩

end Texts

-- ============================================================================
-- What a numeral is written with
-- ============================================================================

section Numerals

variable {py : Python} {c : Char} {cs : List Char} {text : String}

theorem Numeral.decimal_eq (h : Numeral py text) :
    ∃ q : ℚ, 0 < q ∧ decimal py text = some (.finite q) := by
  obtain ⟨d, hd, hpositive⟩ := (Option.any_eq_true _ _).mp h.positive
  obtain ⟨q, hq, rfl⟩ := d.positive_iff.mp hpositive
  exact ⟨q, hq, hd⟩

theorem Numeral.ne_empty (h : Numeral py text) : text ≠ "" := by
  rintro rfl
  obtain ⟨q, -, hq⟩ := h.decimal_eq
  have hempty : strip py "" = "" := rfl
  simp [decimal, hempty, sign, number, digits, fraction, special] at hq

theorem mem_sign (h : c ∈ cs) : c ∈ (sign cs).2 ∨ c = '+' ∨ c = '-' := by
  unfold sign
  split
  · rw [List.mem_cons] at h
    exact h.elim (fun h => .inr (.inr h)) .inl
  · rw [List.mem_cons] at h
    exact h.elim (fun h => .inr (.inl h)) .inl
  · exact .inl h

theorem mem_digits (h : c ∈ cs) (hc : py.digit c = none) : c ∈ (digits py cs).2 := by
  induction cs with
  | nil => exact absurd h List.not_mem_nil
  | cons d cs ih =>
    unfold digits
    cases hd : py.digit d with
    | none => exact h
    | some n =>
      have hne : c ≠ d := fun heq => absurd hc (by rw [heq, hd]; exact Option.some_ne_none n)
      exact ih ((List.mem_cons.mp h).resolve_left hne)

theorem mem_fraction (h : c ∈ cs) (hc : py.digit c = none) : c ∈ (fraction py cs).2 ∨ c = '.' := by
  unfold fraction
  split
  · rw [List.mem_cons] at h
    exact h.elim .inr fun h => .inl (mem_digits h hc)
  · exact .inl h

theorem mem_exponent {e : ℤ} (h : exponent py cs = some e) (hc : c ∈ cs) (hdigit : py.digit c = none) :
    c ∈ ['e', 'E', '+', '-'] := by
  unfold exponent at h
  split at h
  case h_1 => exact absurd hc List.not_mem_nil
  case h_2 d ds =>
    split at h
    case isFalse => exact absurd h (by simp)
    case isTrue hd =>
      split at h
      case h_2 => exact absurd h (by simp)
      case h_1 hrest =>
        rcases List.mem_cons.mp hc with heq | hds
        · rcases hd with he | he <;> simp [heq, he]
        · rcases mem_sign hds with hsign | hplus | hminus
          · have hleft := mem_digits hsign hdigit
            rw [hrest] at hleft
            exact absurd hleft List.not_mem_nil
          · simp [hplus]
          · simp [hminus]

/-- The marks of a number. -/
def numberMarks : List Char := ['.', 'e', 'E', '+', '-']

theorem mem_number {q : ℚ} (h : number py cs = some q) (hc : c ∈ cs) (hdigit : py.digit c = none) :
    c ∈ numberMarks := by
  unfold number at h
  dsimp only at h
  split at h
  case isTrue => exact absurd h (by simp)
  case isFalse =>
    obtain ⟨e, he, -⟩ := Option.map_eq_some_iff.mp h
    rcases mem_fraction (mem_digits hc hdigit) hdigit with hrest | hpoint
    · exact List.mem_cons_of_mem _ (mem_exponent he hrest hdigit)
    · rw [hpoint]
      exact List.mem_cons_self

theorem mem_dropWhile {p : Char → Bool} (h : c ∈ cs) (hc : p c = false) : c ∈ cs.dropWhile p := by
  rw [← List.takeWhile_append_dropWhile (p := p) (l := cs), List.mem_append] at h
  exact h.resolve_left fun hin => by simpa [hc] using List.mem_takeWhile_imp hin

theorem mem_strip (h : c ∈ text.toList) (hc : py.space c = false) : c ∈ (strip py text).toList := by
  rw [strip, String.toList_ofList, List.mem_reverse]
  exact mem_dropWhile (List.mem_reverse.mpr (mem_dropWhile h hc)) hc

theorem special_ne_finite (negative : Bool) (cs : List Char) (q : ℚ) :
    special py negative cs ≠ some (.finite q) := by
  unfold special
  dsimp only
  split_ifs <;> simp

/-- A character of a numeral is blank, a digit or one of a few marks. -/
theorem mem_numeral {q : ℚ} (h : decimal py text = some (.finite q)) (hc : c ∈ text.toList)
    (hspace : py.space c = false) (hdigit : py.digit c = none) : c = '_' ∨ c ∈ numberMarks := by
  by_cases hunder : c = '_'
  · exact .inl hunder
  · right
    have hin : c ∈ (strip py text).toList.filter (· ≠ '_') :=
      List.mem_filter.mpr ⟨mem_strip hc hspace, by simpa using hunder⟩
    unfold decimal at h
    dsimp only at h
    split at h
    case h_1 hnumber =>
      rcases mem_sign hin with hrest | hplus | hminus
      · exact mem_number hnumber hrest hdigit
      · rw [hplus]
        decide
      · rw [hminus]
        decide
    case h_2 => exact absurd h (special_ne_finite _ _ q)

/-- The first and the last character of a text are not blank. -/
structure Trimmed (py : Python) (text : String) : Prop where
  first : ∀ c ∈ text.toList.head?, py.space c = false
  last : ∀ c ∈ text.toList.getLast?, py.space c = false

theorem dropWhile_eq_self {p : Char → Bool} (h : ∀ c ∈ cs.head?, p c = false) : cs.dropWhile p = cs := by
  cases cs with
  | nil => rfl
  | cons c cs => rw [List.dropWhile_cons, if_neg (by simp [h c rfl])]

theorem Trimmed.strip_eq (h : Trimmed py text) : strip py text = text := by
  have hlast : ∀ c ∈ text.toList.reverse.head?, py.space c = false := by
    rw [List.head?_reverse]
    exact h.last
  rw [strip, dropWhile_eq_self h.first, dropWhile_eq_self hlast, List.reverse_reverse, String.ofList_toList]

/-- A text without blanks. -/
theorem trimmed_of_forall (h : ∀ c ∈ text.toList, py.space c = false) : Trimmed py text where
  first c hc := h c (List.mem_of_head? hc)
  last c hc := h c (List.mem_of_getLast? hc)

theorem Trimmed.append {text' middle : String} (h : Trimmed py text) (h' : Trimmed py text') (hne : text ≠ "")
    (hne' : text' ≠ "") : Trimmed py (text ++ middle ++ text') := by
  have hchars : text.toList ≠ [] := fun hnil => hne (String.toList_eq_nil_iff.mp hnil)
  have hchars' : text'.toList ≠ [] := fun hnil => hne' (String.toList_eq_nil_iff.mp hnil)
  constructor
  · intro c hc
    rw [String.toList_append, String.toList_append, List.append_assoc, List.head?_append_of_ne_nil _ hchars] at hc
    exact h.first c hc
  · intro c hc
    rw [String.toList_append, List.getLast?_append_of_ne_nil _ hchars'] at hc
    exact h'.last c hc

end Numerals

-- ============================================================================
-- ASCII
-- ============================================================================

theorem isUpper_iff (c : Char) : c.isUpper ↔ 65 ≤ c.toNat ∧ c.toNat ≤ 90 := by
  show decide (c.val ≥ 'A'.val ∧ c.val ≤ 'Z'.val) = true ↔ _
  rw [decide_eq_true_iff, ge_iff_le, UInt32.le_iff_toNat_le, UInt32.le_iff_toNat_le]
  exact Iff.rfl

theorem toUpper_of_isUpper {c : Char} (h : c.isUpper) : c.toUpper = c := by
  have hhigh := ((isUpper_iff c).mp h).2
  refine dif_neg fun hlower => ?_
  have hlow : 97 ≤ c.toNat := UInt32.le_iff_toNat_le.mp hlower.1
  omega

theorem toUpper_cases (c : Char) : c.toUpper = c ∨ c.toUpper.isUpper := by
  unfold Char.toUpper
  split
  case isTrue h =>
    have hlow : 97 ≤ c.val.toNat := UInt32.le_iff_toNat_le.mp h.1
    have hhigh : c.val.toNat ≤ 122 := UInt32.le_iff_toNat_le.mp h.2
    have hval : (c.val + ('A'.val - 'a'.val)).toNat = c.val.toNat - 32 := by
      rw [UInt32.toNat_add, show ('A'.val - 'a'.val).toNat = 2 ^ 32 - 32 by decide]
      omega
    right
    rw [isUpper_iff, Char.toNat, hval]
    omega
  case isFalse => exact .inl rfl

theorem toUpper_toUpper (c : Char) : c.toUpper.toUpper = c.toUpper := by
  rcases toUpper_cases c with hsame | hupper
  · rw [hsame, hsame]
  · exact toUpper_of_isUpper hupper

/-- An upper-case letter is neither blank, nor a quote, nor a backslash. -/
theorem plain_of_isUpper {c : Char} (h : c.isUpper) : ascii.space c = false ∧ ShellWords.PlainChar c := by
  obtain ⟨hlow, hhigh⟩ := (isUpper_iff c).mp h
  have hne : ∀ d : Char, d.toNat < 65 ∨ 90 < d.toNat → c ≠ d := by
    intro d hd heq
    rw [heq] at hlow hhigh
    omega
  refine ⟨?_, ?_, ?_, hne _ (by decide)⟩
  · have hspace : c ≠ ' ' := hne ' ' (by decide)
    simp only [ascii, hspace, false_or, decide_eq_false_iff_not]
    omega
  · have hblank : ∀ d ∈ ShellWords.blanks, d.toNat < 65 := by decide
    exact fun hin => hne c (.inl (hblank c hin)) rfl
  · have hquote : ∀ d ∈ ShellWords.quotes, d.toNat < 65 := by decide
    exact fun hin => hne c (.inl (hquote c hin)) rfl

-- ============================================================================
-- Integers
-- ============================================================================

theorem toNat_of_isDigit {c : Char} (h : c.isDigit) : 48 ≤ c.toNat ∧ c.toNat ≤ 57 := by
  have h : decide (c.val ≥ '0'.val ∧ c.val ≤ '9'.val) = true := by simpa [Char.isDigit] using h
  rw [decide_eq_true_iff, ge_iff_le, UInt32.le_iff_toNat_le, UInt32.le_iff_toNat_le] at h
  exact h

theorem not_space_of_isDigit {c : Char} (h : c.isDigit) : ascii.space c = false := by
  obtain ⟨hlow, hhigh⟩ := toNat_of_isDigit h
  have hspace : c ≠ ' ' := by
    rintro rfl
    exact absurd hlow (by decide)
  simp only [ascii, hspace, false_or, decide_eq_false_iff_not]
  omega

section Integers

variable {py : Python}

theorem Python.Lawful.digit_of_isDigit (hpy : py.Lawful) {c : Char} (h : c.isDigit) :
    py.digit c = some (c.toNat - '0'.toNat) := by
  rw [hpy.digit_ascii c (by have := (toNat_of_isDigit h).2; omega)]
  exact if_pos h

theorem Python.Lawful.space_of_isDigit (hpy : py.Lawful) {c : Char} (h : c.isDigit) : py.space c = false := by
  rw [hpy.space_ascii c (by have := (toNat_of_isDigit h).2; omega)]
  exact not_space_of_isDigit h

/-- Digits are read as they stand. -/
theorem grouped_of_isDigit (hpy : py.Lawful) {cs : List Char} (hne : cs ≠ []) (h : ∀ c ∈ cs, c.isDigit) :
    grouped py cs = some (cs.map fun c => c.toNat - '0'.toNat) := by
  induction cs with
  | nil => exact absurd rfl hne
  | cons c cs ih =>
    have hc := hpy.digit_of_isDigit (h c List.mem_cons_self)
    cases cs with
    | nil =>
      rw [grouped, hc]
      rfl
    | cons d cs =>
      have hunder : d ≠ '_' := by
        rintro rfl
        exact absurd (h '_' (by simp)) (by decide)
      rw [grouped, hc, Option.bind_some, if_neg hunder,
        ih (List.cons_ne_nil d cs) fun e he => h e (List.mem_cons_of_mem c he)]
      rfl

theorem isDigit_toDigits {n : ℕ} {c : Char} (hc : c ∈ Nat.toDigits 10 n) : c.isDigit :=
  Nat.isDigit_of_mem_toDigits (by decide) (by decide) hc

theorem digitsNumber_toDigits (n : ℕ) :
    digitsNumber ((Nat.toDigits 10 n).map fun c => c.toNat - '0'.toNat) = n := by
  rw [digitsNumber, List.foldl_map]
  exact Nat.ofDigitChars_eq_foldl.symm.trans Nat.ofDigitChars_ten_toDigits

theorem sign_of_isDigit {cs : List Char} (h : ∀ c ∈ cs, c.isDigit) : sign cs = (false, cs) := by
  unfold sign
  split
  case h_1 => exact absurd (h '-' List.mem_cons_self) (by decide)
  case h_2 => exact absurd (h '+' List.mem_cons_self) (by decide)
  case h_3 => rfl

theorem toString_int (n : ℤ) :
    (toString n).toList = (if n < 0 then ['-'] else []) ++ Nat.toDigits 10 n.natAbs := by
  change n.repr.toList = _
  rw [Int.repr_eq_if]
  by_cases hneg : n < 0
  · have habs : (-n).toNat = n.natAbs := by omega
    rw [if_neg (by omega), if_pos hneg, String.toList_append, Nat.toList_repr, habs]
    rfl
  · have habs : n.toNat = n.natAbs := by omega
    rw [if_pos (by omega), if_neg hneg, Nat.toList_repr, habs]
    rfl

theorem toDigits_injective {m n : ℕ} (h : Nat.toDigits 10 m = Nat.toDigits 10 n) : m = n := by
  rw [← digitsNumber_toDigits m, h, digitsNumber_toDigits]

/-- Different integers are written differently. -/
theorem toString_int_injective : Function.Injective (toString : ℤ → String) := by
  intro m n h
  have hchars := congrArg String.toList h
  rw [toString_int, toString_int] at hchars
  have hminus (k : ℕ) : '-' ∉ Nat.toDigits 10 k := fun hmem => absurd (isDigit_toDigits hmem) (by decide)
  by_cases hm : m < 0 <;> by_cases hn : n < 0
  · rw [if_pos hm, if_pos hn] at hchars
    have habs := toDigits_injective (List.append_cancel_left hchars)
    omega
  · rw [if_pos hm, if_neg hn, List.nil_append] at hchars
    exact absurd (hchars ▸ List.mem_append_left _ (List.mem_singleton_self '-')) (hminus _)
  · rw [if_neg hm, if_pos hn, List.nil_append] at hchars
    exact absurd (hchars ▸ List.mem_append_left _ (List.mem_singleton_self '-')) (hminus _)
  · rw [if_neg hm, if_neg hn] at hchars
    have habs := toDigits_injective (List.append_cancel_left hchars)
    omega

/-- An integer that can be written is read back. -/
theorem integer_integerText (hpy : py.Lawful) {n : ℤ} {text : String} (h : integerText n = some text) :
    integer py text = some n := by
  unfold integerText at h
  split at h
  case isFalse => cases h
  case isTrue hlength =>
    cases h
    have hspace : ∀ c ∈ (toString n).toList, py.space c = false := by
      intro c hc
      rw [toString_int, List.mem_append] at hc
      rcases hc with hc | hc
      · split_ifs at hc
        · rw [List.mem_singleton.mp hc, hpy.space_ascii '-' (by decide)]
          decide
        · exact absurd hc List.not_mem_nil
      · exact hpy.space_of_isDigit (isDigit_toDigits hc)
    have hsign : sign (toString n).toList = (decide (n < 0), Nat.toDigits 10 n.natAbs) := by
      rw [toString_int]
      split_ifs with hneg
      · rw [decide_eq_true hneg]
        rfl
      · rw [decide_eq_false hneg]
        exact sign_of_isDigit fun _ => isDigit_toDigits
    have hgrouped := grouped_of_isDigit hpy (Nat.toDigits_ne_nil (b := 10) (n := n.natAbs)) fun _ => isDigit_toDigits
    unfold integer
    rw [(trimmed_of_forall hspace).strip_eq, hsign]
    dsimp only
    rw [hgrouped]
    dsimp only
    rw [List.length_map, if_pos hlength, digitsNumber_toDigits]
    by_cases hneg : n < 0
    · rw [if_pos (decide_eq_true hneg)]
      congr 1
      omega
    · rw [if_neg (by simpa using hneg)]
      congr 1
      omega

end Integers

theorem lawful_ascii : ascii.Lawful where
  upper_ascii _ _ := rfl
  lower_ascii _ _ := rfl
  space_ascii _ _ := rfl
  digit_ascii _ _ := rfl
  upper_upper s := by
    have hchars : (s.toList.map Char.toUpper).map Char.toUpper = s.toList.map Char.toUpper := by
      rw [List.map_map]
      exact List.map_congr_left fun c _ => toUpper_toUpper c
    change upper (upper s) = upper s
    unfold upper
    rw [String.toList_ofList, hchars]
  upper_ne_empty _ h := upper_ne_empty h
  upper_new s c hc := by
    have hc : c ∈ s.toList.map Char.toUpper := by rwa [← String.toList_ofList (l := s.toList.map Char.toUpper)]
    obtain ⟨d, hd, rfl⟩ := List.mem_map.mp hc
    rcases toUpper_cases d with hsame | hupper
    · rw [hsame]
      exact .inl hd
    · exact .inr (plain_of_isUpper hupper)

end IbTrader.Data
