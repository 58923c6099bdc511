/-
  IbTrader.Lib.ShellWords

  How a POSIX shell splits a line into words.

  A word may be quoted in part, and a backslash takes the character after it as it is.
  Words without quotes, blanks and backslashes that are put one after the other with a
  space between are split again into the same words (`Splits.split`).
-/

import Mathlib.Data.List.Basic

namespace IbTrader.Lib.ShellWords

/-- Where the lexer stands. -/
inductive Mode
  | between
  | word
  | quoted (quote : Char)
  | escaped (inside : Option Char)
  deriving DecidableEq, Repr

structure Lexer where
  mode : Mode := .between
  token : List Char := []
  quoted : Bool := false
  words : List String := []
  deriving DecidableEq, Repr

def blanks : List Char := [' ', '\t', '\r', '\n']

/-- What is asked of the characters of a list is decided over the list, not over every
    character. -/
instance decidableForallMemChars (P : Char → Prop) [DecidablePred P] (cs : List Char) : Decidable (∀ c ∈ cs, P c) := List.decidableBAll P cs

/-- The double quote and the single one. -/
def quotes : List Char := [Char.ofNat 34, Char.ofNat 39]

/-- The backslash. -/
def escape : Char := Char.ofNat 92

/-- The word ends. -/
def Lexer.close (l : Lexer) : Lexer where
  words := if l.token ≠ [] ∨ l.quoted then l.words ++ [String.ofList l.token] else l.words

def Lexer.step (l : Lexer) (c : Char) : Lexer :=
  match l.mode with
  | .between =>
    if c ∈ blanks then l
    else if c ∈ quotes then { l with mode := .quoted c, quoted := true }
    else if c = escape then { l with mode := .escaped none }
    else { l with mode := .word, token := [c] }
  | .word =>
    if c ∈ blanks then l.close
    else if c ∈ quotes then { l with mode := .quoted c, quoted := true }
    else if c = escape then { l with mode := .escaped none }
    else { l with token := l.token ++ [c] }
  | .quoted q =>
    if c = q then { l with mode := .word }
    -- only the double quotes let a backslash escape
    else if c = escape ∧ q = Char.ofNat 34 then { l with mode := .escaped (some q) }
    else { l with token := l.token ++ [c] }
  | .escaped none => { l with mode := .word, token := l.token ++ [c] }
  | .escaped (some q) =>
    { l with
      mode := .quoted q
      token := l.token ++ if c = escape ∨ c = q then [c] else [escape, c] }

/-- The words of a text, or what is missing at its end. -/
def split (text : String) : Except String (List String) :=
  let l := text.toList.foldl Lexer.step {}
  match l.mode with
  | .between => .ok l.words
  | .word => .ok l.close.words
  | .quoted _ => .error "No closing quotation"
  | .escaped _ => .error "No escaped character"

-- ============================================================================
-- Plain words
-- ============================================================================

/-- A character that stands for itself. -/
def PlainChar (c : Char) : Prop := c ∉ blanks ∧ c ∉ quotes ∧ c ≠ escape

instance (c : Char) : Decidable (PlainChar c) := inferInstanceAs (Decidable (_ ∧ _ ∧ _))

/-- A word of such characters. -/
def Plain (w : String) : Prop := w ≠ "" ∧ ∀ c ∈ w.toList, PlainChar c

instance (w : String) : Decidable (Plain w) := inferInstanceAs (Decidable (_ ∧ _))

theorem Plain.append {w v : String} (hw : Plain w) (hv : ∀ c ∈ v.toList, PlainChar c) : Plain (w ++ v) := by
  constructor
  · intro h
    exact hw.1 (String.append_eq_empty_iff.mp h).1
  · intro c hc
    rw [String.toList_append, List.mem_append] at hc
    exact hc.elim (hw.2 c) (hv c)

/-- The lexer stands in the last of some words. -/
def Reads (text : String) (before : List String) (last : String) : Prop :=
  last ≠ "" ∧ text.toList.foldl Lexer.step {} = ⟨.word, last.toList, false, before⟩

/-- Plain characters go on with a word. -/
theorem foldl_step_word (cs : List Char) (hcs : ∀ c ∈ cs, PlainChar c) (token : List Char) (words : List String) :
    cs.foldl Lexer.step ⟨.word, token, false, words⟩ = ⟨.word, token ++ cs, false, words⟩ := by
  induction cs generalizing token with
  | nil => rw [List.foldl_nil, List.append_nil]
  | cons c cs ih =>
    obtain ⟨hblank, hquote, hescape⟩ := hcs c List.mem_cons_self
    have hstep : Lexer.step ⟨.word, token, false, words⟩ c = ⟨.word, token ++ [c], false, words⟩ := by
      simp [Lexer.step, hblank, hquote, hescape]
    rw [List.foldl_cons, hstep, ih fun d hd => hcs d (List.mem_cons_of_mem c hd), List.append_assoc,
      List.singleton_append]

/-- A plain word is read as it is. -/
theorem foldl_step_between {w : String} (hw : Plain w) (words : List String) :
    w.toList.foldl Lexer.step ⟨.between, [], false, words⟩ = ⟨.word, w.toList, false, words⟩ := by
  cases hcs : w.toList with
  | nil => exact absurd (String.toList_eq_nil_iff.mp hcs) hw.1
  | cons c cs =>
    have hplain : ∀ d ∈ c :: cs, PlainChar d := fun d hd => hw.2 d (hcs ▸ hd)
    obtain ⟨hblank, hquote, hescape⟩ := hplain c List.mem_cons_self
    have hstep : Lexer.step ⟨.between, [], false, words⟩ c = ⟨.word, [c], false, words⟩ := by
      simp [Lexer.step, hblank, hquote, hescape]
    rw [List.foldl_cons, hstep, foldl_step_word cs fun d hd => hplain d (List.mem_cons_of_mem c hd),
      List.singleton_append]

theorem reads_word {w : String} (hw : Plain w) : Reads w [] w := ⟨hw.1, foldl_step_between hw []⟩

/-- One more word after a space. -/
theorem Reads.append {text last w : String} {before : List String} (h : Reads text before last) (hw : Plain w) :
    Reads (text ++ " " ++ w) (before ++ [last]) w := by
  have hspace : Lexer.step ⟨.word, last.toList, false, before⟩ ' ' = ⟨.between, [], false, before ++ [last]⟩ := by
    have hblank : ' ' ∈ blanks := by decide
    have htoken : last.toList ≠ [] := fun hnil => h.1 (String.toList_eq_nil_iff.mp hnil)
    simp [Lexer.step, Lexer.close, hblank, htoken]
  refine ⟨hw.1, ?_⟩
  rw [String.toList_append, String.toList_append, List.foldl_append, List.foldl_append, h.2,
    show (" ".toList).foldl Lexer.step ⟨.word, last.toList, false, before⟩ = _ from hspace]
  exact foldl_step_between hw _

/-- A text of some words, with a space between. -/
def Splits (text : String) (words : List String) : Prop :=
  ∃ before last, words = before ++ [last] ∧ Reads text before last

theorem splits_word {w : String} (hw : Plain w) : Splits w [w] := ⟨[], w, rfl, reads_word hw⟩

theorem Splits.append {text w : String} {words : List String} (h : Splits text words) (hw : Plain w) :
    Splits (text ++ " " ++ w) (words ++ [w]) := by
  obtain ⟨before, last, rfl, hreads⟩ := h
  exact ⟨before ++ [last], w, rfl, hreads.append hw⟩

/-- The text is split into the words. -/
theorem Splits.split {text : String} {words : List String} (h : Splits text words) :
    split text = .ok words := by
  obtain ⟨before, last, rfl, hreads⟩ := h
  have htoken : last.toList ≠ [] := fun hnil => hreads.1 (String.toList_eq_nil_iff.mp hnil)
  unfold ShellWords.split
  rw [hreads.2]
  simp [Lexer.close, htoken]

end IbTrader.Lib.ShellWords
