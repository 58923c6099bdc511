/-
  IbTrader.Repl.CommandTokens

  The tokens of an order line as flags with their values and positionals, and what
  scanning them leaves.

  A flag takes the token after it, whatever that is.  Scanning returns only if every flag
  is known and has a value that reads (`scan_ok`), and it raises only for a trail that
  reads as a NaN (`scan_raised`).
-/

import IbTrader.Lib.Errors
import IbTrader.Repl.CloseCommand

namespace IbTrader.Repl

open Data Lib Lib.Errors

-- ============================================================================
-- Words
-- ============================================================================

inductive FlagName
  | dollars
  | takeProfitPrice
  | profit
  | trail
  | price
  | stopPrice
  | stopLoss
  | secType
  | expiry
  | tradingClass
  | exchange
  deriving DecidableEq, Repr

/-- The flags of an order. -/
def flagName (tok : String) : Option FlagName :=
  if tok = "--dollars" then some .dollars
  else if tok = "--take-profit-price" then some .takeProfitPrice
  else if tok = "--profit" then some .profit
  else if tok = "--trail" then some .trail
  else if tok = "--price" then some .price
  else if tok = "--stop-price" then some .stopPrice
  else if tok = "--stop-loss" then some .stopLoss
  else if tok = "--sec-type" ∨ tok = "--security-type" then some .secType
  else if tok = "--expiry" then some .expiry
  else if tok = "--trading-class" then some .tradingClass
  else if tok = "--exchange" then some .exchange
  else none

/-- The flag of `close`. -/
def closeFlagName (tok : String) : Option FlagName :=
  if tok = "--take-profit-price" then some .takeProfitPrice else none

/-- The flags with their values, and the positionals. -/
structure Words where
  flags : List (FlagName × String) := []
  positional : List String := []
  deriving DecidableEq, Repr

/-- The words of the tokens after a verb; a token that is no word is passed over. -/
def words (known : String → Option FlagName) : List String → Words
  | [] => {}
  | tok :: rest =>
    match known tok with
    | some name =>
      match rest with
      | [] => {}
      | value :: rest => { words known rest with flags := (name, value) :: (words known rest).flags }
    | none =>
      if "--".toList.isPrefixOf tok.toList then words known rest
      else { words known rest with positional := tok :: (words known rest).positional }

/-- The last value that a flag has. -/
def lastValue (name : FlagName) : List (FlagName × String) → Option String
  | [] => none
  | (n, value) :: rest => (lastValue name rest).or (if n = name then some value else none)

/-- The last value is that of the rest, or of the first where the rest has none. -/
theorem lastValue_cons_eq_some {name n : FlagName} {first value : String} {rest : List (FlagName × String)}
    (h : lastValue name ((n, first) :: rest) = some value) :
    lastValue name rest = some value ∨ lastValue name rest = none ∧ n = name ∧ first = value := by
  rw [lastValue, Option.or_eq_some_iff] at h
  rcases h with h | ⟨hnone, hfirst⟩
  · exact .inl h
  · rw [Option.ite_none_right_eq_some, Option.some.injEq] at hfirst
    exact .inr ⟨hnone, hfirst⟩

theorem lastValue_cons_eq_none {name n : FlagName} {first : String} {rest : List (FlagName × String)}
    (h : lastValue name ((n, first) :: rest) = none) : n ≠ name ∧ lastValue name rest = none := by
  rw [lastValue, Option.or_eq_none_iff] at h
  refine ⟨fun hname => ?_, h.1⟩
  rw [if_pos hname] at h
  exact Option.some_ne_none _ h.2

section Reading

variable (py : Python)

-- ============================================================================
-- Numbers
-- ============================================================================

/-- What `_parse_decimal` reads; none where it reports an error. -/
def amount (value : String) : Option Decimal :=
  let raw := strip py value
  decimal py (if startsWith raw '$' then String.ofList (raw.toList.drop 1) else raw)

/-- A trail is a percentage. -/
def isPercent (value : String) : Bool := endsWith (strip py value) '%'

/-- The number that a value of a flag reads as, if the flag is one of numbers. -/
def amountOf (name : FlagName) (value : String) : Option Decimal :=
  match name with
  | .trail =>
    if isPercent py value then amount py (String.ofList (strip py value).toList.dropLast)
    else amount py (strip py value)
  | .secType | .expiry | .tradingClass | .exchange => none
  | _ => amount py value

/-- The text that it is. -/
def textOf (name : FlagName) (value : String) : String := if name = .secType then py.upper value else value

/-- The number is positive, or positive infinity. -/
def Above : Decimal → Prop
  | .finite q => 0 < q
  | .infinite negative => negative = false
  | .nan => False

variable {py}

theorem Above.positive {d : Decimal} (h : Above d) (hfinite : ∃ q, d = .finite q) : d.positive := by
  obtain ⟨q, rfl⟩ := hfinite
  exact decide_eq_true h

theorem parseDecimal_eq (value name : String) :
    parseDecimal py value name =
      (amount py value).elim (emitError ("'" ++ name ++ "' must be a number, got: " ++ py.repr value)) .ok := by
  unfold parseDecimal amount
  dsimp only
  split
  · rename_i d h
    rw [h, Option.elim_some]
  · rename_i h
    rw [h, Option.elim_none]

theorem parseDecimal_eq_ok {value name : String} {d : Decimal} :
    parseDecimal py value name = .ok d ↔ amount py value = some d := by
  rw [parseDecimal_eq]
  cases amount py value <;> simp [emitError]

theorem parseDecimal_ne_raised (value name : String) : parseDecimal py value name ≠ .error .raised := by
  rw [parseDecimal_eq]
  cases amount py value <;> simp [emitError]

theorem emitError_ne_raised {α : Type} (message : String) : (emitError message : Except Failure α) ≠ .error .raised := by
  simp [emitError]

theorem ok_ne_raised {α : Type} (a : α) : (.ok a : Except Failure α) ≠ .error .raised := by
  simp

theorem emitError_ne_ok {α : Type} (message : String) (a : α) : emitError message ≠ .ok a := by
  simp [emitError]

/-- A comparison that returns is not of a NaN. -/
theorem above_of_atMost {d : Decimal} (h : atMost d 0 = .ok false) : Above d := by
  cases d with
  | finite q => simpa [atMost, Above] using h
  | infinite negative => simpa [atMost, Above] using h
  | nan => simp [atMost] at h

theorem eq_nan_of_atMost {d : Decimal} {q : ℚ} (h : atMost d q = .error .raised) : d = .nan := by
  cases d with
  | finite q => simp [atMost] at h
  | infinite negative => simp [atMost] at h
  | nan => rfl

theorem eq_nan_of_atLeast {d : Decimal} {q : ℚ} (h : atLeast d q = .error .raised) : d = .nan := by
  cases d with
  | finite q => simp [atLeast] at h
  | infinite negative => simp [atLeast] at h
  | nan => rfl

theorem parsePositive_ok {value name : String} {d : Decimal} (h : parsePositive py value name = .ok d) :
    amount py value = some d ∧ Above d := by
  obtain ⟨read, hread, h⟩ := bind_eq_ok.mp h
  obtain ⟨small, hsmall, h⟩ := bind_eq_ok.mp h
  cases small with
  | true => exact absurd h (emitError_ne_ok _ _)
  | false =>
    obtain rfl : read = d := pure_eq_ok.mp h
    exact ⟨parseDecimal_eq_ok.mp hread, above_of_atMost hsmall⟩

theorem parsePositive_raised {value name : String} (h : parsePositive py value name = .error .raised) :
    amount py value = some .nan := by
  rcases bind_eq_error.mp h with h | ⟨read, hread, h⟩
  · exact absurd h (parseDecimal_ne_raised value name)
  rcases bind_eq_error.mp h with h | ⟨small, -, h⟩
  · rw [← eq_nan_of_atMost h]
    exact parseDecimal_eq_ok.mp hread
  · cases small with
    | true => exact absurd h (emitError_ne_raised _)
    | false => exact absurd h (fun h => pure_eq_error.mp h)

-- ============================================================================
-- One flag
-- ============================================================================

/-- What a flag makes of its value. -/
def setFlag (py : Python) (tok : String) : FlagName → Flags → String → Except Failure Flags
  | .dollars => decimalFlag py (fun f d => { f with dollars := some d }) tok
  | .takeProfitPrice => decimalFlag py (fun f d => { f with takeProfitPrice := some d }) tok
  | .profit => decimalFlag py (fun f d => { f with profitAmount := some d }) tok
  | .trail => trailFlag py
  | .price => decimalFlag py (fun f d => { f with limitPrice := some d }) tok
  | .stopPrice => decimalFlag py (fun f d => { f with stopPrice := some d }) tok
  | .stopLoss => decimalFlag py (fun f d => { f with stopLoss := some d }) tok
  | .secType => fun f value => .ok { f with secType := some (py.upper value) }
  | .expiry => fun f value => .ok { f with expiry := some value }
  | .tradingClass => fun f value => .ok { f with tradingClass := some value }
  | .exchange => fun f value => .ok { f with exchange := some value }

theorem flag_eq (py : Python) (tok : String) : flag py tok = (flagName tok).map (setFlag py tok) := by
  unfold flag flagName
  simp only [apply_ite (Option.map (setFlag py tok)), Option.map_some, Option.map_none]
  rfl

/-- What a flag sets: a number, a text, or the two numbers of a trail. -/
inductive Field
  | number (d : Option Decimal)
  | text (s : Option String)
  | trail (percent amount : Option Decimal)

/-- The numbers of a field. -/
def Field.numbers : Field → List Decimal
  | .number d => d.toList
  | .text _ => []
  | .trail percent amount => percent.toList ++ amount.toList

def Flags.field (f : Flags) : FlagName → Field
  | .dollars => .number f.dollars
  | .takeProfitPrice => .number f.takeProfitPrice
  | .profit => .number f.profitAmount
  | .trail => .trail f.trailPercent f.trailAmount
  | .price => .number f.limitPrice
  | .stopPrice => .number f.stopPrice
  | .stopLoss => .number f.stopLoss
  | .secType => .text f.secType
  | .expiry => .text f.expiry
  | .tradingClass => .text f.tradingClass
  | .exchange => .text f.exchange

/-- The field has what the value of the flag reads as. -/
def Holds (py : Python) (name : FlagName) (value : String) : Field → Prop
  | .number d => d.isSome ∧ d = amountOf py name value
  | .text s => s = some (textOf py name value)
  | .trail percent amount =>
    if isPercent py value then percent.isSome ∧ percent = amountOf py name value
    else amount.isSome ∧ amount = amountOf py name value

/-- A flag sets its own field and no other. -/
structure Sets (py : Python) (name : FlagName) (value : String) (f next : Flags) : Prop where
  holds : Holds py name value (next.field name)
  others : ∀ n, n ≠ name → next.field n = f.field n
  numbers : ∀ d ∈ (next.field name).numbers, d ∈ (f.field name).numbers ∨
    amountOf py name value = some d ∧ (name = .trail → Above d)
  positional : next.positional = f.positional

theorem amountOf_trail_of_percent {value : String} (h : isPercent py value) :
    amountOf py .trail value = amount py (String.ofList (strip py value).toList.dropLast) := by
  unfold amountOf
  dsimp only
  rw [if_pos h]

theorem amountOf_trail_of_not_percent {value : String} (h : ¬ isPercent py value) :
    amountOf py .trail value = amount py (strip py value) := by
  unfold amountOf
  dsimp only
  rw [if_neg h]

/-- The flag sets a percentage or an amount, which is positive. -/
theorem trailFlag_ok {f next : Flags} {value : String} (h : trailFlag py f value = .ok next) :
    ∃ d, amountOf py .trail value = some d ∧ Above d ∧
      next = if isPercent py value then { f with trailPercent := some d } else { f with trailAmount := some d } := by
  by_cases hpercent : isPercent py value
  · rw [trailFlag, if_pos (show endsWith (strip py value) '%' from hpercent)] at h
    obtain ⟨pct, hpct, h⟩ := bind_eq_ok.mp h
    obtain ⟨small, hsmall, h⟩ := bind_eq_ok.mp h
    obtain ⟨large, -, h⟩ := bind_eq_ok.mp h
    cases small with
    | true => exact absurd h (emitError_ne_ok _ _)
    | false =>
      cases large with
      | true => exact absurd h (emitError_ne_ok _ _)
      | false =>
        refine ⟨pct, ?_, above_of_atMost hsmall, ?_⟩
        · rw [amountOf_trail_of_percent hpercent]
          exact parseDecimal_eq_ok.mp hpct
        · rw [if_pos hpercent]
          exact (pure_eq_ok.mp h).symm
  · rw [trailFlag, if_neg (show ¬ endsWith (strip py value) '%' from hpercent)] at h
    obtain ⟨amt, hamt, h⟩ := bind_eq_ok.mp h
    obtain ⟨small, hsmall, h⟩ := bind_eq_ok.mp h
    cases small with
    | true => exact absurd h (emitError_ne_ok _ _)
    | false =>
      refine ⟨amt, ?_, above_of_atMost hsmall, ?_⟩
      · rw [amountOf_trail_of_not_percent hpercent]
        exact parseDecimal_eq_ok.mp hamt
      · rw [if_neg hpercent]
        exact (pure_eq_ok.mp h).symm

/-- The flag raises for a NaN alone. -/
theorem trailFlag_raised {f : Flags} {value : String} (h : trailFlag py f value = .error .raised) :
    amountOf py .trail value = some .nan := by
  by_cases hpercent : isPercent py value
  · rw [trailFlag, if_pos (show endsWith (strip py value) '%' from hpercent)] at h
    rw [amountOf_trail_of_percent hpercent]
    rcases bind_eq_error.mp h with h | ⟨pct, hpct, h⟩
    · exact absurd h (parseDecimal_ne_raised _ _)
    rw [parseDecimal_eq_ok.mp hpct, Option.some.injEq]
    rcases bind_eq_error.mp h with h | ⟨small, -, h⟩
    · exact eq_nan_of_atMost h
    rcases bind_eq_error.mp h with h | ⟨large, -, h⟩
    · exact eq_nan_of_atLeast h
    split at h
    · exact absurd h (emitError_ne_raised _)
    · exact absurd h pure_eq_error.mp
  · rw [trailFlag, if_neg (show ¬ endsWith (strip py value) '%' from hpercent)] at h
    rw [amountOf_trail_of_not_percent hpercent]
    rcases bind_eq_error.mp h with h | ⟨amt, hamt, h⟩
    · exact absurd h (parseDecimal_ne_raised _ _)
    rw [parseDecimal_eq_ok.mp hamt, Option.some.injEq]
    rcases bind_eq_error.mp h with h | ⟨small, -, h⟩
    · exact eq_nan_of_atMost h
    split at h
    · exact absurd h (emitError_ne_raised _)
    · exact absurd h pure_eq_error.mp

theorem sets_trail {f next : Flags} {value : String} (h : trailFlag py f value = .ok next) :
    Sets py .trail value f next := by
  obtain ⟨d, hread, habove, hnext⟩ := trailFlag_ok h
  by_cases hpercent : isPercent py value
  · rw [hnext, if_pos hpercent]
    refine ⟨?_, fun n hn => ?_, fun e he => ?_, rfl⟩
    · simp [Flags.field, Holds, hpercent, hread]
    · cases n <;> first | rfl | exact absurd rfl hn
    · rcases List.mem_append.mp he with he | he
      · obtain rfl : e = d := by simpa using he
        exact .inr ⟨hread, fun _ => habove⟩
      · exact .inl (List.mem_append_right _ he)
  · rw [hnext, if_neg hpercent]
    refine ⟨?_, fun n hn => ?_, fun e he => ?_, rfl⟩
    · simp [Flags.field, Holds, hpercent, hread]
    · cases n <;> first | rfl | exact absurd rfl hn
    · rcases List.mem_append.mp he with he | he
      · exact .inl (List.mem_append_left _ he)
      · obtain rfl : e = d := by simpa using he
        exact .inr ⟨hread, fun _ => habove⟩

/-- A flag of a number. -/
theorem sets_number {set : Flags → Decimal → Flags} {tok value : String} {name : FlagName} {f next : Flags}
    (h : decimalFlag py set tok f value = .ok next) (hname : name ≠ .trail) (hread : amountOf py name value = amount py value)
    (hset : ∀ d, (set f d).field name = .number (some d))
    (hothers : ∀ d n, n ≠ name → (set f d).field n = f.field n)
    (hpositional : ∀ d, (set f d).positional = f.positional) : Sets py name value f next := by
  obtain ⟨d, hd, h⟩ := bind_eq_ok.mp h
  obtain rfl := pure_eq_ok.mp h
  have hvalue : amountOf py name value = some d := hread.trans (parseDecimal_eq_ok.mp hd)
  refine ⟨?_, hothers d, fun e he => ?_, hpositional d⟩
  · rw [hset]
    exact ⟨rfl, hvalue.symm⟩
  · rw [hset] at he
    obtain rfl : e = d := by simpa [Field.numbers] using he
    exact .inr ⟨hvalue, fun h => absurd h hname⟩

/-- A flag of a text. -/
theorem sets_text {value : String} {name : FlagName} {f next : Flags}
    (hset : next.field name = .text (some (textOf py name value)))
    (hothers : ∀ n, n ≠ name → next.field n = f.field n) (hpositional : next.positional = f.positional) :
    Sets py name value f next := by
  refine ⟨?_, hothers, fun e he => ?_, hpositional⟩
  · rw [hset]
    exact rfl
  · rw [hset] at he
    exact absurd he List.not_mem_nil

theorem setFlag_sets {tok value : String} {name : FlagName} {f next : Flags} (h : setFlag py tok name f value = .ok next) :
    Sets py name value f next := by
  cases name with
  | trail => exact sets_trail h
  | secType =>
    obtain rfl := Except.ok.inj h
    exact sets_text rfl (fun n hn => by cases n <;> first | rfl | exact absurd rfl hn) rfl
  | expiry =>
    obtain rfl := Except.ok.inj h
    exact sets_text rfl (fun n hn => by cases n <;> first | rfl | exact absurd rfl hn) rfl
  | tradingClass =>
    obtain rfl := Except.ok.inj h
    exact sets_text rfl (fun n hn => by cases n <;> first | rfl | exact absurd rfl hn) rfl
  | exchange =>
    obtain rfl := Except.ok.inj h
    exact sets_text rfl (fun n hn => by cases n <;> first | rfl | exact absurd rfl hn) rfl
  | dollars | takeProfitPrice | profit | price | stopPrice | stopLoss =>
    rw [setFlag] at h
    exact sets_number h (by decide) rfl (fun d => rfl)
      (fun d n hn => by cases n <;> first | rfl | exact absurd rfl hn) (fun d => rfl)

theorem setFlag_raised {tok value : String} {name : FlagName} {f : Flags}
    (h : setFlag py tok name f value = .error .raised) : name = .trail ∧ amountOf py .trail value = some .nan := by
  cases name with
  | trail =>
    rw [setFlag] at h
    exact ⟨rfl, trailFlag_raised h⟩
  | secType | expiry | tradingClass | exchange => exact absurd h (by simp [setFlag])
  | dollars | takeProfitPrice | profit | price | stopPrice | stopLoss =>
    rcases bind_eq_error.mp h with h | ⟨d, -, h⟩
    · exact absurd h (parseDecimal_ne_raised _ _)
    · exact absurd h pure_eq_error.mp

-- ============================================================================
-- Scanning
-- ============================================================================

section Scan

variable {tok value : String} {name : FlagName} {rest : List String}

theorem scan_flag (f : Flags) (h : flagName tok = some name) :
    scan py f (tok :: value :: rest) = setFlag py tok name f value >>= fun next => scan py next rest := by
  rw [scan, flag_eq, h]
  rfl

theorem scan_missing (py : Python) (f : Flags) (h : flagName tok = some name) : ∃ message, scan py f [tok] = emitError message := by
  rw [scan, flag_eq, h]
  exact ⟨_, rfl⟩

theorem scan_unknown (py : Python) (f : Flags) (rest : List String) (h : flagName tok = none)
    (hdashes : "--".toList.isPrefixOf tok.toList) :
    ∃ message, scan py f (tok :: rest) = emitError message := by
  rw [scan, flag_eq, h]
  exact ⟨_, if_pos hdashes⟩

theorem scan_positional (f : Flags) (h : flagName tok = none) (hdashes : ¬ "--".toList.isPrefixOf tok.toList) :
    scan py f (tok :: rest) = scan py { f with positional := f.positional ++ [tok] } rest := by
  rw [scan, flag_eq, h]
  exact if_neg hdashes

end Scan

/-- What scanning leaves: the positionals, in each field the last value of its flag, and
    only numbers that the flags have. -/
structure Scanned (py : Python) (w : Words) (f next : Flags) : Prop where
  positional : next.positional = f.positional ++ w.positional
  holds : ∀ name value, lastValue name w.flags = some value → Holds py name value (next.field name)
  same : ∀ name, lastValue name w.flags = none → next.field name = f.field name
  numbers : ∀ name, ∀ d ∈ (next.field name).numbers, d ∈ (f.field name).numbers ∨
    ∃ value, (name, value) ∈ w.flags ∧ amountOf py name value = some d ∧ (name = .trail → Above d)

theorem Scanned.flag {w : Words} {name : FlagName} {value : String} {f middle next : Flags}
    (h : Scanned py w middle next) (hset : Sets py name value f middle) :
    Scanned py { w with flags := (name, value) :: w.flags } f next where
  positional := by rw [h.positional, hset.positional]
  holds n last hlast := by
    rcases lastValue_cons_eq_some hlast with hrest | ⟨hnone, rfl, rfl⟩
    · exact h.holds n last hrest
    · rw [h.same _ hnone]
      exact hset.holds
  same n hnone := by
    obtain ⟨hne, hrest⟩ := lastValue_cons_eq_none hnone
    rw [h.same n hrest, hset.others n hne.symm]
  numbers n d hd := by
    rcases h.numbers n d hd with hmiddle | ⟨last, hmem, hread⟩
    · by_cases hn : n = name
      · subst hn
        exact (hset.numbers d hmiddle).imp_right fun hread => ⟨value, List.mem_cons_self, hread⟩
      · rw [hset.others n hn] at hmiddle
        exact .inl hmiddle
    · exact .inr ⟨last, List.mem_cons_of_mem _ hmem, hread⟩

/-- A scan that returns. -/
theorem scan_ok {f next : Flags} {args : List String} (h : scan py f args = .ok next) :
    Scanned py (words flagName args) f next := by
  induction args using words.induct flagName generalizing f with
  | case1 =>
    obtain rfl := Except.ok.inj h
    exact ⟨(List.append_nil _).symm, fun _ _ h => absurd h.symm (Option.some_ne_none _), fun _ _ => rfl,
      fun _ _ hd => .inl hd⟩
  | case2 tok name hname =>
    obtain ⟨message, hemit⟩ := scan_missing py f hname
    exact absurd (hemit.symm.trans h) (emitError_ne_ok _ _)
  | case3 tok name hname value rest ih =>
    rw [scan_flag _ hname] at h
    obtain ⟨middle, hset, h⟩ := bind_eq_ok.mp h
    rw [words, hname]
    exact (ih h).flag (setFlag_sets hset)
  | case4 tok rest hname hdashes ih =>
    obtain ⟨message, hemit⟩ := scan_unknown py f rest hname hdashes
    exact absurd (hemit.symm.trans h) (emitError_ne_ok _ _)
  | case5 tok rest hname hdashes ih =>
    rw [scan_positional _ hname hdashes] at h
    have hrest := ih h
    rw [words, hname]
    dsimp only
    rw [if_neg hdashes]
    exact ⟨hrest.positional.trans (List.append_assoc _ _ _), hrest.holds,
      fun n hn => (hrest.same n hn).trans (by cases n <;> rfl),
      fun n d hd => (hrest.numbers n d hd).imp_left fun hd => by cases n <;> exact hd⟩

/-- A scan that raises. -/
theorem scan_raised {f : Flags} {args : List String} (h : scan py f args = .error .raised) :
    ∃ value, (FlagName.trail, value) ∈ (words flagName args).flags ∧ amountOf py .trail value = some .nan := by
  induction args using words.induct flagName generalizing f with
  | case1 => exact absurd h (by simp [scan])
  | case2 tok name hname =>
    obtain ⟨message, hemit⟩ := scan_missing py f hname
    exact absurd (hemit.symm.trans h) (emitError_ne_raised _)
  | case3 tok name hname value rest ih =>
    rw [scan_flag _ hname] at h
    rw [words, hname]
    rcases bind_eq_error.mp h with h | ⟨middle, -, h⟩
    · obtain ⟨rfl, hnan⟩ := setFlag_raised h
      exact ⟨value, List.mem_cons_self, hnan⟩
    · obtain ⟨last, hmem, hnan⟩ := ih h
      exact ⟨last, List.mem_cons_of_mem _ hmem, hnan⟩
  | case4 tok rest hname hdashes ih =>
    obtain ⟨message, hemit⟩ := scan_unknown py f rest hname hdashes
    exact absurd (hemit.symm.trans h) (emitError_ne_raised _)
  | case5 tok rest hname hdashes ih =>
    rw [scan_positional _ hname hdashes] at h
    rw [words, hname]
    dsimp only
    rw [if_neg hdashes]
    exact ih h

-- ============================================================================
-- Scanning for `close`
-- ============================================================================

/-- The flags of `close` as flags of an order. -/
def CloseFlags.toFlags (f : CloseFlags) : Flags :=
  { takeProfitPrice := f.takeProfitPrice, positional := f.positional }

theorem closeFlagName_eq_some {tok : String} {name : FlagName} (h : closeFlagName tok = some name) :
    tok = "--take-profit-price" ∧ name = .takeProfitPrice := by
  unfold closeFlagName at h
  rw [Option.ite_none_right_eq_some, Option.some.injEq] at h
  exact h.imp_right Eq.symm

theorem closeFlagName_eq_none {tok : String} (h : closeFlagName tok = none) : tok ≠ "--take-profit-price" := by
  rintro rfl
  exact absurd h (by decide)

section ScanClose

variable {tok : String} {rest : List String}

theorem scanClose_flag (f : CloseFlags) (value : String) (rest : List String) :
    scanClose py f ("--take-profit-price" :: value :: rest) =
      parseDecimal py value "--take-profit-price" >>= fun d =>
        scanClose py { f with takeProfitPrice := some d } rest := by
  rw [scanClose, if_pos rfl]

theorem scanClose_missing (py : Python) (f : CloseFlags) :
    scanClose py f ["--take-profit-price"] = emitError "--take-profit-price requires a value" := by
  rw [scanClose, if_pos rfl]

theorem scanClose_unknown (py : Python) (f : CloseFlags) (rest : List String) (h : closeFlagName tok = none)
    (hdashes : "--".toList.isPrefixOf tok.toList) :
    scanClose py f (tok :: rest) = emitError ("unknown option " ++ py.repr tok) := by
  cases rest <;> exact (if_neg (closeFlagName_eq_none h)).trans (if_pos hdashes)

theorem scanClose_positional (f : CloseFlags) (h : closeFlagName tok = none)
    (hdashes : ¬ "--".toList.isPrefixOf tok.toList) :
    scanClose py f (tok :: rest) = scanClose py { f with positional := f.positional ++ [tok] } rest := by
  cases rest <;> exact (if_neg (closeFlagName_eq_none h)).trans (if_neg hdashes)

end ScanClose

theorem scanClose_ok {f next : CloseFlags} {args : List String} (h : scanClose py f args = .ok next) :
    Scanned py (words closeFlagName args) f.toFlags next.toFlags := by
  induction args using words.induct closeFlagName generalizing f with
  | case1 =>
    obtain rfl := Except.ok.inj h
    exact ⟨(List.append_nil _).symm, fun _ _ h => absurd h.symm (Option.some_ne_none _), fun _ _ => rfl,
      fun _ _ hd => .inl hd⟩
  | case2 tok name hname =>
    obtain ⟨rfl, rfl⟩ := closeFlagName_eq_some hname
    exact absurd ((scanClose_missing py f).symm.trans h) (emitError_ne_ok _ _)
  | case3 tok name hname value rest ih =>
    obtain ⟨rfl, rfl⟩ := closeFlagName_eq_some hname
    rw [scanClose_flag] at h
    obtain ⟨d, hd, h⟩ := bind_eq_ok.mp h
    have hset : setFlag py "--take-profit-price" .takeProfitPrice f.toFlags value =
        .ok { f with takeProfitPrice := some d : CloseFlags }.toFlags := by
      rw [setFlag, decimalFlag, hd]
      rfl
    rw [words, hname]
    exact (ih h).flag (setFlag_sets hset)
  | case4 tok rest hname hdashes ih =>
    exact absurd ((scanClose_unknown py f rest hname hdashes).symm.trans h) (emitError_ne_ok _ _)
  | case5 tok rest hname hdashes ih =>
    rw [scanClose_positional _ hname hdashes] at h
    have hrest := ih h
    rw [words, hname]
    dsimp only
    rw [if_neg hdashes]
    exact ⟨hrest.positional.trans (List.append_assoc _ _ _), hrest.holds,
      fun n hn => (hrest.same n hn).trans (by cases n <;> rfl),
      fun n d hd => (hrest.numbers n d hd).imp_left fun hd => by cases n <;> exact hd⟩

theorem scanClose_ne_raised {f : CloseFlags} {args : List String} : scanClose py f args ≠ .error .raised := by
  induction args using words.induct closeFlagName generalizing f with
  | case1 => simp [scanClose]
  | case2 tok name hname =>
    obtain ⟨rfl, rfl⟩ := closeFlagName_eq_some hname
    rw [scanClose_missing]
    exact emitError_ne_raised _
  | case3 tok name hname value rest ih =>
    obtain ⟨rfl, rfl⟩ := closeFlagName_eq_some hname
    rw [scanClose_flag]
    intro h
    rcases bind_eq_error.mp h with h | ⟨d, -, h⟩
    · exact parseDecimal_ne_raised _ _ h
    · exact ih h
  | case4 tok rest hname hdashes ih =>
    rw [scanClose_unknown py f rest hname hdashes]
    exact emitError_ne_raised _
  | case5 tok rest hname hdashes ih =>
    rw [scanClose_positional _ hname hdashes]
    exact ih

end Reading

end IbTrader.Repl
