/-
  IbTrader.Engine.CommandRoundTrip

  What the parser reads in the text that is made of a request.

  The text is words with a space between, so it is split into them again
  (`spells_cmdText`); the flags of the words set what the fields of the request say
  (`scan_args`), and of that the parser makes the order that was asked for, in upper
  case and on the exchange of its kind (`order_round_trip`).
-/

import IbTrader.Engine.OrderRequests

namespace IbTrader.Engine

open Data Repl Lib

-- ============================================================================
-- Requests and orders
-- ============================================================================

/-- The number that a field has, if any. -/
def decimalOf (py : Python) (value : Option String) : Option Decimal := (given value).bind (decimal py)

/-- The numerals of a request. -/
def OrderRequest.numerals (req : OrderRequest) : List String :=
  req.qty :: [req.price, req.stopPrice, req.profit, req.stopLoss, req.trailPercent,
    req.trailAmount].filterMap given

/-- The texts of a request that go into a command. -/
def OrderRequest.texts (req : OrderRequest) : List String :=
  req.symbol :: req.securityType :: req.numerals ++ [req.expiry, req.tradingClass, req.exchange].filterMap given

/-- A request without blanks, quotes and dashes in front, that has finite positive
    numerals and the prices of its strategy, and leaves the text to be made. -/
structure WellFormed (py : Python) (req : OrderRequest) : Prop where
  unblank : ∀ s ∈ req.texts, ∀ c ∈ s.toList, py.space c = false
  unquoted : ∀ s ∈ req.texts, ∀ c ∈ s.toList, c ∉ ShellWords.quotes
  undashed : ∀ s ∈ req.texts, ¬ "--".toList.isPrefixOf s.toList
  numerals : ∀ s ∈ req.numerals, Numeral py s
  price : given req.price ≠ none ↔ req.orderType = Strategy.limit.value
  stopPrice : given req.stopPrice ≠ none ↔ req.orderType = Strategy.stop.value
  synthesised : given req.originalCmdText = none

/-- An order is the one that a request asks for, but for its kind of contract and an
    exchange that the request leaves open. -/
structure SameFields (py : Python) (req : OrderRequest) (cmd : OrderCommand) : Prop where
  side : py.upper req.side = if cmd.side = .buy then "BUY" else "SELL"
  symbol : cmd.symbol = req.symbol
  qty : cmd.qty = decimal py req.qty
  dollars : cmd.dollars = none
  strategy : cmd.strategy.value = req.orderType
  limitPrice : cmd.limitPrice = decimalOf py req.price
  stopPrice : cmd.stopPrice = decimalOf py req.stopPrice
  trailPercent : cmd.trailPercent = decimalOf py req.trailPercent
  trailAmount : cmd.trailAmount = decimalOf py req.trailAmount
  profitAmount : cmd.profitAmount = decimalOf py req.profit
  takeProfitPrice : cmd.takeProfitPrice = none
  stopLoss : cmd.stopLoss = decimalOf py req.stopLoss
  expiry : cmd.expiry = given req.expiry
  tradingClass : cmd.tradingClass = given req.tradingClass
  exchangeGiven : given req.exchange ≠ none → cmd.exchange = given req.exchange
  botRef : cmd.botRef = given req.botRef

/-- An order is the one that a request asks for. -/
structure SameOrder (py : Python) (req : OrderRequest) (cmd : OrderCommand) : Prop extends SameFields py req cmd where
  securityType : cmd.securityType = req.securityType
  exchange : cmd.exchange = given req.exchange

/-- What the command grammar has room for: a symbol, no backslash, and a trailing stop for
    futures alone and below one half. -/
structure Conveyed (py : Python) (req : OrderRequest) : Prop where
  symbol : req.symbol ≠ ""
  unescaped : ∀ s ∈ req.texts, ShellWords.escape ∉ s.toList
  trail : given req.trail ≠ none → req.secType py = "FUT"
  percent : ∀ q, decimalOf py req.trailPercent = some (.finite q) → q < 50

/-- A request whose symbol says no other kind of contract: what is said to be a stock
    has not the symbol of a future. -/
def Listed (py : Python) (req : OrderRequest) : Prop :=
  req.secType py = "STK" → isFuturesLocalSymbol py (py.upper req.symbol) = false

/-- A request as the engine has it: its symbol and its kind in upper case, the exchange
    of futures, and one trailing stop. -/
def OrderRequest.normalized (py : Python) (req : OrderRequest) : OrderRequest :=
  { req with
    symbol := py.upper req.symbol
    securityType := req.secType py
    exchange := (given req.exchange).or (if req.secType py = "FUT" then some "CME" else none)
    trailAmount := if given req.trailPercent = none then req.trailAmount else none }

-- ============================================================================
-- Words
-- ============================================================================

section Words

variable {py : Python} {req : OrderRequest} {s text v w : String} {value : Option String} {words : List String}

/-- A flag and its value, where it has one. -/
def optional (flag : String) (value : Option String) : List String :=
  match given value with
  | some v => [flag, v]
  | none => []

theorem given_ne_empty (h : given value = some v) : v ≠ "" := by
  simpa using (Option.filter_eq_some_iff.mp h).2

theorem given_given (value : Option String) : given (given value) = given value := by
  cases value with
  | none => rfl
  | some v => by_cases hv : v = "" <;> simp [given, hv]

theorem space_of_mem_blanks (hpy : py.Lawful) {c : Char} (h : c ∈ ShellWords.blanks) : py.space c := by
  have hspace : ∀ c ∈ ShellWords.blanks, c.toNat < 128 ∧ ascii.space c := by decide
  rw [hpy.space_ascii c (hspace c h).1]
  exact (hspace c h).2

/-- A word without blanks, quotes and backslashes. -/
structure Word (py : Python) (s : String) : Prop where
  ne_empty : s ≠ ""
  unblank : ∀ c ∈ s.toList, py.space c = false
  unquoted : ∀ c ∈ s.toList, c ∉ ShellWords.quotes
  unescaped : ShellWords.escape ∉ s.toList

theorem Word.plain (hpy : py.Lawful) (h : Word py s) : ShellWords.Plain s := by
  refine ⟨h.ne_empty, fun c hc => ⟨fun hblank => ?_, h.unquoted c hc, fun heq => h.unescaped (heq ▸ hc)⟩⟩
  have hspace := space_of_mem_blanks hpy hblank
  rw [h.unblank c hc] at hspace
  cases hspace

/-- A word of ASCII. -/
theorem word_of_ascii (hpy : py.Lawful) (hs : isAscii s) (hword : s ≠ "" ∧ ∀ c ∈ s.toList,
    ascii.space c = false ∧ c ∉ ShellWords.quotes ∧ c ≠ ShellWords.escape) : Word py s where
  ne_empty := hword.1
  unblank c hc := by
    rw [hpy.space_ascii c (hs c hc)]
    exact (hword.2 c hc).1
  unquoted c hc := (hword.2 c hc).2.1
  unescaped hin := (hword.2 _ hin).2.2 rfl

/-- A text of some words, as the parser of lines takes it. -/
structure Spells (py : Python) (text : String) (words : List String) : Prop where
  splits : ShellWords.Splits text words
  trimmed : Trimmed py text
  ne_empty : text ≠ ""

theorem spells_word (hpy : py.Lawful) (hw : Word py w) : Spells py w [w] where
  splits := ShellWords.splits_word (hw.plain hpy)
  trimmed := trimmed_of_forall hw.unblank
  ne_empty := hw.ne_empty

theorem Spells.append (hpy : py.Lawful) (h : Spells py text words) (hw : Word py w) :
    Spells py (text ++ " " ++ w) (words ++ [w]) where
  splits := h.splits.append (hw.plain hpy)
  trimmed := h.trimmed.append (trimmed_of_forall hw.unblank) h.ne_empty hw.ne_empty
  ne_empty hnil := hw.ne_empty (String.append_eq_empty_iff.mp hnil).2

theorem Spells.withFlag (hpy : py.Lawful) (h : Spells py text words) {flag : String} (hflag : Word py flag)
    (hvalue : ∀ v, given value = some v → Word py v) :
    Spells py (withFlag text flag value) (words ++ optional flag value) := by
  unfold Engine.withFlag optional
  cases hv : given value with
  | none =>
    rw [List.append_nil]
    exact h
  | some v =>
    have hwords : words ++ [flag, v] = words ++ [flag] ++ [v] := by rw [List.append_assoc]; rfl
    dsimp only
    rw [hwords]
    exact (h.append hpy hflag).append hpy (hvalue v hv)

end Words

section Texts

variable {py : Python} {req : OrderRequest} {s v : String} {value : Option String}

/-- The kind of contract, where the text says it. -/
def OrderRequest.secTypeFlag (py : Python) (req : OrderRequest) : Option String :=
  if req.secType py = "STK" then none else some (req.secType py)

theorem secType_ne_empty (hpy : py.Lawful) (req : OrderRequest) : req.secType py ≠ "" :=
  hpy.upper_ne_empty _ (either_ne_empty (by decide))

theorem given_secTypeFlag (hpy : py.Lawful) (req : OrderRequest) :
    given (req.secTypeFlag py) = req.secTypeFlag py := by
  unfold OrderRequest.secTypeFlag
  split
  case isTrue => rfl
  case isFalse => simp [given, secType_ne_empty hpy req]

/-- The words after the verb. -/
def OrderRequest.args (py : Python) (req : OrderRequest) : List String :=
  [req.symbol, req.qty, req.orderType] ++ (optional "--profit" req.profit ++ (optional "--stop-loss" req.stopLoss ++
    (optional "--price" req.price ++ (optional "--stop-price" req.stopPrice ++
      (optional "--sec-type" (req.secTypeFlag py) ++ (optional "--expiry" req.expiry ++
        (optional "--trading-class" req.tradingClass ++ (optional "--exchange" req.exchange ++
          optional "--trail" req.trail))))))))

/-- The verb of a request. -/
def OrderRequest.verb (py : Python) (req : OrderRequest) : String :=
  if py.upper req.side = "BUY" then "buy" else "sell"

theorem cmdText_eq (hpy : py.Lawful) (req : OrderRequest) : req.cmdText py =
    withFlag (withFlag (withFlag (withFlag (withFlag (withFlag (withFlag (withFlag (withFlag
      (req.verb py ++ " " ++ req.symbol ++ " " ++ req.qty ++ " " ++ req.orderType)
      "--profit" req.profit) "--stop-loss" req.stopLoss) "--price" req.price) "--stop-price" req.stopPrice)
      "--sec-type" (req.secTypeFlag py)) "--expiry" req.expiry) "--trading-class" req.tradingClass)
      "--exchange" req.exchange) "--trail" req.trail := by
  have hkind : ∀ text : String, withFlag text "--sec-type" (req.secTypeFlag py) =
      if req.secType py ≠ "STK" then text ++ " " ++ "--sec-type" ++ " " ++ req.secType py else text := by
    intro text
    rw [withFlag, given_secTypeFlag hpy, OrderRequest.secTypeFlag]
    by_cases hstock : req.secType py = "STK"
    · rw [if_pos hstock, if_neg (not_not_intro hstock)]
    · rw [if_neg hstock, if_pos hstock]
  rw [hkind]
  rfl

theorem mem_numerals (h : given value = some v)
    (hfield : value ∈ [req.price, req.stopPrice, req.profit, req.stopLoss, req.trailPercent, req.trailAmount]) :
    v ∈ req.numerals :=
  List.mem_cons_of_mem _ (List.mem_filterMap.mpr ⟨value, hfield, h⟩)

theorem mem_texts (h : given value = some v) (hfield : value ∈ [req.expiry, req.tradingClass, req.exchange]) :
    v ∈ req.texts :=
  List.mem_append_right _ (List.mem_filterMap.mpr ⟨value, hfield, h⟩)

theorem mem_texts_of_mem_numerals (h : v ∈ req.numerals) : v ∈ req.texts :=
  List.mem_append_left _ (List.mem_cons_of_mem _ (List.mem_cons_of_mem _ h))

theorem word_of_mem_texts (hreq : WellFormed py req) (hconv : Conveyed py req) (h : s ∈ req.texts) (hne : s ≠ "") :
    Word py s where
  ne_empty := hne
  unblank := hreq.unblank s h
  unquoted := hreq.unquoted s h
  unescaped := hconv.unescaped s h

theorem word_of_mem_numerals (hreq : WellFormed py req) (hconv : Conveyed py req) (h : s ∈ req.numerals) :
    Word py s :=
  word_of_mem_texts hreq hconv (mem_texts_of_mem_numerals h) (hreq.numerals s h).ne_empty

theorem word_secType (hpy : py.Lawful) (hreq : WellFormed py req) (hconv : Conveyed py req) :
    Word py (req.secType py) := by
  have hbase : Word py (either req.securityType "STK") := by
    unfold either
    split
    case isTrue => exact word_of_ascii hpy (by decide) (by decide)
    case isFalse hne =>
      exact word_of_mem_texts hreq hconv (List.mem_cons_of_mem _ List.mem_cons_self) hne
  constructor
  case ne_empty => exact secType_ne_empty hpy req
  case unblank =>
    intro c hc
    exact (hpy.upper_new _ c hc).elim (hbase.unblank c) And.left
  case unquoted =>
    intro c hc
    exact (hpy.upper_new _ c hc).elim (hbase.unquoted c) fun h => h.2.2.1
  case unescaped =>
    intro hin
    exact (hpy.upper_new _ _ hin).elim hbase.unescaped fun h => h.2.2.2 rfl

theorem word_trail (hpy : py.Lawful) (hreq : WellFormed py req) (hconv : Conveyed py req)
    (h : given req.trail = some v) : Word py v := by
  unfold OrderRequest.trail at h
  split at h
  case h_1 percent hpercent =>
    have hword := word_of_mem_numerals hreq hconv (mem_numerals hpercent (by simp))
    have hsign : Word py "%" := word_of_ascii hpy (by decide) (by decide)
    obtain rfl : percent ++ "%" = v := Option.some_injective _ (Option.filter_eq_some_iff.mp h).1
    constructor
    case ne_empty => exact given_ne_empty h
    case unblank =>
      intro c hc
      rw [String.toList_append, List.mem_append] at hc
      exact hc.elim (hword.unblank c) (hsign.unblank c)
    case unquoted =>
      intro c hc
      rw [String.toList_append, List.mem_append] at hc
      exact hc.elim (hword.unquoted c) (hsign.unquoted c)
    case unescaped =>
      rw [String.toList_append, List.mem_append]
      exact fun hin => hin.elim hword.unescaped hsign.unescaped
  case h_2 => exact word_of_mem_numerals hreq hconv (mem_numerals h (by simp))

/-- The text is the words of the request. -/
theorem spells_cmdText (hpy : py.Lawful) (hreq : WellFormed py req) (hconv : Conveyed py req)
    (htype : req.orderType ∈ validOrderTypes) :
    Spells py (req.cmdText py) (req.verb py :: req.args py) := by
  have hliteral : ∀ s ∈ ["buy", "sell", "--profit", "--stop-loss", "--price", "--stop-price", "--sec-type",
      "--expiry", "--trading-class", "--exchange", "--trail"] ++ validOrderTypes, Word py s := by
    intro s hs
    have hchars : ∀ s ∈ ["buy", "sell", "--profit", "--stop-loss", "--price", "--stop-price", "--sec-type",
        "--expiry", "--trading-class", "--exchange", "--trail"] ++ validOrderTypes,
        isAscii s ∧ s ≠ "" ∧ ∀ c ∈ s.toList,
          ascii.space c = false ∧ c ∉ ShellWords.quotes ∧ c ≠ ShellWords.escape := by decide
    exact word_of_ascii hpy (hchars s hs).1 (hchars s hs).2
  have hverb : Word py (req.verb py) := by
    unfold OrderRequest.verb
    split
    · exact hliteral _ (by decide)
    · exact hliteral _ (by decide)
  have hnumeral : ∀ value : Option String,
      value ∈ [req.price, req.stopPrice, req.profit, req.stopLoss, req.trailPercent, req.trailAmount] →
      ∀ v, given value = some v → Word py v :=
    fun _ hfield v hv => word_of_mem_numerals hreq hconv (mem_numerals hv hfield)
  have htext : ∀ value : Option String, value ∈ [req.expiry, req.tradingClass, req.exchange] →
      ∀ v, given value = some v → Word py v :=
    fun _ hfield v hv => word_of_mem_texts hreq hconv (mem_texts hv hfield) (given_ne_empty hv)
  have hkind : ∀ v, given (req.secTypeFlag py) = some v → Word py v := by
    intro v hv
    rw [given_secTypeFlag hpy, OrderRequest.secTypeFlag] at hv
    split at hv
    case isTrue => cases hv
    case isFalse =>
      obtain rfl := Option.some_injective _ hv
      exact word_secType hpy hreq hconv
  have hsymbol : Word py req.symbol := word_of_mem_texts hreq hconv List.mem_cons_self hconv.symbol
  have hqty : Word py req.qty := word_of_mem_numerals hreq hconv List.mem_cons_self
  have horder : Word py req.orderType := hliteral _ (List.mem_append_right _ htype)
  have hpositional := (((spells_word hpy hverb).append hpy hsymbol).append hpy hqty).append hpy horder
  have hprices := (((hpositional.withFlag hpy (hliteral "--profit" (by decide)) (hnumeral req.profit (by simp))).withFlag
    hpy (hliteral "--stop-loss" (by decide)) (hnumeral req.stopLoss (by simp))).withFlag
    hpy (hliteral "--price" (by decide)) (hnumeral req.price (by simp))).withFlag
    hpy (hliteral "--stop-price" (by decide)) (hnumeral req.stopPrice (by simp))
  have hcontract := (((hprices.withFlag hpy (hliteral "--sec-type" (by decide)) hkind).withFlag
    hpy (hliteral "--expiry" (by decide)) (htext req.expiry (by simp))).withFlag
    hpy (hliteral "--trading-class" (by decide)) (htext req.tradingClass (by simp))).withFlag
    hpy (hliteral "--exchange" (by decide)) (htext req.exchange (by simp))
  have hall := hcontract.withFlag hpy (hliteral "--trail" (by decide)) fun v hv => word_trail hpy hreq hconv hv
  rw [cmdText_eq hpy]
  simp only [List.append_assoc, List.cons_append, List.nil_append] at hall
  exact hall

end Texts

-- ============================================================================
-- Flags
-- ============================================================================

section Scan

variable {py : Python} {req : OrderRequest} {s v name : String} {value : Option String} {rest : List String}

theorem not_mem_numeral (hpy : py.Lawful) (hword : Word py s) (hs : Numeral py s) {c : Char}
    (hascii : c.toNat < 128) (hc : ascii.digit c = none ∧ c ≠ '_' ∧ c ∉ numberMarks) : c ∉ s.toList := by
  intro hin
  obtain ⟨q, -, hdecimal⟩ := hs.decimal_eq
  have hdigit : py.digit c = none := (hpy.digit_ascii c hascii).trans hc.1
  exact (mem_numeral hdecimal hin (hword.unblank c hin) hdigit).elim hc.2.1 hc.2.2

/-- A numeral is read as its number. -/
theorem parseDecimal_numeral (hpy : py.Lawful) (hword : Word py s) (hs : Numeral py s) {q : ℚ}
    (hq : decimal py s = some (.finite q)) (name : String) : parseDecimal py s name = .ok (.finite q) := by
  have hdollar : startsWith s '$' = false := by
    refine decide_eq_false fun hhead => ?_
    exact not_mem_numeral hpy hword hs (by decide) (by decide) (List.mem_of_head? hhead)
  unfold parseDecimal
  rw [(trimmed_of_forall hword.unblank).strip_eq]
  simp only [hdollar, Bool.false_eq_true, if_false, hq]

/-- A percentage. -/
theorem trailFlag_percent (hpy : py.Lawful) (hword : Word py s) (hs : Numeral py s) {q : ℚ}
    (hq : decimal py s = some (.finite q)) (hpositive : 0 < q) (hhalf : q < 50) (f : Flags) :
    trailFlag py f (s ++ "%") = .ok { f with trailPercent := some (.finite q) } := by
  have htrimmed : Trimmed py (s ++ "%") := by
    refine trimmed_of_forall fun c hc => ?_
    rw [String.toList_append, List.mem_append] at hc
    rcases hc with hc | hc
    · exact hword.unblank c hc
    · rw [List.mem_singleton.mp hc]
      exact hpy.space_ascii '%' (by decide)
  have hlast : endsWith (s ++ "%") '%' = true := by simp [endsWith]
  unfold trailFlag
  rw [htrimmed.strip_eq]
  simp [hlast, parseDecimal_numeral hpy hword hs hq, atMost, atLeast, bind, Except.bind, pure, Except.pure,
    hpositive, hhalf]

/-- An amount. -/
theorem trailFlag_amount (hpy : py.Lawful) (hword : Word py s) (hs : Numeral py s) {q : ℚ}
    (hq : decimal py s = some (.finite q)) (hpositive : 0 < q) (f : Flags) :
    trailFlag py f s = .ok { f with trailAmount := some (.finite q) } := by
  have hlast : endsWith s '%' = false := by
    refine decide_eq_false fun hlast => ?_
    exact not_mem_numeral hpy hword hs (by decide) (by decide) (List.mem_of_getLast? hlast)
  unfold trailFlag
  rw [(trimmed_of_forall hword.unblank).strip_eq]
  simp [hlast, parseDecimal_numeral hpy hword hs hq, atMost, bind, Except.bind, pure, Except.pure, hpositive]

/-- A value after its flag. -/
theorem scan_optional {set : Flags → String → Except Failure Flags} {f f' : Flags} (hflag : flag py name = some set)
    (hset : ∀ v, given value = some v → set f v = .ok f') (hnone : given value = none → f' = f) :
    scan py f (optional name value ++ rest) = scan py f' rest := by
  unfold optional
  cases hv : given value with
  | none =>
    rw [hnone hv, List.nil_append]
  | some v =>
    dsimp only
    rw [List.cons_append, List.cons_append, List.nil_append]
    simp only [scan, hflag, hset v hv, bind, Except.bind]

/-- A decimal after its flag. -/
theorem scan_decimal (hpy : py.Lawful) {set : Flags → Decimal → Flags} (put : Option Decimal → Flags)
    (hflag : flag py name = some (decimalFlag py set name)) (hput : ∀ d, set (put none) d = put (some d))
    (hvalue : ∀ v, given value = some v → Word py v ∧ Numeral py v) :
    scan py (put none) (optional name value ++ rest) = scan py (put (decimalOf py value)) rest := by
  refine scan_optional hflag ?_ ?_
  · intro v hv
    obtain ⟨hword, hnumeral⟩ := hvalue v hv
    obtain ⟨q, -, hq⟩ := hnumeral.decimal_eq
    rw [decimalOf, hv, Option.bind_some, hq, ← hput]
    simp only [decimalFlag, parseDecimal_numeral hpy hword hnumeral hq, bind, Except.bind, pure, Except.pure]
  · intro hv
    rw [decimalOf, hv, Option.bind_none]

/-- A text after its flag. -/
theorem scan_text {set : Flags → String → Flags} (put : Option String → Flags)
    (hflag : flag py name = some fun f v => .ok (set f v)) (hput : ∀ v, set (put none) v = put (some v)) :
    scan py (put none) (optional name value ++ rest) = scan py (put (given value)) rest := by
  refine scan_optional hflag ?_ ?_
  · intro v hv
    rw [hv, hput]
  · intro hv
    rw [hv]

/-- A trailing stop after its flag. -/
theorem scan_trail (hpy : py.Lawful) (put : Option Decimal → Option Decimal → Flags)
    (hpercent : ∀ d, { put none none with trailPercent := some d } = put (some d) none)
    (hamount : ∀ d, { put none none with trailAmount := some d } = put none (some d))
    (hvalue : ∀ v, given req.trailPercent = some v ∨ given req.trailAmount = some v → Word py v ∧ Numeral py v)
    (hhalf : ∀ q, decimalOf py req.trailPercent = some (.finite q) → q < 50) :
    scan py (put none none) (optional "--trail" req.trail ++ rest) =
      scan py (put (decimalOf py req.trailPercent) (decimalOf py (req.normalized py).trailAmount)) rest := by
  have hflag : flag py "--trail" = some (trailFlag py) := by simp [flag]
  cases hpct : given req.trailPercent with
  | some pct =>
    obtain ⟨hword, hnumeral⟩ := hvalue pct (.inl hpct)
    obtain ⟨q, hpositive, hq⟩ := hnumeral.decimal_eq
    have htrail : req.trail = some (pct ++ "%") := by rw [OrderRequest.trail, hpct]
    have hof : decimalOf py req.trailPercent = some (.finite q) := by rw [decimalOf, hpct, Option.bind_some, hq]
    have hamountless : (req.normalized py).trailAmount = none :=
      if_neg (by rw [hpct]; exact Option.some_ne_none pct)
    have hother : decimalOf py (req.normalized py).trailAmount = none := by rw [hamountless]; rfl
    rw [htrail, hof, hother]
    refine scan_optional hflag ?_ ?_
    · intro v hv
      obtain rfl : pct ++ "%" = v := Option.some_injective _ (Option.filter_eq_some_iff.mp hv).1
      rw [trailFlag_percent hpy hword hnumeral hq hpositive (hhalf q hof), hpercent]
    · intro hv
      simp [given] at hv
  | none =>
    have htrail : req.trail = req.trailAmount := by rw [OrderRequest.trail, hpct]
    have hof : decimalOf py req.trailPercent = none := by rw [decimalOf, hpct, Option.bind_none]
    have hother : (req.normalized py).trailAmount = req.trailAmount := if_pos hpct
    rw [htrail, hof, hother]
    refine scan_optional hflag ?_ ?_
    · intro v hv
      obtain ⟨hword, hnumeral⟩ := hvalue v (.inr hv)
      obtain ⟨q, hpositive, hq⟩ := hnumeral.decimal_eq
      rw [trailFlag_amount hpy hword hnumeral hq hpositive, hamount, decimalOf, hv, Option.bind_some, hq]
    · intro hv
      rw [decimalOf, hv, Option.bind_none]

/-- A token that is no flag. -/
theorem scan_positional {tok : String} (htok : ¬ "--".toList.isPrefixOf tok.toList) (f : Flags) :
    scan py f (tok :: rest) = scan py { f with positional := f.positional ++ [tok] } rest := by
  have hflag : flag py tok = none := by
    have hne : ∀ name : String, "--".toList.isPrefixOf name.toList → tok ≠ name := by
      rintro name hname rfl
      exact htok hname
    unfold flag
    rw [if_neg (hne _ (by decide)), if_neg (hne _ (by decide)), if_neg (hne _ (by decide)), if_neg (hne _ (by decide)),
      if_neg (hne _ (by decide)), if_neg (hne _ (by decide)), if_neg (hne _ (by decide)),
      if_neg (not_or_intro (hne _ (by decide)) (hne _ (by decide))), if_neg (hne _ (by decide)),
      if_neg (hne _ (by decide)), if_neg (hne _ (by decide))]
  simp only [scan, hflag, htok, if_false, Bool.false_eq_true]

/-- The flags of the prices. -/
theorem scan_prices (hpy : py.Lawful) (positional : List String)
    (hnumeral : ∀ value ∈ [req.price, req.stopPrice, req.profit, req.stopLoss],
      ∀ v, given value = some v → Word py v ∧ Numeral py v) :
    scan py { positional } (optional "--profit" req.profit ++ (optional "--stop-loss" req.stopLoss ++
      (optional "--price" req.price ++ (optional "--stop-price" req.stopPrice ++ rest)))) =
    scan py { positional, profitAmount := decimalOf py req.profit, stopLoss := decimalOf py req.stopLoss,
              limitPrice := decimalOf py req.price, stopPrice := decimalOf py req.stopPrice } rest := by
  have hprofit : flag py "--profit" =
      some (decimalFlag py (fun f d => { f with profitAmount := some d }) "--profit") := by simp [flag]
  have hstopLoss : flag py "--stop-loss" =
      some (decimalFlag py (fun f d => { f with stopLoss := some d }) "--stop-loss") := by simp [flag]
  have hprice : flag py "--price" =
      some (decimalFlag py (fun f d => { f with limitPrice := some d }) "--price") := by simp [flag]
  have hstopPrice : flag py "--stop-price" =
      some (decimalFlag py (fun f d => { f with stopPrice := some d }) "--stop-price") := by simp [flag]
  refine (scan_decimal hpy (fun d => { positional, profitAmount := d }) hprofit (fun _ => rfl)
    (hnumeral req.profit (by simp))).trans ?_
  refine (scan_decimal hpy (fun d => { positional, profitAmount := decimalOf py req.profit, stopLoss := d })
    hstopLoss (fun _ => rfl) (hnumeral req.stopLoss (by simp))).trans ?_
  refine (scan_decimal hpy (fun d => {
      positional, profitAmount := decimalOf py req.profit,
      stopLoss := decimalOf py req.stopLoss, limitPrice := d })
    hprice (fun _ => rfl) (hnumeral req.price (by simp))).trans ?_
  exact scan_decimal hpy (fun d => {
      positional, profitAmount := decimalOf py req.profit,
      stopLoss := decimalOf py req.stopLoss, limitPrice := decimalOf py req.price, stopPrice := d })
    hstopPrice (fun _ => rfl) (hnumeral req.stopPrice (by simp))

/-- The flags of the contract. -/
theorem scan_contract (f : Flags) (hnone : f.secType = none ∧ f.expiry = none ∧ f.tradingClass = none ∧ f.exchange = none)
    (secType : Option String) :
    scan py f (optional "--sec-type" secType ++ (optional "--expiry" req.expiry ++
      (optional "--trading-class" req.tradingClass ++ (optional "--exchange" req.exchange ++ rest)))) =
    scan py { f with secType := (given secType).map py.upper, expiry := given req.expiry,
                     tradingClass := given req.tradingClass, exchange := given req.exchange } rest := by
  have hsecType : flag py "--sec-type" =
      some fun f value => .ok { f with secType := some (py.upper value) } := by simp [flag]
  have hexpiry : flag py "--expiry" = some fun f value => .ok { f with expiry := some value } := by simp [flag]
  have htradingClass : flag py "--trading-class" =
      some fun f value => .ok { f with tradingClass := some value } := by simp [flag]
  have hexchange : flag py "--exchange" = some fun f value => .ok { f with exchange := some value } := by
    simp [flag]
  have hf : f = { f with secType := none, expiry := none, tradingClass := none, exchange := none } := by
    cases f
    simp_all
  refine (congrArg (scan py · _) hf).trans ?_
  refine (scan_text (fun v => { f with secType := v.map py.upper, expiry := none, tradingClass := none, exchange := none })
    hsecType (fun _ => rfl)).trans ?_
  refine (scan_text (fun v => { f with
      secType := (given secType).map py.upper, expiry := v, tradingClass := none,
      exchange := none }) hexpiry (fun _ => rfl)).trans ?_
  refine (scan_text (fun v => { f with
      secType := (given secType).map py.upper, expiry := given req.expiry,
      tradingClass := v, exchange := none }) htradingClass (fun _ => rfl)).trans ?_
  exact scan_text (fun v => { f with
      secType := (given secType).map py.upper, expiry := given req.expiry,
      tradingClass := given req.tradingClass, exchange := v }) hexchange (fun _ => rfl)

/-- What the flags of a request set. -/
def OrderRequest.flags (py : Python) (req : OrderRequest) : Flags where
  profitAmount := decimalOf py req.profit
  stopLoss := decimalOf py req.stopLoss
  limitPrice := decimalOf py req.price
  stopPrice := decimalOf py req.stopPrice
  secType := (req.secTypeFlag py).map py.upper
  expiry := given req.expiry
  tradingClass := given req.tradingClass
  exchange := given req.exchange
  trailPercent := decimalOf py req.trailPercent
  trailAmount := decimalOf py (req.normalized py).trailAmount
  positional := [req.symbol, req.qty, req.orderType]

/-- The words after the verb set what the request says. -/
theorem scan_args (hpy : py.Lawful) (hreq : WellFormed py req) (hconv : Conveyed py req)
    (htype : req.orderType ∈ validOrderTypes) : scan py {} (req.args py) = .ok (req.flags py) := by
  have hnumeral : ∀ value : Option String,
      value ∈ [req.price, req.stopPrice, req.profit, req.stopLoss, req.trailPercent, req.trailAmount] →
      ∀ v, given value = some v → Word py v ∧ Numeral py v := fun _ hfield v hv =>
    have hin := mem_numerals hv hfield
    ⟨word_of_mem_numerals hreq hconv hin, hreq.numerals v hin⟩
  have hprices : ∀ value ∈ [req.price, req.stopPrice, req.profit, req.stopLoss],
      ∀ v, given value = some v → Word py v ∧ Numeral py v :=
    fun value hfield => hnumeral value (List.mem_append_left [req.trailPercent, req.trailAmount] hfield)
  have htrails : ∀ v, given req.trailPercent = some v ∨ given req.trailAmount = some v → Word py v ∧ Numeral py v :=
    fun v hv => hv.elim (hnumeral req.trailPercent (by simp) v) (hnumeral req.trailAmount (by simp) v)
  have hstrategy : ∀ s ∈ validOrderTypes, ¬ "--".toList.isPrefixOf s.toList := by decide
  have htrail : scan py _ (optional "--trail" req.trail ++ []) = scan py (req.flags py) [] :=
    scan_trail hpy (fun percent amount => { req.flags py with trailPercent := percent, trailAmount := amount })
      (fun _ => rfl) (fun _ => rfl) htrails hconv.percent
  rw [List.append_nil] at htrail
  unfold OrderRequest.args
  rw [List.cons_append, List.cons_append, List.cons_append, List.nil_append,
    scan_positional (hreq.undashed _ List.mem_cons_self),
    scan_positional (hreq.undashed _ (mem_texts_of_mem_numerals List.mem_cons_self)),
    scan_positional (hstrategy _ htype), List.nil_append, List.cons_append, List.nil_append, List.cons_append,
    List.cons_append, List.nil_append, scan_prices hpy _ hprices,
    scan_contract _ ⟨rfl, rfl, rfl, rfl⟩, given_secTypeFlag hpy]
  exact htrail

end Scan

-- ============================================================================
-- Orders
-- ============================================================================

section Assemble

variable {py : Python} {req : OrderRequest} {s : String} {value : Option String} {price : Option Decimal} {priced : Bool}

theorem parsePositive_numeral (hpy : py.Lawful) (hword : Word py s) (hs : Numeral py s) (name : String) :
    ∃ d, decimal py s = some d ∧ parsePositive py s name = .ok d := by
  obtain ⟨q, hpositive, hq⟩ := hs.decimal_eq
  refine ⟨.finite q, hq, ?_⟩
  unfold parsePositive
  simp [parseDecimal_numeral hpy hword hs hq, atMost, bind, Except.bind, pure, Except.pure, hpositive]

/-- A field has a number where it has a numeral. -/
theorem decimalOf_ne_none (hvalue : ∀ v, given value = some v → Numeral py v) :
    decimalOf py value ≠ none ↔ given value ≠ none := by
  cases hv : given value with
  | none =>
    rw [decimalOf, hv, Option.bind_none]
    exact iff_of_false (not_not_intro rfl) (not_not_intro rfl)
  | some v =>
    obtain ⟨q, -, hq⟩ := (hvalue v hv).decimal_eq
    rw [decimalOf, hv, Option.bind_some, hq]
    exact iff_of_true (Option.some_ne_none _) (Option.some_ne_none v)

theorem strategyPrice_eq (hpriced : priced → price ≠ none) (positional : List String) (name missing : String)
    (nextPos : ℕ) : strategyPrice py priced price positional name missing nextPos = .ok (price, nextPos) :=
  if_neg fun h => hpriced h.1 h.2

theorem checkPrice_eq (hpriced : price ≠ none → priced) (onlyValid : String) :
    checkPrice price priced onlyValid = .ok ⟨⟩ :=
  if_neg fun h => by simp [hpriced h.1] at h

theorem checkPositive_eq (hvalue : ∀ v, given value = some v → Numeral py v) (name : String) :
    checkPositive (decimalOf py value) name = .ok ⟨⟩ := by
  cases hv : given value with
  | none =>
    rw [decimalOf, hv, Option.bind_none]
    rfl
  | some v =>
    obtain ⟨q, hpositive, hq⟩ := (hvalue v hv).decimal_eq
    rw [decimalOf, hv, Option.bind_some, hq]
    simp [checkPositive, atMost, bind, Except.bind, pure, Except.pure, hpositive]

theorem ofValue_value (strategy : Strategy) : Strategy.ofValue strategy.value = some strategy := by
  cases strategy <;> decide

theorem lower_value (hpy : py.Lawful) (strategy : Strategy) : py.lower strategy.value = strategy.value := by
  have hlower : isAscii strategy.value ∧ ascii.lower strategy.value = strategy.value := by
    cases strategy <;> decide
  rw [hpy.lower_ascii _ hlower.1, hlower.2]

theorem value_injective {strategy strategy' : Strategy} (h : strategy.value = strategy'.value) :
    strategy = strategy' :=
  Option.some_injective _ ((ofValue_value strategy).symm.trans ((congrArg Strategy.ofValue h).trans (ofValue_value _)))

/-- The kind of contract that is read: no flag says that it is a stock. -/
def OrderRequest.readType (py : Python) (req : OrderRequest) : String :=
  ((req.secTypeFlag py).map py.upper).getD (if isFuturesLocalSymbol py (py.upper req.symbol) then "FUT" else "STK")

theorem readType_eq (hpy : py.Lawful) (h : Listed py req) : req.readType py = req.secType py := by
  unfold OrderRequest.readType OrderRequest.secTypeFlag
  split
  case isTrue hstock =>
    rw [Option.map_none, Option.getD_none, h hstock]
    exact hstock.symm
  case isFalse => exact hpy.upper_upper _

theorem listed_of_fut (h : req.secType py = "FUT") : Listed py req := fun hstock => by
  rw [h] at hstock
  exact absurd hstock (by decide)

/-- The exchange that is read. -/
def OrderRequest.readExchange (py : Python) (req : OrderRequest) : Option String :=
  (given req.exchange).or (if req.readType py = "FUT" then some "CME" else none)

theorem readExchange_given (h : given (req.normalized py).exchange ≠ none) (hpy : py.Lawful) :
    req.readExchange py = given (req.normalized py).exchange := by
  unfold OrderRequest.readExchange OrderRequest.normalized at *
  dsimp only at *
  cases hgiven : given req.exchange with
  | some exchange => rw [Option.some_or, Option.some_or, ← hgiven, given_given]
  | none =>
    rw [hgiven, Option.none_or] at h
    rw [Option.none_or, Option.none_or]
    split at h
    case isTrue hfut =>
      rw [readType_eq hpy (listed_of_fut hfut), if_pos hfut]
      rfl
    case isFalse => exact absurd rfl h

/-- A trailing stop is for futures. -/
theorem trail_fut (hconv : Conveyed py req)
    (h : decimalOf py req.trailPercent ≠ none ∨ decimalOf py (req.normalized py).trailAmount ≠ none) :
    req.secType py = "FUT" := by
  refine hconv.trail fun hnone => ?_
  have hgiven : ∀ {value : Option String}, decimalOf py value ≠ none → given value ≠ none := by
    intro value hd hv
    rw [decimalOf, hv] at hd
    exact hd rfl
  cases hpct : given req.trailPercent with
  | some pct =>
    rw [OrderRequest.trail, hpct] at hnone
    simp [given] at hnone
  | none =>
    rw [OrderRequest.trail, hpct] at hnone
    rw [show (req.normalized py).trailAmount = req.trailAmount from if_pos hpct] at h
    exact h.elim (fun h => hgiven h hpct) fun h => hgiven h hnone

/-- The parser makes the order of what the flags have set. -/
theorem assemble_flags (hpy : py.Lawful) (hreq : WellFormed py req) (hconv : Conveyed py req)
    (strategy : Strategy) (htype : strategy.value = req.orderType) (verb : String) :
    ∃ q, decimal py req.qty = some q ∧ assemble py verb (req.flags py) = .ok {
      side := if verb = "buy" then .buy else .sell
      symbol := py.upper req.symbol
      qty := some q
      dollars := none
      strategy
      profitAmount := decimalOf py req.profit
      takeProfitPrice := none
      stopLoss := decimalOf py req.stopLoss
      limitPrice := decimalOf py req.price
      stopPrice := decimalOf py req.stopPrice
      securityType := req.readType py
      expiry := given req.expiry
      tradingClass := given req.tradingClass
      exchange := req.readExchange py
      trailPercent := decimalOf py req.trailPercent
      trailAmount := decimalOf py (req.normalized py).trailAmount } := by
  have hqty : req.qty ∈ req.numerals := List.mem_cons_self
  obtain ⟨q, hq, hparsed⟩ := parsePositive_numeral hpy (word_of_mem_numerals hreq hconv hqty)
    (hreq.numerals _ hqty) "QTY"
  refine ⟨q, hq, ?_⟩
  have hprice : ∀ v, given req.price = some v → Numeral py v :=
    fun v hv => hreq.numerals v (mem_numerals hv (by simp))
  have hstopPrice : ∀ v, given req.stopPrice = some v → Numeral py v :=
    fun v hv => hreq.numerals v (mem_numerals hv (by simp))
  have hlimit : decimalOf py req.price ≠ none ↔ strategy = .limit := by
    rw [decimalOf_ne_none hprice, hreq.price, ← htype]
    exact ⟨fun h => value_injective h, fun h => congrArg Strategy.value h⟩
  have hstop : decimalOf py req.stopPrice ≠ none ↔ strategy = .stop := by
    rw [decimalOf_ne_none hstopPrice, hreq.stopPrice, ← htype]
    exact ⟨fun h => value_injective h, fun h => congrArg Strategy.value h⟩
  have hstrategy : parseStrategy py [req.symbol, req.qty, req.orderType] = .ok (strategy, 3) := by
    rw [← htype]
    simp [parseStrategy, lower_value hpy, ofValue_value, pure, Except.pure]
  have htrail : ¬ ((decimalOf py req.trailPercent ≠ none ∨ decimalOf py (req.normalized py).trailAmount ≠ none) ∧
      req.readType py ≠ "FUT") := by
    rintro ⟨htrail, hother⟩
    have hfut := trail_fut hconv htrail
    exact hother ((readType_eq hpy (listed_of_fut hfut)).trans hfut)
  have hread : ((req.secTypeFlag py).map py.upper).getD
      (if isFuturesLocalSymbol py (py.upper req.symbol) then "FUT" else "STK") = req.readType py := rfl
  have hlimitPrice : ∀ positional name missing nextPos, strategyPrice py (strategy = .limit) (decimalOf py req.price)
      positional name missing nextPos = .ok (decimalOf py req.price, nextPos) :=
    strategyPrice_eq fun h => hlimit.mpr (of_decide_eq_true h)
  have htrigger : ∀ positional name missing nextPos, strategyPrice py (strategy = .stop) (decimalOf py req.stopPrice)
      positional name missing nextPos = .ok (decimalOf py req.stopPrice, nextPos) :=
    strategyPrice_eq fun h => hstop.mpr (of_decide_eq_true h)
  have hlimitOnly : ∀ onlyValid, checkPrice (decimalOf py req.price) (strategy = .limit) onlyValid = .ok ⟨⟩ :=
    checkPrice_eq fun h => decide_eq_true (hlimit.mp h)
  have hstopOnly : ∀ onlyValid, checkPrice (decimalOf py req.stopPrice) (strategy = .stop) onlyValid = .ok ⟨⟩ :=
    checkPrice_eq fun h => decide_eq_true (hstop.mp h)
  unfold assemble OrderRequest.flags
  simp only [hparsed, hstrategy, hread, given_given, htrail, if_false, bind, Except.bind, pure,
    Except.pure, hlimitPrice, htrigger, hlimitOnly, hstopOnly, checkPositive_eq hprice, checkPositive_eq hstopPrice]
  rfl

end Assemble

-- ============================================================================
-- Round trips
-- ============================================================================

section RoundTrip

variable {py : Python} {req : OrderRequest}

theorem lower_verb (hpy : py.Lawful) {verb : String} (hverb : verb = "buy" ∨ verb = "sell") :
    py.lower verb = verb := by
  have hlower : isAscii verb ∧ ascii.lower verb = verb := by
    rcases hverb with rfl | rfl <;> decide
  rw [hpy.lower_ascii _ hlower.1, hlower.2]

/-- A line of an order. -/
theorem parseCommand_of_spells (hpy : py.Lawful) {text verb : String} {args : List String}
    (htext : Spells py text (verb :: args)) (hverb : verb = "buy" ∨ verb = "sell") :
    parseCommand py text = Parsed.order <$> parseBuySell py verb args := by
  unfold parseCommand
  rw [htext.trimmed.strip_eq]
  simp only [htext.ne_empty, if_false, htext.splits.split, lower_verb hpy hverb]
  rcases hverb with rfl | rfl <;> rfl

/-- The order under the reference of its bot. -/
theorem parsed_order {call : SingleCommand} {cmd : OrderCommand} (hcmd : cmd.botRef = none)
    (h : parseCommand py call.cmdText = .ok (.order cmd)) :
    call.parsed py = .ok (.order { cmd with botRef := given call.botRef }) := by
  unfold SingleCommand.parsed
  rw [h]
  cases given call.botRef with
  | none =>
    have hself : { cmd with botRef := none } = cmd := by rw [← hcmd]
    rw [hself]
    rfl
  | some ref => rfl

/-- A request that is taken has a side and a strategy. -/
theorem placeOrder_eq_ok {call : SingleCommand} (h : placeOrder py req = .ok call) :
    (py.upper req.side = "BUY" ∨ py.upper req.side = "SELL") ∧ req.orderType ∈ validOrderTypes ∧
      call.cmdText = (given req.originalCmdText).getD (req.cmdText py) ∧ call.botRef = req.botRef := by
  unfold placeOrder at h
  split at h
  case isTrue => cases h
  case isFalse hside =>
    split at h
    case isTrue => cases h
    case isFalse htype =>
      cases h
      refine ⟨?_, not_not.mp htype, rfl, rfl⟩
      simpa [validSides] using not_not.mp hside

theorem given_exchange (py : Python) (req : OrderRequest) :
    given (req.normalized py).exchange = (req.normalized py).exchange := by
  unfold OrderRequest.normalized
  dsimp only
  cases hgiven : given req.exchange with
  | none =>
    rw [Option.none_or]
    split <;> rfl
  | some exchange =>
    rw [Option.some_or, ← hgiven, given_given]

/-- The command that the engine reads in the text of a request is the order that the
    request asks for, unless the symbol of a stock reads as a future's: then but for the
    kind of contract and an exchange that was left open. -/
theorem order_round_trip (py : Python) (hpy : py.Lawful) (req : OrderRequest) (call : SingleCommand)
    (hcall : placeOrder py req = .ok call) (hreq : WellFormed py req) (hconv : Conveyed py req) :
    ∃ cmd, call.parsed py = .ok (.order cmd) ∧ SameFields py (req.normalized py) cmd ∧
      (Listed py req → SameOrder py (req.normalized py) cmd) := by
  obtain ⟨hside, htype, htext, hbot⟩ := placeOrder_eq_ok hcall
  obtain ⟨strategy, -, hstrategy⟩ := List.mem_map.mp htype
  have hverb : req.verb py = "buy" ∨ req.verb py = "sell" := by
    unfold OrderRequest.verb
    split
    · exact .inl rfl
    · exact .inr rfl
  obtain ⟨q, hq, hassemble⟩ := assemble_flags hpy hreq hconv strategy hstrategy (req.verb py)
  have hparse := parseCommand_of_spells hpy (spells_cmdText hpy hreq hconv htype) hverb
  rw [hreq.synthesised, Option.getD_none] at htext
  rw [← htext, parseBuySell, scan_args hpy hreq hconv htype] at hparse
  simp only [bind, Except.bind, lower_verb hpy hverb, hassemble] at hparse
  refine ⟨_, parsed_order rfl hparse, ?fields, fun hlisted => ⟨?fields, readType_eq hpy hlisted, ?exchange⟩⟩
  case exchange =>
    rw [given_exchange]
    show req.readExchange py = _
    rw [OrderRequest.readExchange, readType_eq hpy hlisted]
    rfl
  constructor
  case side =>
    change py.upper req.side = _
    unfold OrderRequest.verb
    rcases hside with hbuy | hsell
    · simp [hbuy]
    · simp [hsell]
  case qty => exact hq.symm
  case strategy => exact hstrategy
  case exchangeGiven => exact fun hgiven => readExchange_given hgiven hpy
  case botRef => rw [hbot]; rfl
  all_goals rfl

end RoundTrip

-- ============================================================================
-- A request that makes the round trip and some that do not
-- ============================================================================

section Readings

variable (py : Python) (req : OrderRequest)

instance : Decidable (WellFormed py req) :=
  decidable_of_iff
    ((∀ s ∈ req.texts, ∀ c ∈ s.toList, py.space c = false) ∧
      (∀ s ∈ req.texts, ∀ c ∈ s.toList, c ∉ ShellWords.quotes) ∧
      (∀ s ∈ req.texts, ¬ "--".toList.isPrefixOf s.toList) ∧ (∀ s ∈ req.numerals, Numeral py s) ∧
      (given req.price ≠ none ↔ req.orderType = Strategy.limit.value) ∧
      (given req.stopPrice ≠ none ↔ req.orderType = Strategy.stop.value) ∧ given req.originalCmdText = none)
    ⟨fun ⟨h₁, h₂, h₃, h₄, h₅, h₆, h₇⟩ => ⟨h₁, h₂, h₃, h₄, h₅, h₆, h₇⟩,
      fun ⟨h₁, h₂, h₃, h₄, h₅, h₆, h₇⟩ => ⟨h₁, h₂, h₃, h₄, h₅, h₆, h₇⟩⟩

/-- A limit order for a future with a trailing stop, from a bot. -/
def limitRequest : OrderRequest where
  symbol := "mgcq6"
  side := "Buy"
  qty := "1_0.50e1"
  orderType := "limit"
  price := some "2.5E+3"
  botRef := some "b1"
  profit := some "50."
  securityType := "fut"
  trailPercent := some ".5"

theorem order_round_trip_limit :
    ∃ cmd, (SingleCommand.mk "buy mgcq6 1_0.50e1 limit --profit 50. --price 2.5E+3 --sec-type FUT --trail .5%"
        "bot:b1" (some "b1") none).parsed ascii = .ok (.order cmd) ∧
      SameFields ascii (limitRequest.normalized ascii) cmd ∧
        (Listed ascii limitRequest → SameOrder ascii (limitRequest.normalized ascii) cmd) := by
  refine order_round_trip ascii lawful_ascii limitRequest _ (by decide +kernel) (by decide +kernel) ?_
  constructor
  case symbol => decide
  case unescaped => decide +kernel
  case trail => decide +kernel
  case percent =>
    intro q hq
    have hpercent : decimalOf ascii limitRequest.trailPercent = some (.finite (1 / 2)) := by decide +kernel
    rw [hpercent] at hq
    cases hq
    decide +kernel

/-- The order that a request asks for is what is read in its text. -/
def RoundTrips : Prop :=
  ∀ call, placeOrder py req = .ok call → WellFormed py req →
    ∃ cmd, call.parsed py = .ok (.order cmd) ∧ SameOrder py req cmd

/-- A request is taken and read as another order or as none. -/
def misread : Bool :=
  WellFormed py req &&
    match placeOrder py req with
    | .error _ => false
    | .ok call =>
      match call.parsed py with
      | .ok (.order cmd) =>
        cmd.symbol ≠ req.symbol || cmd.securityType ≠ req.securityType || cmd.exchange ≠ given req.exchange ||
          cmd.trailAmount ≠ decimalOf py req.trailAmount
      | _ => true

variable {py req}

theorem not_roundTrips (h : misread py req) : ¬ RoundTrips py req := by
  unfold misread at h
  rw [Bool.and_eq_true] at h
  obtain ⟨hreq, hother⟩ := h
  intro hround
  split at hother
  case h_1 => cases hother
  case h_2 call hcall =>
    obtain ⟨cmd, hcmd, hsame⟩ := hround call hcall (of_decide_eq_true hreq)
    rw [hcmd] at hother
    simp [hsame.symbol, hsame.securityType, hsame.exchange, hsame.trailAmount] at hother

/-- Requests that the grammar has no room for: a trailing stop for a stock, one of more
    than half, two of them, a symbol and a kind in lower case, a future that leaves its
    exchange open, and symbols with a backslash and without a character. -/
def unconveyed : List OrderRequest :=
  [{ symbol := "AAPL", side := "BUY", qty := "1", trailAmount := some "2" },
    { symbol := "ES", side := "BUY", qty := "1", securityType := "FUT", exchange := some "CME", trailPercent := some "60" },
    { symbol := "ES", side := "BUY", qty := "1", securityType := "FUT", exchange := some "CME", trailPercent := some "1",
      trailAmount := some "2" },
    { symbol := "aapl", side := "BUY", qty := "1" },
    { symbol := "AAPL", side := "BUY", qty := "1", securityType := "etf" },
    { symbol := "ES", side := "BUY", qty := "1", securityType := "FUT" },
    { symbol := "A" ++ String.singleton ShellWords.escape ++ "B", side := "BUY", qty := "1" },
    { symbol := "", side := "BUY", qty := "1" }]

theorem misread_unconveyed : ∀ req ∈ unconveyed, misread ascii req := by decide +kernel

/-- A stock with a trailing stop is taken and its text is refused. -/
theorem order_round_trip_fails : ¬ ∀ py : Python, py.Lawful → ∀ req, RoundTrips py req := fun h =>
  not_roundTrips (misread_unconveyed _ List.mem_cons_self) (h ascii lawful_ascii _)

end Readings

end IbTrader.Engine
