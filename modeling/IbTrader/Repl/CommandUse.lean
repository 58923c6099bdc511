/-
  IbTrader.Repl.CommandUse

  What an accepted order or close command makes of the words of its line.

  A command is accepted only if each part of the parser returns (`assemble_ok`), and each
  part says which word it has read.
-/

import Mathlib.Data.List.ReduceOption
import IbTrader.Repl.CommandTokens

namespace IbTrader.Repl

open Data Lib Lib.Errors

-- ============================================================================
-- Places
-- ============================================================================

/-- What a positional is for; the first of a close command is a symbol or a serial. -/
inductive Place
  | symbol
  | qty
  | strategy
  | limitPrice
  | stopPrice
  | profit
  deriving DecidableEq, Repr

/-- The price that a strategy takes, where no flag has it. -/
def pricePlaces (strategy : Strategy) (limitFlag stopFlag : Bool) : List Place :=
  if strategy = .limit ∧ limitFlag = false then [.limitPrice]
  else if strategy = .stop ∧ stopFlag = false then [.stopPrice]
  else []

/-- The places of an order. -/
def OrderCommand.places (cmd : OrderCommand) (w : Words) : List Place :=
  [.symbol, .qty, .strategy] ++
    pricePlaces cmd.strategy (lastValue .price w.flags).isSome (lastValue .stopPrice w.flags).isSome ++ [.profit]

/-- The places of a close command. -/
def CloseCommand.places (cmd : CloseCommand) : List Place :=
  [.symbol, .strategy] ++ pricePlaces cmd.strategy false false ++ [.profit]

/-- The order has what a positional reads as. -/
def OrderCommand.PlaceHolds (py : Python) (cmd : OrderCommand) (tok : String) : Place → Prop
  | .symbol => cmd.symbol = py.upper tok
  | .qty => cmd.qty.isSome ∧ cmd.qty = amount py tok
  | .strategy => cmd.strategy.value = py.lower tok
  | .limitPrice => cmd.limitPrice.isSome ∧ cmd.limitPrice = amount py tok
  | .stopPrice => cmd.stopPrice.isSome ∧ cmd.stopPrice = amount py tok
  | .profit => cmd.profitAmount.isSome ∧ cmd.profitAmount = amount py tok

def CloseCommand.PlaceHolds (py : Python) (cmd : CloseCommand) (tok : String) : Place → Prop
  | .symbol => cmd.serial.isSome ∧ cmd.serial = integer py tok ∨ cmd.symbol = some (py.upper tok)
  | .qty => False
  | .strategy => cmd.strategy.value = py.lower tok
  | .limitPrice => cmd.limitPrice.isSome ∧ cmd.limitPrice = amount py tok
  | .stopPrice => cmd.stopPrice.isSome ∧ cmd.stopPrice = amount py tok
  | .profit => cmd.profitAmount.isSome ∧ cmd.profitAmount = amount py tok

/-- The fields that the flags set. -/
def OrderCommand.field (cmd : OrderCommand) : FlagName → Field
  | .dollars => .number cmd.dollars
  | .takeProfitPrice => .number cmd.takeProfitPrice
  | .profit => .number cmd.profitAmount
  | .trail => .trail cmd.trailPercent cmd.trailAmount
  | .price => .number cmd.limitPrice
  | .stopPrice => .number cmd.stopPrice
  | .stopLoss => .number cmd.stopLoss
  | .secType => .text (some cmd.securityType)
  | .expiry => .text cmd.expiry
  | .tradingClass => .text cmd.tradingClass
  | .exchange => .text cmd.exchange

/-- The numbers that a command carries. -/
def OrderCommand.numbers (cmd : OrderCommand) : List Decimal :=
  [cmd.qty, cmd.dollars, cmd.profitAmount, cmd.takeProfitPrice, cmd.stopLoss, cmd.limitPrice, cmd.stopPrice,
    cmd.trailPercent, cmd.trailAmount].reduceOption

def CloseCommand.numbers (cmd : CloseCommand) : List Decimal :=
  [cmd.profitAmount, cmd.takeProfitPrice, cmd.limitPrice, cmd.stopPrice].reduceOption

section Use

variable {py : Python}

-- ============================================================================
-- The parts of an order
-- ============================================================================

theorem value_of_ofValue {value : String} {strategy : Strategy} (h : Strategy.ofValue value = some strategy) :
    strategy.value = value := by
  unfold Strategy.ofValue at h
  have hfound := List.find?_some h
  exact of_decide_eq_true hfound

theorem parseStrategy_ok {positional : List String} {strategy : Strategy} {nextPos : ℕ}
    (h : parseStrategy py positional = .ok (strategy, nextPos)) :
    positional[2]? = none ∧ strategy = .smartMarket ∧ nextPos = 2 ∨
      ∃ tok, positional[2]? = some tok ∧ strategy.value = py.lower tok ∧ nextPos = 3 := by
  unfold parseStrategy at h
  cases htok : positional[2]? with
  | none =>
    rw [htok] at h
    obtain ⟨rfl, rfl⟩ := Prod.mk.inj (pure_eq_ok.mp h)
    exact .inl ⟨rfl, rfl, rfl⟩
  | some tok =>
    rw [htok] at h
    dsimp only at h
    split at h
    · rename_i s hs
      obtain ⟨rfl, rfl⟩ := Prod.mk.inj (pure_eq_ok.mp h)
      exact .inr ⟨tok, rfl, value_of_ofValue hs, rfl⟩
    · exact absurd h (emitError_ne_ok _ _)

theorem parseStrategy_ne_raised (positional : List String) : parseStrategy py positional ≠ .error .raised := by
  unfold parseStrategy
  split
  · exact fun h => pure_eq_error.mp h
  · split
    · exact fun h => pure_eq_error.mp h
    · exact emitError_ne_raised _

/-- The price that a strategy takes from the fourth positional, or that a flag has. -/
theorem strategyPrice_ok {priced : Bool} {price p : Option Decimal} {positional : List String} {name missing : String}
    {nextPos next : ℕ} (h : strategyPrice py priced price positional name missing nextPos = .ok (p, next)) :
    (priced ∧ price = none ∧ ∃ tok d, positional[3]? = some tok ∧ amount py tok = some d ∧ Above d ∧
      p = some d ∧ next = 4) ∨
      ¬ (priced ∧ price = none) ∧ p = price ∧ next = nextPos := by
  unfold strategyPrice at h
  split at h
  · rename_i hprice
    cases htok : positional[3]? with
    | none =>
      rw [htok] at h
      exact absurd h (emitError_ne_ok _ _)
    | some tok =>
      rw [htok] at h
      obtain ⟨d, hd, h⟩ := bind_eq_ok.mp h
      obtain ⟨rfl, rfl⟩ := Prod.mk.inj (pure_eq_ok.mp h)
      obtain ⟨hread, habove⟩ := parsePositive_ok hd
      exact .inl ⟨hprice.1, hprice.2, tok, d, rfl, hread, habove, rfl, rfl⟩
  · rename_i hprice
    obtain ⟨rfl, rfl⟩ := Prod.mk.inj (pure_eq_ok.mp h)
    exact .inr ⟨hprice, rfl, rfl⟩

theorem strategyPrice_raised {priced : Bool} {price : Option Decimal} {positional : List String}
    {name missing : String} {nextPos : ℕ}
    (h : strategyPrice py priced price positional name missing nextPos = .error .raised) :
    ∃ tok, positional[3]? = some tok ∧ amount py tok = some .nan := by
  unfold strategyPrice at h
  split at h
  · cases htok : positional[3]? with
    | none =>
      rw [htok] at h
      exact absurd h (emitError_ne_raised _)
    | some tok =>
      rw [htok] at h
      rcases bind_eq_error.mp h with h | ⟨d, -, h⟩
      · exact ⟨tok, rfl, parsePositive_raised h⟩
      · exact absurd h pure_eq_error.mp
  · exact absurd h pure_eq_error.mp

theorem checkPrice_ok {price : Option Decimal} {priced : Bool} {onlyValid : String}
    (h : checkPrice price priced onlyValid = .ok ⟨⟩) (hprice : price.isSome) : priced := by
  unfold checkPrice at h
  split at h
  · exact absurd h (emitError_ne_ok _ _)
  · rename_i hnot
    by_contra hpriced
    exact hnot ⟨Option.isSome_iff_ne_none.mp hprice, by simpa using hpriced⟩

theorem checkPrice_ne_raised (price : Option Decimal) (priced : Bool) (onlyValid : String) :
    checkPrice price priced onlyValid ≠ .error .raised := by
  unfold checkPrice
  split
  · exact emitError_ne_raised _
  · exact fun h => pure_eq_error.mp h

theorem checkPositive_ok {price : Option Decimal} {name : String} (h : checkPositive price name = .ok ⟨⟩) {d : Decimal}
    (hd : price = some d) : Above d := by
  subst hd
  obtain ⟨small, hsmall, h⟩ := bind_eq_ok.mp h
  cases small with
  | true => exact absurd h (emitError_ne_ok _ _)
  | false => exact above_of_atMost hsmall

theorem checkPositive_raised {price : Option Decimal} {name : String} (h : checkPositive price name = .error .raised) :
    price = some .nan := by
  cases price with
  | none => exact absurd h pure_eq_error.mp
  | some d =>
    rcases bind_eq_error.mp h with h | ⟨small, -, h⟩
    · rw [eq_nan_of_atMost h]
    · cases small with
      | true => exact absurd h (emitError_ne_raised _)
      | false => exact absurd h pure_eq_error.mp

-- ============================================================================
-- An order
-- ============================================================================

/-- The quantity, which is not read where there are dollars. -/
def quantityOf (py : Python) (dollars : Option Decimal) (quantity : String) : Except Failure (Option Decimal) :=
  match dollars with
  | none => some <$> parsePositive py quantity "QTY"
  | some _ => pure none

/-- The prices, and the place after them. -/
def pricesOf (py : Python) (verb : String) (f : Flags) (strategy : Strategy) (nextPos : ℕ) :
    Except Failure (Option Decimal × Option Decimal × ℕ) := do
  let (limitPrice, nextPos) ← strategyPrice py (strategy = .limit) f.limitPrice f.positional "LIMIT_PRICE"
    ("'limit' strategy requires a price: " ++ verb ++ " SYMBOL QTY limit PRICE") nextPos
  let (stopPrice, nextPos) ← strategyPrice py (strategy = .stop) f.stopPrice f.positional "STOP_PRICE"
    ("'stop' strategy requires a trigger price: " ++ verb ++ " SYMBOL QTY stop PRICE") nextPos
  checkPrice limitPrice (strategy = .limit) "--price is only valid with the 'limit' strategy"
  checkPrice stopPrice (strategy = .stop) "--stop-price is only valid with the 'stop' strategy"
  checkPositive limitPrice "LIMIT_PRICE"
  checkPositive stopPrice "STOP_PRICE"
  return (limitPrice, stopPrice, nextPos)

/-- A positional profit, or what the flag has. -/
def profitOf (py : Python) (profit : Option Decimal) (value : Option String) : Except Failure (Option Decimal) :=
  match value with
  | none => pure profit
  | some value => some <$> parsePositive py value "PROFIT"

/-- A trail is for futures. -/
def checkTrail (f : Flags) (securityType : String) : Except Failure PUnit :=
  if (f.trailPercent ≠ none ∨ f.trailAmount ≠ none) ∧ securityType ≠ "FUT" then
    emitError ("--trail is FUT-only (IB-simulated STK trailing stops " ++
      "only run during RTH and aren't reliable overnight)")
  else pure ⟨⟩

/-- The type that a flag has, or that the symbol shows. -/
def typeOf (py : Python) (f : Flags) (symbol : String) : String :=
  f.secType.getD (if isFuturesLocalSymbol py (py.upper symbol) then "FUT" else "STK")

/-- The order of what has been read. -/
def orderOf (py : Python) (verb : String) (f : Flags) (symbol : String) (qty : Option Decimal) (strategy : Strategy)
    (limitPrice stopPrice profitAmount : Option Decimal) : OrderCommand where
  side := if verb = "buy" then .buy else .sell
  symbol := py.upper symbol
  qty := qty
  dollars := f.dollars
  strategy := strategy
  profitAmount := profitAmount
  takeProfitPrice := f.takeProfitPrice
  stopLoss := f.stopLoss
  limitPrice := limitPrice
  stopPrice := stopPrice
  securityType := typeOf py f symbol
  expiry := f.expiry
  tradingClass := f.tradingClass
  exchange := (given f.exchange).or (if typeOf py f symbol = "FUT" then some "CME" else none)
  trailPercent := f.trailPercent
  trailAmount := f.trailAmount

theorem pure_some_bind {α β : Type} (x : Except Failure α) (next : Option α → Except Failure β) :
    (x >>= fun a => pure (some a) >>= next) = some <$> x >>= next := by
  cases x <;> rfl

/-- The parser, part by part. -/
theorem assemble_eq {verb symbol quantity : String} {rest : List String} {f : Flags}
    (hpos : f.positional = symbol :: quantity :: rest) :
    assemble py verb f = do
      let qty ← quantityOf py f.dollars quantity
      let (strategy, nextPos) ← parseStrategy py f.positional
      let (limitPrice, stopPrice, nextPos) ← pricesOf py verb f strategy nextPos
      let profitAmount ← profitOf py f.profitAmount f.positional[nextPos]?
      checkTrail f (typeOf py f symbol)
      return orderOf py verb f symbol qty strategy limitPrice stopPrice profitAmount := by
  have hquantity : ∀ next : Option Decimal → Except Failure OrderCommand,
      (match f.dollars with
        | none => parsePositive py quantity "QTY" >>= fun d => pure (some d) >>= next
        | some _ => pure none >>= next) = quantityOf py f.dollars quantity >>= next := by
    intro next
    unfold quantityOf
    cases f.dollars with
    | none => exact pure_some_bind _ next
    | some d => rfl
  have hprofit : ∀ (value : Option String) (next : Option Decimal → Except Failure OrderCommand),
      (match value with
        | none => pure f.profitAmount >>= next
        | some value => parsePositive py value "PROFIT" >>= fun d => pure (some d) >>= next) =
        profitOf py f.profitAmount value >>= next := by
    intro value next
    unfold profitOf
    cases value with
    | none => rfl
    | some value => exact pure_some_bind _ next
  unfold assemble
  rw [hpos]
  dsimp only
  rw [← hpos]
  refine (hquantity _).trans (congrArg (quantityOf py f.dollars quantity >>= ·) (funext fun qty => ?_))
  refine congrArg (parseStrategy py f.positional >>= ·) (funext fun taken => ?_)
  unfold pricesOf
  conv_rhs => simp only [bind_assoc, pure_bind]
  refine congrArg (strategyPrice py _ _ _ _ _ _ >>= ·) (funext fun limit => ?_)
  refine congrArg (strategyPrice py _ _ _ _ _ _ >>= ·) (funext fun stop => ?_)
  refine congrArg (checkPrice _ _ _ >>= ·) (funext fun _ => ?_)
  refine congrArg (checkPrice _ _ _ >>= ·) (funext fun _ => ?_)
  refine congrArg (checkPositive _ _ >>= ·) (funext fun _ => ?_)
  refine congrArg (checkPositive _ _ >>= ·) (funext fun _ => ?_)
  refine (hprofit _ _).trans (congrArg (profitOf py _ _ >>= ·) (funext fun profit => ?_))
  by_cases htrail : (f.trailPercent ≠ none ∨ f.trailAmount ≠ none) ∧ typeOf py f symbol ≠ "FUT"
  · refine (if_pos htrail).trans ?_
    rw [checkTrail, if_pos htrail]
    rfl
  · refine (if_neg htrail).trans ?_
    rw [checkTrail, if_neg htrail]
    rfl

-- ============================================================================
-- What the parts read
-- ============================================================================

theorem quantityOf_ok {dollars qty : Option Decimal} {quantity : String}
    (h : quantityOf py dollars quantity = .ok qty) :
    dollars = none ∧ (∃ d, amount py quantity = some d ∧ Above d ∧ qty = some d) ∨ dollars.isSome ∧ qty = none := by
  cases dollars with
  | none =>
    obtain ⟨d, hd, rfl⟩ := map_eq_ok.mp h
    obtain ⟨hread, habove⟩ := parsePositive_ok hd
    exact .inl ⟨rfl, d, hread, habove, rfl⟩
  | some d => exact .inr ⟨rfl, (pure_eq_ok.mp h).symm⟩

theorem quantityOf_raised {dollars : Option Decimal} {quantity : String}
    (h : quantityOf py dollars quantity = .error .raised) : dollars = none ∧ amount py quantity = some .nan := by
  cases dollars with
  | none => exact ⟨rfl, parsePositive_raised (map_eq_error.mp h)⟩
  | some d => exact absurd h pure_eq_error.mp

theorem profitOf_ok {profit profitAmount : Option Decimal} {value : Option String}
    (h : profitOf py profit value = .ok profitAmount) :
    value = none ∧ profitAmount = profit ∨
      ∃ tok d, value = some tok ∧ amount py tok = some d ∧ Above d ∧ profitAmount = some d := by
  cases value with
  | none => exact .inl ⟨rfl, (pure_eq_ok.mp h).symm⟩
  | some tok =>
    obtain ⟨d, hd, rfl⟩ := map_eq_ok.mp h
    obtain ⟨hread, habove⟩ := parsePositive_ok hd
    exact .inr ⟨tok, d, rfl, hread, habove, rfl⟩

theorem profitOf_raised {profit : Option Decimal} {value : Option String}
    (h : profitOf py profit value = .error .raised) : ∃ tok, value = some tok ∧ amount py tok = some .nan := by
  cases value with
  | none => exact absurd h pure_eq_error.mp
  | some tok => exact ⟨tok, rfl, parsePositive_raised (map_eq_error.mp h)⟩

theorem checkTrail_ne_raised (f : Flags) (securityType : String) : checkTrail f securityType ≠ .error .raised := by
  unfold checkTrail
  split
  · exact emitError_ne_raised _
  · exact fun h => pure_eq_error.mp h

/-- A price that is checked: it is there exactly for its strategy, it is positive, and it
    is the flag's if there is one. -/
structure Priced (py : Python) (positional : List String) (priced : Bool) (price p : Option Decimal) : Prop where
  iff : p.isSome ↔ priced
  above : ∀ d, p = some d → Above d
  flag : price.isSome → p = price
  fourth : priced → price = none → ∃ tok, positional[3]? = some tok ∧ p = amount py tok

theorem priced_of_ok {priced : Bool} {price p : Option Decimal} {positional : List String}
    {name missing onlyValid : String} {nextPos next : ℕ}
    (hprice : strategyPrice py priced price positional name missing nextPos = .ok (p, next))
    (hcheck : checkPrice p priced onlyValid = .ok ⟨⟩) (hpositive : checkPositive p name = .ok ⟨⟩) :
    Priced py positional priced price p := by
  have habove : ∀ d, p = some d → Above d := fun d hd => checkPositive_ok hpositive hd
  rcases strategyPrice_ok hprice with ⟨hpriced, hnone, tok, d, htok, hread, -, rfl, -⟩ | ⟨hnot, rfl, -⟩
  · exact ⟨iff_of_true rfl hpriced, habove, fun hsome => absurd hnone (Option.isSome_iff_ne_none.mp hsome),
      fun _ _ => ⟨tok, htok, hread.symm⟩⟩
  · refine ⟨⟨checkPrice_ok hcheck, fun hpriced => ?_⟩, habove, fun _ => rfl, fun hpriced hnone =>
      absurd ⟨hpriced, hnone⟩ hnot⟩
    exact Option.isSome_iff_ne_none.mpr fun hnone => hnot ⟨hpriced, hnone⟩

/-- The place after the price that a strategy takes. -/
def placeAfter (strategy : Strategy) (f : Flags) (nextPos : ℕ) : ℕ :=
  if pricePlaces strategy f.limitPrice.isSome f.stopPrice.isSome = [] then nextPos else 4

theorem placeAfter_choice (strategy : Strategy) (f : Flags) (nextPos : ℕ) :
    placeAfter strategy f nextPos = nextPos ∨ placeAfter strategy f nextPos = 4 :=
  ite_eq_or_eq _ _ _

theorem pricesOf_ok {verb : String} {f : Flags} {strategy : Strategy} {nextPos next : ℕ}
    {limitPrice stopPrice : Option Decimal}
    (h : pricesOf py verb f strategy nextPos = .ok (limitPrice, stopPrice, next)) :
    Priced py f.positional (strategy = .limit) f.limitPrice limitPrice ∧
      Priced py f.positional (strategy = .stop) f.stopPrice stopPrice ∧ next = placeAfter strategy f nextPos := by
  unfold pricesOf at h
  obtain ⟨⟨limit, next₁⟩, hlimit, h⟩ := bind_eq_ok.mp h
  obtain ⟨⟨stop, next₂⟩, hstop, h⟩ := bind_eq_ok.mp h
  obtain ⟨⟨⟩, honlyLimit, h⟩ := bind_eq_ok.mp h
  obtain ⟨⟨⟩, honlyStop, h⟩ := bind_eq_ok.mp h
  obtain ⟨⟨⟩, hlimitPositive, h⟩ := bind_eq_ok.mp h
  obtain ⟨⟨⟩, hstopPositive, h⟩ := bind_eq_ok.mp h
  obtain ⟨rfl, hrest⟩ := Prod.mk.inj (pure_eq_ok.mp h)
  obtain ⟨rfl, rfl⟩ := Prod.mk.inj hrest
  refine ⟨priced_of_ok hlimit honlyLimit hlimitPositive, priced_of_ok hstop honlyStop hstopPositive, ?_⟩
  unfold placeAfter pricePlaces
  rcases strategyPrice_ok hlimit with ⟨hl, hlnone, -, -, -, -, -, -, rfl⟩ | ⟨hl, -, rfl⟩
  · rcases strategyPrice_ok hstop with ⟨hs, -⟩ | ⟨hs, -, rfl⟩
    · rw [of_decide_eq_true hl] at hs
      exact absurd hs (by decide)
    · simp [of_decide_eq_true hl, hlnone]
  · rcases strategyPrice_ok hstop with ⟨hs, hsnone, -, -, -, -, -, -, rfl⟩ | ⟨hs, -, rfl⟩
    · simp [of_decide_eq_true hs, hsnone]
    · have hlimitNot : ¬ (strategy = .limit ∧ f.limitPrice.isSome = false) :=
        fun h => hl ⟨decide_eq_true h.1, Option.isSome_eq_false_iff.mp h.2 |> Option.isNone_iff_eq_none.mp⟩
      have hstopNot : ¬ (strategy = .stop ∧ f.stopPrice.isSome = false) :=
        fun h => hs ⟨decide_eq_true h.1, Option.isSome_eq_false_iff.mp h.2 |> Option.isNone_iff_eq_none.mp⟩
      rw [if_neg hlimitNot, if_neg hstopNot, if_pos rfl]

/-- A price that is a NaN is the flag's. -/
theorem flag_eq_nan {priced : Bool} {price p : Option Decimal} {positional : List String}
    {name missing checked : String} {nextPos next : ℕ}
    (hprice : strategyPrice py priced price positional name missing nextPos = .ok (p, next))
    (h : checkPositive p checked = .error .raised) : price = some .nan := by
  have hnan := checkPositive_raised h
  rcases strategyPrice_ok hprice with ⟨-, -, tok, d, -, -, habove, rfl, -⟩ | ⟨-, rfl, -⟩
  · rw [Option.some.inj hnan] at habove
    exact habove.elim
  · exact hnan

theorem pricesOf_raised {verb : String} {f : Flags} {strategy : Strategy} {nextPos : ℕ}
    (h : pricesOf py verb f strategy nextPos = .error .raised) :
    (∃ tok, f.positional[3]? = some tok ∧ amount py tok = some .nan) ∨
      f.limitPrice = some .nan ∨ f.stopPrice = some .nan := by
  unfold pricesOf at h
  rcases bind_eq_error.mp h with h | ⟨⟨limit, next₁⟩, hlimit, h⟩
  · exact .inl (strategyPrice_raised h)
  rcases bind_eq_error.mp h with h | ⟨⟨stop, next₂⟩, hstop, h⟩
  · exact .inl (strategyPrice_raised h)
  rcases bind_eq_error.mp h with h | ⟨⟨⟩, -, h⟩
  · exact absurd h (checkPrice_ne_raised _ _ _)
  rcases bind_eq_error.mp h with h | ⟨⟨⟩, -, h⟩
  · exact absurd h (checkPrice_ne_raised _ _ _)
  rcases bind_eq_error.mp h with h | ⟨⟨⟩, -, h⟩
  · exact .inr (.inl (flag_eq_nan hlimit h))
  rcases bind_eq_error.mp h with h | ⟨⟨⟩, -, h⟩
  · exact .inr (.inr (flag_eq_nan hstop h))
  · exact absurd h pure_eq_error.mp

-- ============================================================================
-- The words of an order
-- ============================================================================

/-- The numbers that the values of some flags read as. -/
def flagNumbers (py : Python) (names : List FlagName) (w : Words) : List Decimal :=
  w.flags.filterMap fun item => if item.1 ∈ names then amountOf py item.1 item.2 else none

/-- The numbers that the positionals at some places read as. -/
def placeNumbers (py : Python) (places : List ℕ) (w : Words) : List Decimal :=
  places.filterMap fun i => w.positional[i]?.bind (amount py)

theorem mem_flagNumbers {names : List FlagName} {w : Words} {name : FlagName} {value : String} {d : Decimal}
    (hname : name ∈ names) (hmem : (name, value) ∈ w.flags) (hread : amountOf py name value = some d) :
    d ∈ flagNumbers py names w :=
  List.mem_filterMap.mpr ⟨(name, value), hmem, (if_pos hname).trans hread⟩

theorem mem_placeNumbers {places : List ℕ} {w : Words} {i : ℕ} {tok : String} {d : Decimal} (hi : i ∈ places)
    (htok : w.positional[i]? = some tok) (hread : amount py tok = some d) : d ∈ placeNumbers py places w :=
  List.mem_filterMap.mpr ⟨i, hi, by rw [htok, Option.bind_some, hread]⟩

/-- The numbers of an order that the parser compares; the quantity is none of them where
    there are dollars. -/
def comparedNumbers (py : Python) (w : Words) : List Decimal :=
  flagNumbers py [.trail, .price, .stopPrice] w ++
    placeNumbers py (if (lastValue .dollars w.flags).isSome then [3, 4] else [1, 3, 4]) w

/-- The numbers that it does not. -/
def uncheckedNumbers (py : Python) (w : Words) : List Decimal :=
  flagNumbers py [.dollars, .takeProfitPrice, .profit, .stopLoss] w

/-- What an accepted order makes of its words.

    The quantity is for orders without dollars; a `--profit` beside a positional profit,
    and an exchange that is empty, are not spoken of, nor are a positional without a place
    and the earlier values of a flag. -/
structure OrderUse (py : Python) (w : Words) (cmd : OrderCommand) : Prop where
  limit_iff : cmd.limitPrice.isSome ↔ cmd.strategy = .limit
  stop_iff : cmd.stopPrice.isSome ↔ cmd.strategy = .stop
  numbers : (∀ d ∈ comparedNumbers py w, ∃ q, d = .finite q) → (∀ d ∈ uncheckedNumbers py w, d.positive) →
    ∀ d ∈ cmd.numbers, d.positive
  places : ∀ (i : ℕ) tok place, w.positional[i]? = some tok → (cmd.places w)[i]? = some place →
    (place = .qty → lastValue .dollars w.flags = none) → cmd.PlaceHolds py tok place
  flags : ∀ name value, lastValue name w.flags = some value →
    (name = .profit → w.positional.length < (cmd.places w).length) → (name = .exchange → value ≠ "") →
    Holds py name value (cmd.field name)

theorem Scanned.mem_numbers {w : Words} {f : Flags} {d : Decimal} (h : Scanned py w {} f) (name : FlagName)
    (hd : d ∈ (f.field name).numbers) :
    ∃ value, (name, value) ∈ w.flags ∧ amountOf py name value = some d ∧ (name = .trail → Above d) := by
  refine (h.numbers name d hd).resolve_left fun hstart => ?_
  cases name <;> exact absurd hstart List.not_mem_nil

/-- A number is set exactly if its flag is there. -/
theorem Scanned.isSome_number {w : Words} {f : Flags} {name : FlagName} {d : Option Decimal} (h : Scanned py w {} f)
    (hfield : f.field name = .number d) (hstart : ({} : Flags).field name = .number none) :
    d.isSome = (lastValue name w.flags).isSome := by
  cases hlast : lastValue name w.flags with
  | none =>
    have hsame := h.same name hlast
    rw [hfield, hstart, Field.number.injEq] at hsame
    exact congrArg Option.isSome hsame
  | some value =>
    have hholds := h.holds name value hlast
    rw [hfield] at hholds
    exact hholds.1

/-- What an assembled order has been read from. -/
structure Assembled (py : Python) (f : Flags) (cmd : OrderCommand) : Prop where
  symbol : ∃ tok, f.positional[0]? = some tok ∧ cmd.symbol = py.upper tok
  qty : f.dollars = none ∧ (∃ tok d, f.positional[1]? = some tok ∧ amount py tok = some d ∧ Above d ∧ cmd.qty = some d) ∨
    f.dollars.isSome ∧ cmd.qty = none
  strategy : ∀ tok, f.positional[2]? = some tok → cmd.strategy.value = py.lower tok
  limit : Priced py f.positional (cmd.strategy = .limit) f.limitPrice cmd.limitPrice
  stop : Priced py f.positional (cmd.strategy = .stop) f.stopPrice cmd.stopPrice
  profit : (f.positional[placeAfter cmd.strategy f 3]? = none ∧ cmd.profitAmount = f.profitAmount) ∨
    ∃ tok d, f.positional[placeAfter cmd.strategy f 3]? = some tok ∧ amount py tok = some d ∧ Above d ∧
      cmd.profitAmount = some d
  dollars : cmd.dollars = f.dollars
  takeProfitPrice : cmd.takeProfitPrice = f.takeProfitPrice
  stopLoss : cmd.stopLoss = f.stopLoss
  trailPercent : cmd.trailPercent = f.trailPercent
  trailAmount : cmd.trailAmount = f.trailAmount
  secType : ∀ t, f.secType = some t → cmd.securityType = t
  expiry : cmd.expiry = f.expiry
  tradingClass : cmd.tradingClass = f.tradingClass
  exchange : ∀ t, f.exchange = some t → t ≠ "" → cmd.exchange = some t

theorem positional_of_assemble {verb : String} {f : Flags} {cmd : OrderCommand} (h : assemble py verb f = .ok cmd) :
    ∃ symbol quantity rest, f.positional = symbol :: quantity :: rest := by
  unfold assemble at h
  split at h
  · rename_i symbol quantity rest hpos
    exact ⟨symbol, quantity, rest, hpos⟩
  · exact absurd h (emitError_ne_ok _ _)

theorem assemble_ok {verb : String} {f : Flags} {cmd : OrderCommand} (h : assemble py verb f = .ok cmd) :
    Assembled py f cmd := by
  obtain ⟨symbol, quantity, rest, hpos⟩ := positional_of_assemble h
  rw [assemble_eq hpos] at h
  obtain ⟨qty, hqty, h⟩ := bind_eq_ok.mp h
  obtain ⟨⟨strategy, nextPos⟩, hstrategy, h⟩ := bind_eq_ok.mp h
  obtain ⟨⟨limitPrice, stopPrice, next⟩, hprices, h⟩ := bind_eq_ok.mp h
  obtain ⟨profitAmount, hprofit, h⟩ := bind_eq_ok.mp h
  obtain ⟨⟨⟩, -, h⟩ := bind_eq_ok.mp h
  obtain rfl := pure_eq_ok.mp h
  obtain ⟨hlimit, hstop, rfl⟩ := pricesOf_ok hprices
  have hprofit : (f.positional[placeAfter strategy f 3]? = none ∧ profitAmount = f.profitAmount) ∨
      ∃ tok d, f.positional[placeAfter strategy f 3]? = some tok ∧ amount py tok = some d ∧ Above d ∧
        profitAmount = some d := by
    rcases parseStrategy_ok hstrategy with ⟨hnone, rfl, rfl⟩ | ⟨tok, -, -, rfl⟩
    · have hthird : f.positional[3]? = none := by
        rw [List.getElem?_eq_none_iff] at hnone ⊢
        omega
      rcases profitOf_ok hprofit with ⟨-, hflag⟩ | ⟨tok, d, htok, -⟩
      · exact .inl ⟨hthird, hflag⟩
      · exact absurd (hnone.symm.trans htok) (Option.some_ne_none tok).symm
    · exact profitOf_ok hprofit
  refine {
    symbol := ⟨symbol, by rw [hpos]; rfl, rfl⟩
    qty := ?_
    strategy := fun tok htok => ?_
    limit := hlimit
    stop := hstop
    profit := hprofit
    dollars := rfl
    takeProfitPrice := rfl
    stopLoss := rfl
    trailPercent := rfl
    trailAmount := rfl
    secType := fun t ht => ?_
    expiry := rfl
    tradingClass := rfl
    exchange := fun t ht hne => ?_ }
  · rcases quantityOf_ok hqty with ⟨hnone, d, hread, habove, rfl⟩ | ⟨hsome, rfl⟩
    · exact .inl ⟨hnone, quantity, d, by rw [hpos]; rfl, hread, habove, rfl⟩
    · exact .inr ⟨hsome, rfl⟩
  · rcases parseStrategy_ok hstrategy with ⟨hnone, -⟩ | ⟨tok', htok', hvalue, -⟩
    · exact absurd (hnone.symm.trans htok) (Option.some_ne_none tok).symm
    · obtain rfl := Option.some.inj (htok.symm.trans htok')
      exact hvalue
  · show f.secType.getD _ = t
    rw [ht, Option.getD_some]
  · show (given f.exchange).or _ = some t
    rw [given, ht, Option.filter_some, if_pos (decide_eq_true hne), Option.some_or]

theorem assemble_raised {verb : String} {f : Flags} (h : assemble py verb f = .error .raised) :
    (f.dollars = none ∧ ∃ tok, f.positional[1]? = some tok ∧ amount py tok = some .nan) ∨
      (∃ i tok, (i = 3 ∨ i = 4) ∧ f.positional[i]? = some tok ∧ amount py tok = some .nan) ∨
      f.limitPrice = some .nan ∨ f.stopPrice = some .nan := by
  match hpos : f.positional with
  | [] | [_] =>
    unfold assemble at h
    rw [hpos] at h
    exact absurd h (emitError_ne_raised _)
  | symbol :: quantity :: rest =>
    rw [assemble_eq hpos] at h
    rw [← hpos]
    rcases bind_eq_error.mp h with h | ⟨qty, -, h⟩
    · obtain ⟨hnone, hnan⟩ := quantityOf_raised h
      exact .inl ⟨hnone, quantity, by rw [hpos]; rfl, hnan⟩
    rcases bind_eq_error.mp h with h | ⟨⟨strategy, nextPos⟩, hstrategy, h⟩
    · exact absurd h (parseStrategy_ne_raised _)
    rcases bind_eq_error.mp h with h | ⟨⟨limitPrice, stopPrice, next⟩, hprices, h⟩
    · rcases pricesOf_raised h with ⟨tok, htok, hnan⟩ | hflag
      · exact .inr (.inl ⟨3, tok, .inl rfl, htok, hnan⟩)
      · exact .inr (.inr hflag)
    rcases bind_eq_error.mp h with h | ⟨profitAmount, -, h⟩
    · obtain ⟨tok, htok, hnan⟩ := profitOf_raised h
      obtain ⟨-, -, rfl⟩ := pricesOf_ok hprices
      rcases parseStrategy_ok hstrategy with ⟨hnone, rfl, rfl⟩ | ⟨-, -, -, rfl⟩
      · exact absurd (hnone.symm.trans htok) (Option.some_ne_none tok).symm
      · exact .inr (.inl ⟨_, tok, placeAfter_choice strategy f 3, htok, hnan⟩)
    rcases bind_eq_error.mp h with h | ⟨⟨⟩, -, h⟩
    · exact absurd h (checkTrail_ne_raised _ _)
    · exact absurd h pure_eq_error.mp

-- ============================================================================
-- Orders
-- ============================================================================

theorem Scanned.field_isSome {w : Words} {f : Flags} (h : Scanned py w {} f) :
    f.dollars.isSome = (lastValue .dollars w.flags).isSome ∧ f.limitPrice.isSome = (lastValue .price w.flags).isSome ∧
      f.stopPrice.isSome = (lastValue .stopPrice w.flags).isSome :=
  ⟨h.isSome_number rfl rfl, h.isSome_number rfl rfl, h.isSome_number rfl rfl⟩

theorem Scanned.positional_eq {w : Words} {f : Flags} (h : Scanned py w {} f) : f.positional = w.positional :=
  h.positional

/-- Raising is for a NaN that is compared. -/
theorem parseBuySell_raised {verb : String} {args : List String} (h : parseBuySell py verb args = .error .raised) :
    .nan ∈ comparedNumbers py (words flagName args) := by
  unfold comparedNumbers
  rw [List.mem_append]
  rcases bind_eq_error.mp h with h | ⟨f, hscan, h⟩
  · obtain ⟨value, hmem, hnan⟩ := scan_raised h
    exact .inl (mem_flagNumbers (by decide) hmem hnan)
  have hscanned := scan_ok hscan
  rcases assemble_raised h with ⟨hdollars, tok, htok, hnan⟩ | ⟨i, tok, hi, htok, hnan⟩ | hflag | hflag
  · have hnone : (lastValue .dollars (words flagName args).flags).isSome = false := by
      rw [← hscanned.field_isSome.1, hdollars]
      rfl
    rw [hscanned.positional_eq] at htok
    rw [hnone, if_neg Bool.false_ne_true]
    exact .inr (mem_placeNumbers (by decide) htok hnan)
  · rw [hscanned.positional_eq] at htok
    refine .inr (mem_placeNumbers ?_ htok hnan)
    rcases hi with rfl | rfl
    · split <;> decide
    · split <;> decide
  · obtain ⟨value, hmem, hread, -⟩ := hscanned.mem_numbers .price (Option.mem_toList.mpr hflag)
    exact .inl (mem_flagNumbers (by decide) hmem hread)
  · obtain ⟨value, hmem, hread, -⟩ := hscanned.mem_numbers .stopPrice (Option.mem_toList.mpr hflag)
    exact .inl (mem_flagNumbers (by decide) hmem hread)

/-- There is a place for a price exactly if the strategy takes one and its flag is not
    there. -/
theorem pricePlaces_cases (strategy : Strategy) (limitFlag stopFlag : Bool) :
    pricePlaces strategy limitFlag stopFlag = [] ∨
      ∃ place, pricePlaces strategy limitFlag stopFlag = [place] ∧
        (place = .limitPrice ∧ strategy = .limit ∧ limitFlag = false ∨
          place = .stopPrice ∧ strategy = .stop ∧ stopFlag = false) := by
  unfold pricePlaces
  split
  · rename_i hlimit
    exact .inr ⟨.limitPrice, rfl, .inl ⟨rfl, hlimit⟩⟩
  · split
    · rename_i hstop
      exact .inr ⟨.stopPrice, rfl, .inr ⟨rfl, hstop⟩⟩
    · exact .inl rfl

/-- A price that the fourth positional has. -/
theorem Priced.holds_fourth {positional : List String} {priced : Bool} {price p : Option Decimal} {tok : String}
    (h : Priced py positional priced price p) (hpriced : priced) (hprice : price.isSome = false)
    (htok : positional[3]? = some tok) : p.isSome ∧ p = amount py tok := by
  obtain ⟨tok', htok', hread⟩ := h.fourth hpriced (Option.not_isSome_iff_eq_none.mp (by rw [hprice]; exact Bool.false_ne_true))
  obtain rfl := Option.some.inj (htok.symm.trans htok')
  exact ⟨h.iff.mpr hpriced, hread⟩

/-- Each positional with a place is what the order has there. -/
theorem Assembled.places {w : Words} {f : Flags} {cmd : OrderCommand} (h : Assembled py f cmd)
    (hscanned : Scanned py w {} f) (i : ℕ) (tok : String) (place : Place) (htok : w.positional[i]? = some tok)
    (hplace : (cmd.places w)[i]? = some place) (hqty : place = .qty → lastValue .dollars w.flags = none) :
    cmd.PlaceHolds py tok place := by
  rw [← hscanned.positional_eq] at htok
  obtain ⟨hdollars, hlimitFlag, hstopFlag⟩ := hscanned.field_isSome
  have hprofit : ∀ {j : ℕ}, placeAfter cmd.strategy f 3 = j → f.positional[j]? = some tok →
      cmd.PlaceHolds py tok .profit := by
    rintro j rfl htok
    rcases h.profit with ⟨hnone, -⟩ | ⟨tok', d, htok', hread, -, hcmd⟩
    · exact absurd (hnone.symm.trans htok) (Option.some_ne_none tok).symm
    · obtain rfl := Option.some.inj (htok.symm.trans htok')
      exact ⟨by rw [hcmd]; rfl, hcmd.trans hread.symm⟩
  have hfirst : ∀ {place : Place} {rest : List Place}, (Place.symbol :: .qty :: .strategy :: rest)[i]? = some place →
      i < 3 → (place = .qty → lastValue .dollars w.flags = none) → cmd.PlaceHolds py tok place := by
    intro place rest hplace hi hqty
    match i with
    | 0 =>
      obtain rfl := Option.some.inj hplace
      obtain ⟨tok', htok', hcmd⟩ := h.symbol
      obtain rfl := Option.some.inj (htok.symm.trans htok')
      exact hcmd
    | 1 =>
      obtain rfl := Option.some.inj hplace
      rcases h.qty with ⟨-, tok', d, htok', hread, -, hcmd⟩ | ⟨hsome, -⟩
      · obtain rfl := Option.some.inj (htok.symm.trans htok')
        exact ⟨by rw [hcmd]; rfl, hcmd.trans hread.symm⟩
      · rw [hdollars, hqty rfl] at hsome
        exact absurd hsome Bool.false_ne_true
    | 2 =>
      obtain rfl := Option.some.inj hplace
      exact h.strategy tok htok
    | i + 3 => omega
  unfold OrderCommand.places at hplace
  rw [← hlimitFlag, ← hstopFlag] at hplace
  by_cases hi : i < 3
  · exact hfirst hplace hi hqty
  obtain ⟨j, rfl⟩ : ∃ j, i = j + 3 := ⟨i - 3, by omega⟩
  rcases pricePlaces_cases cmd.strategy f.limitPrice.isSome f.stopPrice.isSome with hnone | ⟨place', hone, hpriced⟩
  · rw [hnone] at hplace
    match j with
    | 0 =>
      obtain rfl := Option.some.inj hplace
      exact hprofit (if_pos hnone) htok
    | j + 1 => exact absurd hplace (by simp)
  · have hfour : placeAfter cmd.strategy f 3 = 4 := if_neg (by rw [hone]; exact List.cons_ne_nil _ _)
    rw [hone] at hplace
    match j with
    | 0 =>
      obtain rfl := Option.some.inj hplace
      rcases hpriced with ⟨rfl, hstrategy, hflag⟩ | ⟨rfl, hstrategy, hflag⟩
      · exact h.limit.holds_fourth (decide_eq_true hstrategy) hflag htok
      · exact h.stop.holds_fourth (decide_eq_true hstrategy) hflag htok
    | 1 =>
      obtain rfl := Option.some.inj hplace
      exact hprofit hfour htok
    | j + 2 => exact absurd hplace (by simp)

/-- The profit's place is the last. -/
theorem places_length {w : Words} {f : Flags} {cmd : OrderCommand} (hscanned : Scanned py w {} f) :
    (cmd.places w).length = placeAfter cmd.strategy f 3 + 1 := by
  obtain ⟨-, hlimitFlag, hstopFlag⟩ := hscanned.field_isSome
  unfold OrderCommand.places placeAfter
  rw [← hlimitFlag, ← hstopFlag]
  rcases pricePlaces_cases cmd.strategy f.limitPrice.isSome f.stopPrice.isSome with hnone | ⟨place, hone, -⟩
  · rw [hnone, if_pos rfl]
    rfl
  · rw [hone, if_neg (List.cons_ne_nil _ _)]
    rfl

/-- Each flag's last value is what the order has. -/
theorem Assembled.flags {w : Words} {f : Flags} {cmd : OrderCommand} (h : Assembled py f cmd)
    (hscanned : Scanned py w {} f) (name : FlagName) (value : String) (hlast : lastValue name w.flags = some value)
    (hprofit : name = .profit → w.positional.length < (cmd.places w).length) (hexchange : name = .exchange → value ≠ "") :
    Holds py name value (cmd.field name) := by
  have hholds := hscanned.holds name value hlast
  obtain ⟨-, hlimitFlag, hstopFlag⟩ := hscanned.field_isSome
  cases name with
  | dollars =>
    rw [OrderCommand.field, h.dollars]
    exact hholds
  | takeProfitPrice =>
    rw [OrderCommand.field, h.takeProfitPrice]
    exact hholds
  | profit =>
    have hnone : f.positional[placeAfter cmd.strategy f 3]? = none := by
      have hlength := hprofit rfl
      rw [places_length hscanned] at hlength
      rw [hscanned.positional_eq, List.getElem?_eq_none_iff]
      omega
    rcases h.profit with ⟨-, hcmd⟩ | ⟨tok, d, htok, -⟩
    · rw [OrderCommand.field, hcmd]
      exact hholds
    · exact absurd (hnone.symm.trans htok) (Option.some_ne_none tok).symm
  | trail =>
    have hfield : cmd.field .trail = f.field .trail := by
      rw [OrderCommand.field, Flags.field, h.trailPercent, h.trailAmount]
    rw [hfield]
    exact hholds
  | price =>
    have hsome : f.limitPrice.isSome := by rw [hlimitFlag, hlast]; rfl
    rw [OrderCommand.field, h.limit.flag hsome]
    exact hholds
  | stopPrice =>
    have hsome : f.stopPrice.isSome := by rw [hstopFlag, hlast]; rfl
    rw [OrderCommand.field, h.stop.flag hsome]
    exact hholds
  | stopLoss =>
    rw [OrderCommand.field, h.stopLoss]
    exact hholds
  | secType => exact congrArg some (h.secType _ hholds)
  | expiry => exact h.expiry.trans hholds
  | tradingClass => exact h.tradingClass.trans hholds
  | exchange => exact h.exchange value hholds (hexchange rfl)

/-- A number of a flag that is compared. -/
theorem Scanned.positive_of_flag {w : Words} {f : Flags} {name : FlagName} {d : Decimal} (h : Scanned py w {} f)
    (hfinite : ∀ d ∈ comparedNumbers py w, ∃ q, d = .finite q) (hname : name ∈ [.trail, .price, .stopPrice])
    (habove : Above d) (hd : d ∈ (f.field name).numbers) : d.positive := by
  obtain ⟨value, hmem, hread, -⟩ := h.mem_numbers name hd
  exact habove.positive (hfinite d (List.mem_append_left _ (mem_flagNumbers hname hmem hread)))

/-- A number of a flag that is not. -/
theorem Scanned.positive_of_unchecked {w : Words} {f : Flags} {name : FlagName} {d : Decimal} (h : Scanned py w {} f)
    (hpositive : ∀ d ∈ uncheckedNumbers py w, d.positive)
    (hname : name ∈ [.dollars, .takeProfitPrice, .profit, .stopLoss]) (hd : d ∈ (f.field name).numbers) :
    d.positive := by
  obtain ⟨value, hmem, hread, -⟩ := h.mem_numbers name hd
  exact hpositive d (mem_flagNumbers hname hmem hread)

/-- A number of one of the last two positionals. -/
theorem Scanned.positive_of_place {w : Words} {f : Flags} {i : ℕ} {tok : String} {d : Decimal} (h : Scanned py w {} f)
    (hfinite : ∀ d ∈ comparedNumbers py w, ∃ q, d = .finite q) (hi : i = 3 ∨ i = 4) (habove : Above d)
    (htok : f.positional[i]? = some tok) (hread : amount py tok = some d) : d.positive := by
  rw [h.positional_eq] at htok
  refine habove.positive (hfinite d (List.mem_append_right _ (mem_placeNumbers ?_ htok hread)))
  rcases hi with rfl | rfl
  · split <;> decide
  · split <;> decide

/-- A price, which is the flag's or that of the fourth positional. -/
theorem Priced.positive {w : Words} {f : Flags} (name : FlagName) {priced : Bool} {price p : Option Decimal}
    {d : Decimal} (h : Priced py f.positional priced price p) (hscanned : Scanned py w {} f)
    (hfinite : ∀ d ∈ comparedNumbers py w, ∃ q, d = .finite q) (hname : name ∈ [.trail, .price, .stopPrice])
    (hfield : f.field name = .number price) (hd : p = some d) : d.positive := by
  have habove := h.above d hd
  by_cases hsome : price.isSome
  · refine hscanned.positive_of_flag hfinite hname habove ?_
    rw [hfield, ← h.flag hsome, hd]
    exact List.mem_singleton_self d
  · have hiff := h.iff.mp (by rw [hd]; rfl)
    obtain ⟨tok, htok, hread⟩ := h.fourth hiff (Option.not_isSome_iff_eq_none.mp hsome)
    exact hscanned.positive_of_place hfinite (.inl rfl) habove htok (hread.symm.trans hd)

/-- The quantity, of an order without dollars. -/
theorem Assembled.positive_qty {w : Words} {f : Flags} {cmd : OrderCommand} {d : Decimal} (h : Assembled py f cmd)
    (hscanned : Scanned py w {} f) (hfinite : ∀ d ∈ comparedNumbers py w, ∃ q, d = .finite q) (hd : cmd.qty = some d) :
    d.positive := by
  rcases h.qty with ⟨hnone, tok, d', htok, hread, habove, hcmd⟩ | ⟨-, hcmd⟩
  · obtain rfl := Option.some.inj (hd.symm.trans hcmd)
    have hdollars : (lastValue .dollars w.flags).isSome = false := by
      rw [← hscanned.field_isSome.1, hnone]
      rfl
    rw [hscanned.positional_eq] at htok
    refine habove.positive (hfinite d (List.mem_append_right _ (mem_placeNumbers ?_ htok hread)))
    rw [hdollars, if_neg Bool.false_ne_true]
    decide
  · exact absurd (hd.symm.trans hcmd) (Option.some_ne_none d)

/-- The numbers of the order are positive if those it is read from are finite, and those
    that are not checked are positive. -/
theorem Assembled.numbers {w : Words} {f : Flags} {cmd : OrderCommand} (h : Assembled py f cmd)
    (hscanned : Scanned py w {} f) (hfinite : ∀ d ∈ comparedNumbers py w, ∃ q, d = .finite q)
    (hpositive : ∀ d ∈ uncheckedNumbers py w, d.positive) : ∀ d ∈ cmd.numbers, d.positive := by
  have htrail : ∀ d ∈ (f.field .trail).numbers, d.positive := by
    intro d hd
    obtain ⟨value, -, -, habove⟩ := hscanned.mem_numbers .trail hd
    exact hscanned.positive_of_flag hfinite (by decide) (habove rfl) hd
  have hunchecked : ∀ {d} name, name ∈ [.dollars, .takeProfitPrice, .profit, .stopLoss] →
      d ∈ (f.field name).numbers → d.positive := fun name => hscanned.positive_of_unchecked hpositive
  intro d hd
  unfold OrderCommand.numbers at hd
  rw [List.reduceOption_mem_iff] at hd
  simp only [List.mem_cons, List.not_mem_nil, or_false] at hd
  rcases hd with hqty | hdollars | hprofit | htarget | hloss | hlimit | hstop | hpercent | hamount
  · exact h.positive_qty hscanned hfinite hqty.symm
  · exact hunchecked .dollars (by decide) (Option.mem_toList.mpr (hdollars.trans h.dollars).symm)
  · rcases h.profit with ⟨-, hcmd⟩ | ⟨tok, d', htok, hread, habove, hcmd⟩
    · exact hunchecked .profit (by decide) (Option.mem_toList.mpr (hprofit.trans hcmd).symm)
    · obtain rfl := Option.some.inj (hprofit.trans hcmd)
      exact hscanned.positive_of_place hfinite (placeAfter_choice cmd.strategy f 3) habove htok hread
  · exact hunchecked .takeProfitPrice (by decide) (Option.mem_toList.mpr (htarget.trans h.takeProfitPrice).symm)
  · exact hunchecked .stopLoss (by decide) (Option.mem_toList.mpr (hloss.trans h.stopLoss).symm)
  · exact h.limit.positive .price hscanned hfinite (by decide) rfl hlimit.symm
  · exact h.stop.positive .stopPrice hscanned hfinite (by decide) rfl hstop.symm
  · exact htrail d (List.mem_append_left _ (Option.mem_toList.mpr (hpercent.trans h.trailPercent).symm))
  · exact htrail d (List.mem_append_right _ (Option.mem_toList.mpr (hamount.trans h.trailAmount).symm))

/-- An accepted order. -/
theorem parseBuySell_use {verb : String} {args : List String} {cmd : OrderCommand}
    (h : parseBuySell py verb args = .ok cmd) : OrderUse py (words flagName args) cmd := by
  obtain ⟨f, hscan, h⟩ := bind_eq_ok.mp h
  have hscanned := scan_ok hscan
  have hassembled := assemble_ok h
  exact {
    limit_iff := hassembled.limit.iff.trans decide_eq_true_iff
    stop_iff := hassembled.stop.iff.trans decide_eq_true_iff
    numbers := hassembled.numbers hscanned
    places := hassembled.places hscanned
    flags := hassembled.flags hscanned }

end Use

end IbTrader.Repl
