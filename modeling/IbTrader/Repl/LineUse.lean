/-
  IbTrader.Repl.LineUse

  What an accepted close command makes of the words of its line, and what the whole parser
  comes to: it raises for a NaN alone, and an accepted command has used its words.
-/

import IbTrader.Repl.CommandUse

namespace IbTrader.Repl

open Data Lib Lib.Errors

section Close

variable {py : Python} {isalnum : Char → Bool}

-- ============================================================================
-- The parts of a close command
-- ============================================================================

theorem closeTarget_ok {takeProfitPrice : Option Decimal} {value : String} {target : Target}
    (h : closeTarget py isalnum takeProfitPrice value = .ok target) :
    target.serial.isSome ∧ target.serial = integer py value ∨ target.symbol = some (py.upper value) := by
  unfold closeTarget at h
  split at h
  · rename_i serial hserial
    obtain rfl := Except.ok.inj h
    exact .inl ⟨rfl, hserial.symm⟩
  · dsimp only at h
    split at h
    · exact absurd h (emitError_ne_ok _ _)
    · split at h
      · exact absurd h (emitError_ne_ok _ _)
      · obtain rfl := Except.ok.inj h
        exact .inr rfl

theorem closeTarget_ne_raised (takeProfitPrice : Option Decimal) (value : String) :
    closeTarget py isalnum takeProfitPrice value ≠ .error .raised := by
  unfold closeTarget
  split
  · exact ok_ne_raised _
  · dsimp only
    split
    · exact emitError_ne_raised _
    · split
      · exact emitError_ne_raised _
      · exact ok_ne_raised _

theorem closeStrategy_ok {positional : List String} {strategy : Strategy}
    (h : closeStrategy py positional = .ok strategy) {tok : String} (htok : positional[1]? = some tok) :
    strategy.value = py.lower tok := by
  unfold closeStrategy at h
  rw [htok] at h
  dsimp only at h
  split at h
  · rename_i s hs
    obtain rfl := pure_eq_ok.mp h
    exact value_of_ofValue hs
  · exact absurd h (emitError_ne_ok _ _)

theorem closeStrategy_ne_raised (positional : List String) : closeStrategy py positional ≠ .error .raised := by
  unfold closeStrategy
  split
  · exact fun h => pure_eq_error.mp h
  · split
    · exact fun h => pure_eq_error.mp h
    · exact emitError_ne_raised _

theorem closePrice_ok {priced : Bool} {positional : List String} {name missing : String} {nextPos next : ℕ}
    {p : Option Decimal} (h : closePrice py priced positional name missing nextPos = .ok (p, next)) :
    (priced ∧ next = 3 ∧ ∃ tok d, positional[2]? = some tok ∧ amount py tok = some d ∧ Above d ∧ p = some d) ∨
      ¬ priced ∧ next = nextPos ∧ p = none := by
  unfold closePrice at h
  split at h
  · rename_i hpriced
    cases htok : positional[2]? with
    | none =>
      rw [htok] at h
      exact absurd h (emitError_ne_ok _ _)
    | some tok =>
      rw [htok] at h
      obtain ⟨d, hd, h⟩ := bind_eq_ok.mp h
      obtain ⟨rfl, rfl⟩ := Prod.mk.inj (pure_eq_ok.mp h)
      obtain ⟨hread, habove⟩ := parsePositive_ok hd
      exact .inl ⟨hpriced, rfl, tok, d, rfl, hread, habove, rfl⟩
  · rename_i hpriced
    obtain ⟨rfl, rfl⟩ := Prod.mk.inj (pure_eq_ok.mp h)
    exact .inr ⟨hpriced, rfl, rfl⟩

theorem closePrice_raised {priced : Bool} {positional : List String} {name missing : String} {nextPos : ℕ}
    (h : closePrice py priced positional name missing nextPos = .error .raised) :
    ∃ tok, positional[2]? = some tok ∧ amount py tok = some .nan := by
  unfold closePrice at h
  split at h
  · cases htok : positional[2]? with
    | none =>
      rw [htok] at h
      exact absurd h (emitError_ne_raised _)
    | some tok =>
      rw [htok] at h
      rcases bind_eq_error.mp h with h | ⟨d, -, h⟩
      · exact ⟨tok, rfl, parsePositive_raised h⟩
      · exact absurd h pure_eq_error.mp
  · exact absurd h pure_eq_error.mp

theorem checkStopTarget_ne_raised (strategy : Strategy) (target : Target) :
    checkStopTarget strategy target ≠ .error .raised := by
  unfold checkStopTarget
  split
  · exact emitError_ne_raised _
  · exact fun h => pure_eq_error.mp h

theorem closeProfit_ok {target : Target} {value : Option String} {profitAmount : Option Decimal}
    (h : closeProfit py target value = .ok profitAmount) :
    value = none ∧ profitAmount = none ∨
      ∃ tok d, value = some tok ∧ amount py tok = some d ∧ profitAmount = some d := by
  cases value with
  | none => exact .inl ⟨rfl, (pure_eq_ok.mp h).symm⟩
  | some tok =>
    unfold closeProfit at h
    dsimp only at h
    split at h
    · exact absurd h (emitError_ne_ok _ _)
    · obtain ⟨d, hd, rfl⟩ := map_eq_ok.mp h
      exact .inr ⟨tok, d, rfl, parseDecimal_eq_ok.mp hd, rfl⟩

theorem closeProfit_ne_raised (target : Target) (value : Option String) :
    closeProfit py target value ≠ .error .raised := by
  unfold closeProfit
  split
  · exact fun h => pure_eq_error.mp h
  · split
    · exact emitError_ne_raised _
    · exact fun h => parseDecimal_ne_raised _ _ (map_eq_error.mp h)

-- ============================================================================
-- Close commands
-- ============================================================================

/-- What an accepted close command makes of its words; a positional without a place and
    the earlier values of the flag are not spoken of. -/
structure CloseUse (py : Python) (w : Words) (cmd : CloseCommand) : Prop where
  limit_iff : cmd.limitPrice.isSome ↔ cmd.strategy = .limit
  stop_iff : cmd.stopPrice.isSome ↔ cmd.strategy = .stop
  numbers : (∀ d ∈ placeNumbers py [2] w, ∃ q, d = .finite q) →
    (∀ d ∈ flagNumbers py [.takeProfitPrice] w ++ placeNumbers py [cmd.places.length - 1] w, d.positive) →
    ∀ d ∈ cmd.numbers, d.positive
  places : ∀ (i : ℕ) tok place, w.positional[i]? = some tok → cmd.places[i]? = some place → cmd.PlaceHolds py tok place
  flags : ∀ value, lastValue .takeProfitPrice w.flags = some value →
    Holds py .takeProfitPrice value (.number cmd.takeProfitPrice)

theorem positional_of_assembleClose {f : CloseFlags} {cmd : CloseCommand} (h : assembleClose py isalnum f = .ok cmd) :
    ∃ first rest, f.positional = first :: rest := by
  unfold assembleClose at h
  split at h
  · exact absurd h (emitError_ne_ok _ _)
  · rename_i first rest hpos
    exact ⟨first, rest, hpos⟩

/-- What an assembled close command has been read from. -/
structure AssembledClose (py : Python) (f : CloseFlags) (cmd : CloseCommand) : Prop where
  target : ∃ tok, f.positional[0]? = some tok ∧ cmd.PlaceHolds py tok .symbol
  strategy : ∀ tok, f.positional[1]? = some tok → cmd.strategy.value = py.lower tok
  limit : cmd.strategy = .limit ∧ (∃ tok d, f.positional[2]? = some tok ∧ amount py tok = some d ∧ Above d ∧
    cmd.limitPrice = some d) ∨ cmd.strategy ≠ .limit ∧ cmd.limitPrice = none
  stop : cmd.strategy = .stop ∧ (∃ tok d, f.positional[2]? = some tok ∧ amount py tok = some d ∧ Above d ∧
    cmd.stopPrice = some d) ∨ cmd.strategy ≠ .stop ∧ cmd.stopPrice = none
  profit : f.positional[cmd.places.length - 1]? = none ∧ cmd.profitAmount = none ∨
    ∃ tok d, f.positional[cmd.places.length - 1]? = some tok ∧ amount py tok = some d ∧ cmd.profitAmount = some d
  takeProfitPrice : cmd.takeProfitPrice = f.takeProfitPrice

theorem assembleClose_ok {f : CloseFlags} {cmd : CloseCommand} (h : assembleClose py isalnum f = .ok cmd) :
    AssembledClose py f cmd := by
  obtain ⟨first, rest, hpos⟩ := positional_of_assembleClose h
  unfold assembleClose at h
  rw [hpos] at h
  dsimp only at h
  rw [← hpos] at h
  obtain ⟨target, htarget, h⟩ := bind_eq_ok.mp h
  obtain ⟨strategy, hstrategy, h⟩ := bind_eq_ok.mp h
  obtain ⟨⟨limitPrice, next₁⟩, hlimit, h⟩ := bind_eq_ok.mp h
  obtain ⟨⟨⟩, -, h⟩ := bind_eq_ok.mp h
  obtain ⟨⟨stopPrice, next₂⟩, hstop, h⟩ := bind_eq_ok.mp h
  obtain ⟨profitAmount, hprofit, h⟩ := bind_eq_ok.mp h
  obtain rfl := pure_eq_ok.mp h
  have hnext : next₂ = (pricePlaces strategy false false).length + 2 := by
    unfold pricePlaces
    rcases closePrice_ok hlimit with ⟨hl, rfl, -⟩ | ⟨hl, rfl, -⟩
    · rcases closePrice_ok hstop with ⟨hs, -⟩ | ⟨-, rfl, -⟩
      · rw [of_decide_eq_true hl] at hs
        exact absurd hs (by decide)
      · rw [if_pos ⟨of_decide_eq_true hl, rfl⟩]
        rfl
    · rw [if_neg fun h => hl (decide_eq_true h.1)]
      rcases closePrice_ok hstop with ⟨hs, rfl, -⟩ | ⟨hs, rfl, -⟩
      · rw [if_pos ⟨of_decide_eq_true hs, rfl⟩]
        rfl
      · rw [if_neg fun h => hs (decide_eq_true h.1)]
        rfl
  have hlast : ∀ cmd : CloseCommand, cmd.strategy = strategy → cmd.places.length - 1 = next₂ := by
    intro cmd hcmd
    rw [CloseCommand.places, hcmd, hnext, List.length_append, List.length_append]
    show 2 + _ + 1 - 1 = _
    omega
  refine ⟨⟨first, by rw [hpos]; rfl, closeTarget_ok htarget⟩, fun tok htok => closeStrategy_ok hstrategy htok, ?_, ?_, ?_, rfl⟩
  · rcases closePrice_ok hlimit with ⟨hl, -, hread⟩ | ⟨hl, -, hnone⟩
    · exact .inl ⟨of_decide_eq_true hl, hread⟩
    · exact .inr ⟨fun h => hl (decide_eq_true h), hnone⟩
  · rcases closePrice_ok hstop with ⟨hs, -, hread⟩ | ⟨hs, -, hnone⟩
    · exact .inl ⟨of_decide_eq_true hs, hread⟩
    · exact .inr ⟨fun h => hs (decide_eq_true h), hnone⟩
  · rw [hlast _ rfl]
    exact closeProfit_ok hprofit

theorem assembleClose_raised {f : CloseFlags} (h : assembleClose py isalnum f = .error .raised) :
    ∃ tok, f.positional[2]? = some tok ∧ amount py tok = some .nan := by
  cases hpos : f.positional with
  | nil =>
    unfold assembleClose at h
    rw [hpos] at h
    exact absurd h (emitError_ne_raised _)
  | cons first rest =>
    unfold assembleClose at h
    rw [hpos] at h
    dsimp only at h
    rw [← hpos] at h ⊢
    rcases bind_eq_error.mp h with h | ⟨target, -, h⟩
    · exact absurd h (closeTarget_ne_raised _ _)
    rcases bind_eq_error.mp h with h | ⟨strategy, -, h⟩
    · exact absurd h (closeStrategy_ne_raised _)
    rcases bind_eq_error.mp h with h | ⟨⟨limitPrice, next₁⟩, -, h⟩
    · exact closePrice_raised h
    rcases bind_eq_error.mp h with h | ⟨⟨⟩, -, h⟩
    · exact absurd h (checkStopTarget_ne_raised _ _)
    rcases bind_eq_error.mp h with h | ⟨⟨stopPrice, next₂⟩, -, h⟩
    · exact closePrice_raised h
    rcases bind_eq_error.mp h with h | ⟨profitAmount, -, h⟩
    · exact absurd h (closeProfit_ne_raised _ _)
    · exact absurd h pure_eq_error.mp

/-- A price that is there exactly for its strategy. -/
theorem isSome_iff_of_priced {p : Option Decimal} {strategy priced : Strategy} {positional : List String}
    (h : strategy = priced ∧ (∃ tok d, positional[2]? = some tok ∧ amount py tok = some d ∧ Above d ∧ p = some d) ∨
      strategy ≠ priced ∧ p = none) : p.isSome ↔ strategy = priced := by
  rcases h with ⟨hpriced, tok, d, -, -, -, rfl⟩ | ⟨hpriced, rfl⟩
  · exact iff_of_true rfl hpriced
  · exact iff_of_false Bool.false_ne_true hpriced

/-- A price that the third positional has. -/
theorem holds_third {p : Option Decimal} {strategy priced : Strategy} {positional : List String}
    (h : strategy = priced ∧ (∃ tok d, positional[2]? = some tok ∧ amount py tok = some d ∧ Above d ∧ p = some d) ∨
      strategy ≠ priced ∧ p = none) (hpriced : strategy = priced) {tok : String} (htok : positional[2]? = some tok) :
    p.isSome ∧ p = amount py tok := by
  rcases h with ⟨-, tok', d, htok', hread, -, rfl⟩ | ⟨hne, -⟩
  · obtain rfl := Option.some.inj (htok.symm.trans htok')
    exact ⟨rfl, hread.symm⟩
  · exact absurd hpriced hne

/-- Each positional with a place is what the command has there. -/
theorem AssembledClose.places {w : Words} {f : CloseFlags} {cmd : CloseCommand} (h : AssembledClose py f cmd)
    (hpositional : f.positional = w.positional) (i : ℕ) (tok : String) (place : Place)
    (htok : w.positional[i]? = some tok) (hplace : cmd.places[i]? = some place) : cmd.PlaceHolds py tok place := by
  rw [← hpositional] at htok
  have hprofit : ∀ {j : ℕ}, cmd.places.length - 1 = j → f.positional[j]? = some tok → cmd.PlaceHolds py tok .profit := by
    rintro j rfl htok
    rcases h.profit with ⟨hnone, -⟩ | ⟨tok', d, htok', hread, hcmd⟩
    · exact absurd (hnone.symm.trans htok) (Option.some_ne_none tok).symm
    · obtain rfl := Option.some.inj (htok.symm.trans htok')
      exact ⟨by rw [hcmd]; rfl, hcmd.trans hread.symm⟩
  have hfirst : ∀ {place : Place} {rest : List Place}, (Place.symbol :: .strategy :: rest)[i]? = some place → i < 2 →
      cmd.PlaceHolds py tok place := by
    intro place rest hplace hi
    match i with
    | 0 =>
      obtain rfl := Option.some.inj hplace
      obtain ⟨tok', htok', hcmd⟩ := h.target
      obtain rfl := Option.some.inj (htok.symm.trans htok')
      exact hcmd
    | 1 =>
      obtain rfl := Option.some.inj hplace
      exact h.strategy tok htok
    | i + 2 => omega
  have hlength : cmd.places.length = (pricePlaces cmd.strategy false false).length + 3 := by
    rw [CloseCommand.places, List.length_append, List.length_append]
    show 2 + _ + 1 = _
    omega
  unfold CloseCommand.places at hplace
  by_cases hi : i < 2
  · exact hfirst hplace hi
  obtain ⟨j, rfl⟩ : ∃ j, i = j + 2 := ⟨i - 2, by omega⟩
  rcases pricePlaces_cases cmd.strategy false false with hnone | ⟨place', hone, hpriced⟩
  · rw [hnone] at hplace hlength
    match j with
    | 0 =>
      obtain rfl := Option.some.inj hplace
      exact hprofit (by rw [hlength]; rfl) htok
    | j + 1 => exact absurd hplace (by simp)
  · rw [hone] at hplace hlength
    match j with
    | 0 =>
      obtain rfl := Option.some.inj hplace
      rcases hpriced with ⟨rfl, hstrategy, -⟩ | ⟨rfl, hstrategy, -⟩
      · exact holds_third h.limit hstrategy htok
      · exact holds_third h.stop hstrategy htok
    | 1 =>
      obtain rfl := Option.some.inj hplace
      exact hprofit (by rw [hlength]; rfl) htok
    | j + 2 => exact absurd hplace (by simp)

theorem AssembledClose.numbers {w : Words} {f : CloseFlags} {cmd : CloseCommand} (h : AssembledClose py f cmd)
    (hscanned : Scanned py w {} f.toFlags) (hfinite : ∀ d ∈ placeNumbers py [2] w, ∃ q, d = .finite q)
    (hpositive : ∀ d ∈ flagNumbers py [.takeProfitPrice] w ++ placeNumbers py [cmd.places.length - 1] w, d.positive) :
    ∀ d ∈ cmd.numbers, d.positive := by
  have hpositional : f.positional = w.positional := hscanned.positional
  have hprice : ∀ {d tok}, Above d → f.positional[2]? = some tok → amount py tok = some d → d.positive := by
    intro d tok habove htok hread
    rw [hpositional] at htok
    exact habove.positive (hfinite d (mem_placeNumbers (List.mem_singleton_self 2) htok hread))
  intro d hd
  unfold CloseCommand.numbers at hd
  rw [List.reduceOption_mem_iff] at hd
  simp only [List.mem_cons, List.not_mem_nil, or_false] at hd
  rcases hd with hprofit | htarget | hlimit | hstop
  · rcases h.profit with ⟨-, hcmd⟩ | ⟨tok, d', htok, hread, hcmd⟩
    · exact absurd (hprofit.trans hcmd) (Option.some_ne_none d)
    · obtain rfl := Option.some.inj (hprofit.trans hcmd)
      rw [hpositional] at htok
      exact hpositive d (List.mem_append_right _ (mem_placeNumbers (List.mem_singleton_self _) htok hread))
  · obtain ⟨value, hmem, hread, -⟩ := hscanned.mem_numbers .takeProfitPrice
      (Option.mem_toList.mpr (htarget.trans h.takeProfitPrice).symm)
    exact hpositive d (List.mem_append_left _ (mem_flagNumbers (List.mem_singleton_self _) hmem hread))
  · rcases h.limit with ⟨-, tok, d', htok, hread, habove, hcmd⟩ | ⟨-, hcmd⟩
    · obtain rfl := Option.some.inj (hlimit.trans hcmd)
      exact hprice habove htok hread
    · exact absurd (hlimit.trans hcmd) (Option.some_ne_none d)
  · rcases h.stop with ⟨-, tok, d', htok, hread, habove, hcmd⟩ | ⟨-, hcmd⟩
    · obtain rfl := Option.some.inj (hstop.trans hcmd)
      exact hprice habove htok hread
    · exact absurd (hstop.trans hcmd) (Option.some_ne_none d)

/-- An accepted close command. -/
theorem parseClose_use {args : List String} {cmd : CloseCommand} (h : parseClose py isalnum args = .ok cmd) :
    CloseUse py (words closeFlagName args) cmd := by
  obtain ⟨f, hscan, h⟩ := bind_eq_ok.mp h
  have hscanned := scanClose_ok hscan
  have hassembled := assembleClose_ok h
  exact {
    limit_iff := isSome_iff_of_priced hassembled.limit
    stop_iff := isSome_iff_of_priced hassembled.stop
    numbers := hassembled.numbers hscanned
    places := hassembled.places hscanned.positional
    flags := fun value hlast => by
      rw [hassembled.takeProfitPrice]
      exact hscanned.holds .takeProfitPrice value hlast }

theorem parseClose_raised {args : List String} (h : parseClose py isalnum args = .error .raised) :
    .nan ∈ placeNumbers py [2] (words closeFlagName args) := by
  rcases bind_eq_error.mp h with h | ⟨f, hscan, h⟩
  · exact absurd h scanClose_ne_raised
  · obtain ⟨tok, htok, hnan⟩ := assembleClose_raised h
    have hpositional : f.positional = (words closeFlagName args).positional := (scanClose_ok hscan).positional
    rw [hpositional] at htok
    exact mem_placeNumbers (List.mem_singleton_self 2) htok hnan

end Close

-- ============================================================================
-- Lines
-- ============================================================================

section Line

variable (py : Python)

/-- The tokens of a line; none of one that does not split. -/
def tokensOf (line : String) : List String := (ShellWords.split (strip py line)).toOption.getD []

/-- Its verb. -/
def verbOf (line : String) : Option String := (tokensOf py line).head?.map py.lower

/-- The tokens after the verb. -/
def argsOf (line : String) : List String := (tokensOf py line).drop 1

/-- The numbers of a line that the parser compares. -/
def lineNumbers (line : String) : List Decimal :=
  if verbOf py line = some "buy" ∨ verbOf py line = some "sell" then
    comparedNumbers py (words flagName (argsOf py line))
  else if verbOf py line = some "close" then placeNumbers py [2] (words closeFlagName (argsOf py line))
  else []

variable {py}

/-- What a line is parsed by, from its verb on. -/
inductive Dispatch (py : Python) (line : String) : Except Failure Parsed → Prop
  | other {parsed : Except Failure Parsed} (hok : ∀ cmd, parsed ≠ .ok (.order cmd))
      (hhanded : ∀ verb tokens, parsed ≠ .ok (.handed verb tokens)) (hraised : parsed ≠ .error .raised) :
      Dispatch py line parsed
  | order (first : String) (hverb : verbOf py line = some "buy" ∨ verbOf py line = some "sell") :
      Dispatch py line (.order <$> parseBuySell py first (argsOf py line))
  | handed (verb : String) (hverb : verbOf py line = some verb) :
      Dispatch py line (.ok (.handed verb (tokensOf py line)))

theorem dispatch_of_ok {line : String} {parsed : Parsed} (hok : ∀ cmd, parsed ≠ .order cmd)
    (hhanded : ∀ verb tokens, parsed ≠ .handed verb tokens) : Dispatch py line (.ok parsed) :=
  .other (fun cmd h => hok cmd (Except.ok.inj h)) (fun verb tokens h => hhanded verb tokens (Except.ok.inj h))
    (ok_ne_raised _)

theorem dispatch_of_error (line message : String) : Dispatch py line (emitError message) :=
  .other (fun _ => emitError_ne_ok _ _) (fun _ _ => emitError_ne_ok _ _) (emitError_ne_raised _)

theorem parseCommand_dispatch (py : Python) (line : String) : Dispatch py line (parseCommand py line) := by
  unfold parseCommand
  dsimp only
  split
  · exact dispatch_of_ok (fun _ h => Parsed.noConfusion h) (fun _ _ h => Parsed.noConfusion h)
  · split
    · exact dispatch_of_error line _
    · exact dispatch_of_ok (fun _ h => Parsed.noConfusion h) (fun _ _ h => Parsed.noConfusion h)
    · rename_i first args hsplit
      have htokens : tokensOf py line = first :: args := by rw [tokensOf, hsplit]; rfl
      have hverb : verbOf py line = some (py.lower first) := by rw [verbOf, htokens]; rfl
      have hargs : argsOf py line = args := by rw [argsOf, htokens]; rfl
      rw [← htokens, ← hargs]
      split
      · exact dispatch_of_ok (fun _ h => Parsed.noConfusion h) (fun _ _ h => Parsed.noConfusion h)
      split
      · exact dispatch_of_ok (fun _ h => Parsed.noConfusion h) (fun _ _ h => Parsed.noConfusion h)
      split
      · rename_i hmem
        refine .order first ?_
        rw [hverb]
        simpa using hmem
      split
      · exact .handed (py.lower first) hverb
      · exact dispatch_of_error line _

-- ============================================================================
-- The parser
-- ============================================================================

variable {isalnum : Char → Bool}

theorem parseModify_ne_raised (args : List String) : parseModify py args ≠ .error .raised := by
  unfold parseModify
  split
  · exact emitError_ne_raised _
  · split
    · exact ok_ne_raised _
    · exact emitError_ne_raised _

/-- A line raises for a NaN that is compared. -/
theorem parseLine_raised {line : String} (h : parseLine py isalnum line = .error .raised) : .nan ∈ lineNumbers py line := by
  unfold lineNumbers
  have hdispatch := parseCommand_dispatch py line
  unfold parseLine at h
  generalize parseCommand py line = parsed at h hdispatch
  cases hdispatch with
  | other hok hhanded hraised =>
    rcases bind_eq_error.mp h with h | ⟨p, rfl, h⟩
    · exact absurd h hraised
    · cases p with
      | nothing => exact absurd h pure_eq_error.mp
      | builtin name => exact absurd h pure_eq_error.mp
      | order cmd => exact absurd rfl (hok cmd)
      | handed verb tokens => exact absurd rfl (hhanded verb tokens)
  | order first hverb =>
    rw [if_pos hverb]
    rcases bind_eq_error.mp h with h | ⟨p, hp, h⟩
    · exact parseBuySell_raised (map_eq_error.mp h)
    · obtain ⟨cmd, -, rfl⟩ := map_eq_ok.mp hp
      exact absurd h pure_eq_error.mp
  | handed verb hverb =>
    obtain ⟨p, hp, h⟩ := (bind_eq_error.mp h).resolve_left (ok_ne_raised _)
    obtain rfl := Except.ok.inj hp
    unfold finish at h
    dsimp only at h
    split at h
    · rename_i hclose
      rw [hverb, hclose, if_neg (by decide), if_pos rfl]
      exact parseClose_raised (map_eq_error.mp h)
    · exact absurd (map_eq_error.mp h) (parseModify_ne_raised _)

theorem finish_order {parsed : Parsed} {cmd : OrderCommand} (h : finish py isalnum parsed = .ok (some (.order cmd))) :
    parsed = .order cmd := by
  cases parsed with
  | nothing => exact absurd (pure_eq_ok.mp h).symm (Option.some_ne_none _)
  | builtin name => exact Command.noConfusion (Option.some.inj (pure_eq_ok.mp h))
  | order cmd' =>
    obtain rfl := Command.order.inj (Option.some.inj (pure_eq_ok.mp h))
    rfl
  | handed verb tokens =>
    unfold finish at h
    dsimp only at h
    split at h
    · obtain ⟨c, -, hc⟩ := map_eq_ok.mp h
      exact Command.noConfusion (Option.some.inj hc)
    · obtain ⟨c, -, hc⟩ := map_eq_ok.mp h
      exact Command.noConfusion (Option.some.inj hc)

theorem finish_close {parsed : Parsed} {cmd : CloseCommand} (h : finish py isalnum parsed = .ok (some (.close cmd))) :
    ∃ verb tokens, parsed = .handed verb tokens ∧ parseClose py isalnum (tokens.drop 1) = .ok cmd := by
  cases parsed with
  | nothing => exact absurd (pure_eq_ok.mp h).symm (Option.some_ne_none _)
  | builtin name => exact Command.noConfusion (Option.some.inj (pure_eq_ok.mp h))
  | order cmd' => exact Command.noConfusion (Option.some.inj (pure_eq_ok.mp h))
  | handed verb tokens =>
    unfold finish at h
    dsimp only at h
    split at h
    · obtain ⟨c, hparse, hc⟩ := map_eq_ok.mp h
      obtain rfl := Command.close.inj (Option.some.inj hc)
      exact ⟨verb, tokens, rfl, hparse⟩
    · obtain ⟨c, -, hc⟩ := map_eq_ok.mp h
      exact Command.noConfusion (Option.some.inj hc)

theorem parseLine_order {line : String} {cmd : OrderCommand} (h : parseLine py isalnum line = .ok (some (.order cmd))) :
    OrderUse py (words flagName (argsOf py line)) cmd := by
  have hdispatch := parseCommand_dispatch py line
  unfold parseLine at h
  obtain ⟨parsed, hparsed, h⟩ := bind_eq_ok.mp h
  obtain rfl := finish_order h
  generalize parseCommand py line = result at hparsed hdispatch
  cases hdispatch with
  | other hok _ _ => exact absurd hparsed (hok cmd)
  | order first _ =>
    obtain ⟨cmd', hparse, hcmd⟩ := map_eq_ok.mp hparsed
    obtain rfl := Parsed.order.inj hcmd
    exact parseBuySell_use hparse
  | handed verb _ => exact Parsed.noConfusion (Except.ok.inj hparsed)

theorem parseLine_close {line : String} {cmd : CloseCommand} (h : parseLine py isalnum line = .ok (some (.close cmd))) :
    CloseUse py (words closeFlagName (argsOf py line)) cmd := by
  have hdispatch := parseCommand_dispatch py line
  unfold parseLine at h
  obtain ⟨parsed, hparsed, h⟩ := bind_eq_ok.mp h
  obtain ⟨verb, tokens, rfl, hclose⟩ := finish_close h
  generalize parseCommand py line = result at hparsed hdispatch
  cases hdispatch with
  | other _ hhanded _ => exact absurd hparsed (hhanded verb tokens)
  | order first _ =>
    obtain ⟨cmd', -, hcmd⟩ := map_eq_ok.mp hparsed
    exact Parsed.noConfusion hcmd
  | handed verb' _ =>
    obtain ⟨rfl, rfl⟩ := Parsed.handed.inj (Except.ok.inj hparsed)
    exact parseClose_use hclose

/-- The parser raises for no line without a NaN in a place where it compares, and an
    accepted order or close command is made of its words. -/
theorem parseLine_use (py : Python) (isalnum : Char → Bool) (line : String) :
    (.nan ∉ lineNumbers py line → parseLine py isalnum line ≠ .error .raised) ∧
    (∀ cmd, parseLine py isalnum line = .ok (some (.order cmd)) →
      OrderUse py (words flagName (argsOf py line)) cmd) ∧
    (∀ cmd, parseLine py isalnum line = .ok (some (.close cmd)) →
      CloseUse py (words closeFlagName (argsOf py line)) cmd) :=
  ⟨fun hnan hraised => hnan (parseLine_raised hraised), fun _ h => parseLine_order h, fun _ h => parseLine_close h⟩

end Line

-- ============================================================================
-- Some lines
-- ============================================================================

/-- A limit order with a profit. -/
def limitOrder : OrderCommand where
  side := .sell
  symbol := "MSFT"
  qty := some (.finite 2)
  dollars := none
  strategy := .limit
  profitAmount := some (.finite 30)
  takeProfitPrice := none
  stopLoss := none
  limitPrice := some (.finite 5)

theorem parseLine_use_limitOrder :
    OrderUse ascii (words flagName (argsOf ascii "sell msft 2 limit $5 30")) limitOrder :=
  (parseLine_use ascii Char.isAlphanum "sell msft 2 limit $5 30").2.1 limitOrder (by decide +kernel)

/-- An order by dollars. -/
def dollarsOrder : OrderCommand where
  side := .buy
  symbol := "MSFT"
  qty := none
  dollars := some (.finite 2000)
  strategy := .mid
  profitAmount := none
  takeProfitPrice := none
  stopLoss := none

/-- An order with numbers that are not finite and positive. -/
def infiniteOrder : OrderCommand where
  side := .buy
  symbol := "MSFT"
  qty := some (.infinite false)
  dollars := none
  strategy := .smartMarket
  profitAmount := none
  takeProfitPrice := none
  stopLoss := some (.finite (-5))

/-- An order by dollars does not use its quantity, and an empty line is neither a command
    nor an error; a NaN raises, numbers that are not finite and positive are accepted, and
    words are passed over. -/
theorem parseLine_passes_over :
    (parseLine ascii Char.isAlphanum "buy MSFT 0 mid --dollars 2000" = .ok (some (.order dollarsOrder)) ∧
      (words flagName (argsOf ascii "buy MSFT 0 mid --dollars 2000")).positional[1]? = some "0" ∧
      ¬ dollarsOrder.PlaceHolds ascii "0" .qty) ∧
    parseLine ascii Char.isAlphanum "" = .ok none ∧
    parseLine ascii Char.isAlphanum "buy MSFT nan" = .error .raised ∧
    (parseLine ascii Char.isAlphanum "buy MSFT inf --stop-loss -5" = .ok (some (.order infiniteOrder)) ∧
      ¬ ∀ d ∈ infiniteOrder.numbers, d.positive) ∧
    parseLine ascii Char.isAlphanum "sell msft 2 limit $5 30 40 --profit 50 --exchange ''" =
      .ok (some (.order limitOrder)) := by
  refine ⟨⟨by decide +kernel, by decide +kernel, fun h => absurd h.1 (by decide)⟩, by decide +kernel,
    by decide +kernel, ⟨by decide +kernel, by decide +kernel⟩, by decide +kernel⟩

end IbTrader.Repl
