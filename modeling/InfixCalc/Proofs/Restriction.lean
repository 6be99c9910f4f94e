/-
# Settings only restrict

A calculator refuses an expression that is longer than its limit, whatever is in the expression, and
otherwise gives what reading and evaluation give without any settings.  An expression that is
missing or blank is refused as such under every limit.

The three ways through `Calculator.parse` are `Calculator.parse_of_refused`,
`Calculator.parse_of_exceeded` and `Calculator.parse_of_admits`; a calculation depends on the
settings through the reading alone (`Calculator.value_calculate`).
-/

import InfixCalc.Calculator

namespace InfixCalc

/-- An expression of this length is within the limit. -/
def Settings.Admits (settings : Settings) (length : Nat) : Prop :=
  ∀ limit, settings.maxLength = some limit → length ≤ limit.toNat

section Limit

variable {settings : Settings} {length : Nat}

/-- A length exceeds the limit if there is one and it is smaller. -/
theorem Settings.exceeded?_eq_some_iff {limit : UInt64} :
    settings.exceeded? length = some limit ↔
      settings.maxLength = some limit ∧ limit.toNat < length := by
  rw [exceeded?, Option.filter_eq_some_iff, decide_eq_true_iff]

/-- A length that exceeds no limit is admitted. -/
theorem Settings.exceeded?_eq_none_iff :
    settings.exceeded? length = none ↔ settings.Admits length := by
  simp only [exceeded?, Option.filter_eq_none_iff, Admits, decide_eq_true_eq, Nat.not_lt]

end Limit

/-- A blank text is refused. -/
theorem checkArgument_of_blank {text : String} (h : text.toList.all Text.isBlank) :
    checkArgument (some text) = .error .blank := if_pos h

/-- Every other text is taken. -/
theorem checkArgument_of_not_blank {text : String} (h : ¬ text.toList.all Text.isBlank) :
    checkArgument (some text) = .ok text := if_neg h

namespace Calculator

variable {calculator : Calculator} {text : String}

/-- What is no expression is refused before anything happens. -/
theorem parse_of_refused {expression : Option String} {cause : ArgumentError}
    (h : checkArgument expression = .error cause) :
    calculator.parse expression = ⟨.error (.parse (.invalidArgument cause)), []⟩ := by
  rw [parse, h]

/-- An expression above the limit is refused, whatever it says. -/
theorem parse_of_exceeded {limit : UInt64} (hblank : ¬ text.toList.all Text.isBlank)
    (hlimit : calculator.settings.maxLength = some limit) (hlong : limit.toNat < text.length) :
    calculator.parse (some text) =
      ⟨.error (.parse (.invalidArgument (.tooLong text.length limit.toNat))),
        [.tooLong text.length limit.toNat]⟩ := by
  rw [parse, checkArgument_of_not_blank hblank]
  simp only [Settings.exceeded?_eq_some_iff.2 ⟨hlimit, hlong⟩]

/-- An expression within the limit is read. -/
theorem parse_of_admits (hblank : ¬ text.toList.all Text.isBlank)
    (hadmits : calculator.settings.Admits text.length) :
    calculator.parse (some text) = calculator.parseAdmitted text := by
  rw [parse, checkArgument_of_not_blank hblank]
  simp only [Settings.exceeded?_eq_none_iff.2 hadmits]

/-- What is read is read as without settings. -/
theorem value_parseAdmitted (calculator : Calculator) (text : String) :
    (calculator.parseAdmitted text).value = (InfixCalc.parse text).mapError .parse := by
  rw [parseAdmitted]
  cases InfixCalc.parse text <;> rfl

/-- **A calculation is reading and then evaluation.** -/
theorem value_calculate (calculator : Calculator) (expression : Option String) :
    (calculator.calculate expression).value =
      (calculator.parse expression).value.bind fun tokens => (evaluate tokens).mapError .eval := by
  rw [calculate]
  cases (calculator.parse expression).value with
  | error cause => rfl
  | ok tokens =>
    simp only [Except.bind]
    cases evaluate tokens <;> rfl

/-- An expression that cannot be read has no value, for the same reason. -/
theorem value_calculate_of_error {expression : Option String} {cause : CalcError}
    (h : (calculator.parse expression).value = .error cause) :
    (calculator.calculate expression).value = .error cause := by
  rw [value_calculate, h]
  rfl

/-- The flag does not show in what is read. -/
theorem value_parse_flag (limit : Option UInt64) (flag flag' : Bool) (expression : Option String) :
    (parse ⟨⟨limit, flag⟩⟩ expression).value = (parse ⟨⟨limit, flag'⟩⟩ expression).value := by
  cases hargument : checkArgument expression with
  | error cause => rw [parse_of_refused hargument, parse_of_refused hargument]
  | ok text =>
    have hlimits : (⟨limit, flag⟩ : Settings).exceeded? text.length =
        (⟨limit, flag'⟩ : Settings).exceeded? text.length := rfl
    simp only [parse, hargument, hlimits]
    cases (⟨limit, flag'⟩ : Settings).exceeded? text.length with
    | some limit => rfl
    | none => simp only [value_parseAdmitted]

/-- Limits that admit an expression do not show in what is read. -/
theorem value_parse_congr {calculator calculator' : Calculator} {expression : Option String}
    (h : ∀ text, expression = some text → calculator.settings.Admits text.length)
    (h' : ∀ text, expression = some text → calculator'.settings.Admits text.length) :
    (calculator.parse expression).value = (calculator'.parse expression).value := by
  match expression with
  | none => rfl
  | some text =>
    by_cases hblank : text.toList.all Text.isBlank
    · have hrefused := checkArgument_of_blank hblank
      rw [parse_of_refused hrefused, parse_of_refused hrefused]
    · rw [parse_of_admits hblank (h text rfl), parse_of_admits hblank (h' text rfl),
        value_parseAdmitted, value_parseAdmitted]

/-- **Settings only restrict.**  A missing or blank expression is refused as such, and any other
expression as too long exactly if it is above the limit; what is left is read and evaluated as
without settings.  So two limits that admit an expression give the same results, and whether the
postfix sequence is logged makes no difference. -/
theorem parse_calculate_restrict :
    (∀ calculator : Calculator,
      (calculator.parse none).value = .error (.parse (.invalidArgument .missing)) ∧
      (calculator.calculate none).value = .error (.parse (.invalidArgument .missing))) ∧
    (∀ (calculator : Calculator) (text : String), text.toList.all Text.isBlank →
      (calculator.parse (some text)).value = .error (.parse (.invalidArgument .blank)) ∧
      (calculator.calculate (some text)).value = .error (.parse (.invalidArgument .blank))) ∧
    (∀ (calculator : Calculator) (text : String), ¬ text.toList.all Text.isBlank →
      (∀ limit, calculator.settings.maxLength = some limit → limit.toNat < text.length →
        (calculator.parse (some text)).value =
          .error (.parse (.invalidArgument (.tooLong text.length limit.toNat))) ∧
        (calculator.calculate (some text)).value =
          .error (.parse (.invalidArgument (.tooLong text.length limit.toNat)))) ∧
      (calculator.settings.Admits text.length →
        (calculator.parse (some text)).value = (InfixCalc.parse text).mapError .parse ∧
        (calculator.calculate (some text)).value =
          ((InfixCalc.parse text).mapError .parse).bind fun tokens =>
            (evaluate tokens).mapError .eval)) ∧
    (∀ (calculator calculator' : Calculator) (expression : Option String),
      (∀ text, expression = some text →
        calculator.settings.Admits text.length ∧ calculator'.settings.Admits text.length) →
      (calculator.parse expression).value = (calculator'.parse expression).value ∧
      (calculator.calculate expression).value = (calculator'.calculate expression).value) ∧
    ∀ (limit : Option UInt64) (flag flag' : Bool) (expression : Option String),
      (parse ⟨⟨limit, flag⟩⟩ expression).value = (parse ⟨⟨limit, flag'⟩⟩ expression).value ∧
      (calculate ⟨⟨limit, flag⟩⟩ expression).value =
        (calculate ⟨⟨limit, flag'⟩⟩ expression).value := by
  refine ⟨fun calculator => ⟨rfl, rfl⟩, fun calculator text hblank => ?_,
    fun calculator text hblank => ⟨fun limit hlimit hlong => ?_, fun hadmits => ?_⟩,
    fun calculator calculator' expression hadmits => ?_, fun limit flag flag' expression => ?_⟩
  · have hvalue : (calculator.parse (some text)).value =
        .error (.parse (.invalidArgument .blank)) := by
      rw [parse_of_refused (checkArgument_of_blank hblank)]
    exact ⟨hvalue, value_calculate_of_error hvalue⟩
  · have hvalue : (calculator.parse (some text)).value =
        .error (.parse (.invalidArgument (.tooLong text.length limit.toNat))) := by
      rw [parse_of_exceeded hblank hlimit hlong]
    exact ⟨hvalue, value_calculate_of_error hvalue⟩
  · have hvalue : (calculator.parse (some text)).value =
        (InfixCalc.parse text).mapError .parse := by
      rw [parse_of_admits hblank hadmits, value_parseAdmitted]
    exact ⟨hvalue, by rw [value_calculate, hvalue]⟩
  -- the two calculators refuse and read alike, and evaluation knows no settings
  · have hvalue := value_parse_congr (fun text h => (hadmits text h).1)
      fun text h => (hadmits text h).2
    exact ⟨hvalue, by rw [value_calculate, value_calculate, hvalue]⟩
  · have hvalue := value_parse_flag limit flag flag' expression
    exact ⟨hvalue, by rw [value_calculate, value_calculate, hvalue]⟩

/-- Four characters, one of them of three bytes: a limit of three refuses the division by zero, and
a limit of four admits it. -/
theorem calculate_at_limit :
    ¬ "1/\u30000".toList.all Text.isBlank ∧
      (calculate ⟨⟨some 3, true⟩⟩ (some "1/\u30000")).value =
        .error (.parse (.invalidArgument (.tooLong 4 3))) ∧
      Settings.Admits ⟨some 4, true⟩ "1/\u30000".length ∧
      (calculate ⟨⟨some 4, true⟩⟩ (some "1/\u30000")).value =
        .error (.eval (.divideByZero 1 2)) ∧
      (calculate ⟨⟨some 4, true⟩⟩ (some "1/\u30000")).value =
        (calculate {} (some "1/\u30000")).value := by
  obtain ⟨-, -, hlimits, hsame, -⟩ := parse_calculate_restrict
  have hblank : ¬ "1/\u30000".toList.all Text.isBlank := by decide
  have hfour : Settings.Admits ⟨some 4, true⟩ "1/\u30000".length := by
    rintro limit ⟨⟩
    decide
  have hnone : Settings.Admits {} "1/\u30000".length := fun limit h => by cases h
  have hlong := (hlimits ⟨⟨some 3, true⟩⟩ _ hblank).1 3 rfl (by decide)
  have hread := (hlimits ⟨⟨some 4, true⟩⟩ _ hblank).2 hfour
  refine ⟨hblank, hlong.2, hfour, hread.2.trans rfl, (hsame _ _ _ fun text h => ?_).2⟩
  cases h
  exact ⟨hfour, hnone⟩

end Calculator
end InfixCalc
