/-
# What is logged

The log of a calculation can be told from its outcome: `Calculator.Records` says which entries go
with which outcome, and a calculation leaves those entries and no others.  Reading leaves the same
events, short of that of the evaluation (`Calculator.events_calculate`), and checking a corpus
leaves those of its cases, one after another (`Corpus.events_check`).
-/

import InfixCalc.Corpus.Check
import InfixCalc.Proofs.EvaluationErrors
import InfixCalc.Proofs.Restriction
import InfixCalc.Proofs.Separators

namespace InfixCalc

/-- The entry for an expression that is read. -/
def startEntry (text : String) : LogEntry :=
  ⟨.debug, "开始解析表达式", [("len", toString text.length)]⟩

/-- The entry for a postfix sequence, if the settings ask for it. -/
def postfixEntries (settings : Settings) (tokens : List Token) : List LogEntry :=
  if settings.tracePostfix then [⟨.trace, "后缀序列", [("postfix", Token.postfixText tokens)]⟩]
  else []

/-- The event of an evaluation that has this outcome; an outcome of reading has none. -/
def CalcEvent.ofOutcome : Except CalcError Int32 → List CalcEvent
  | .error (.parse _) => []
  | .error (.eval cause) => [noValue cause]
  | .ok value => [finished value]

namespace Calculator

/-- The entries that are logged for an expression whose calculation has this outcome. -/
inductive Records (calculator : Calculator) :
    Option String → Except CalcError Int32 → List LogEntry → Prop
  | missing : Records calculator none (.error (.parse (.invalidArgument .missing))) []
  | blank {text : String} (hblank : text.toList.all Text.isBlank) :
      Records calculator (some text) (.error (.parse (.invalidArgument .blank))) []
  | tooLong {text : String} {limit : Nat} (hblank : ¬ text.toList.all Text.isBlank)
      (hlimit : calculator.settings.maxLength.map UInt64.toNat = some limit)
      (hlong : limit < text.length) :
      Records calculator (some text)
        (.error (.parse (.invalidArgument (.tooLong text.length limit))))
        [⟨.debug, "表达式超出长度上限",
          [("len", toString text.length), ("max", toString limit)]⟩]
  | unreadable {text : String} {cause : ParseError} (hparse : InfixCalc.parse text = .error cause)
      (hcause : cause.kind ≠ .invalidArgument) :
      Records calculator (some text) (.error (.parse cause))
        [startEntry text, ⟨.debug, "表达式解析失败", [("error", cause.message)]⟩]
  | noValue {text : String} {tokens : List Token} {cause : EvalError}
      (hparse : InfixCalc.parse text = .ok tokens) (hvalue : evaluate tokens = .error cause) :
      Records calculator (some text) (.error (.eval cause))
        (startEntry text :: postfixEntries calculator.settings tokens ++
          [⟨.debug, "后缀序列求值失败", [("error", cause.message)]⟩])
  | finished {text : String} {tokens : List Token} {value : Int32}
      (hparse : InfixCalc.parse text = .ok tokens) (hvalue : evaluate tokens = .ok value) :
      Records calculator (some text) (.ok value)
        (startEntry text :: postfixEntries calculator.settings tokens ++
          [⟨.debug, "表达式计算完成", [("result", toString value.toInt)]⟩])

/-- An outcome goes with one list of entries. -/
theorem Records.unique {calculator : Calculator} {expression : Option String}
    {outcome : Except CalcError Int32} {entries entries' : List LogEntry}
    (h : calculator.Records expression outcome entries)
    (h' : calculator.Records expression outcome entries') : entries = entries' := by
  cases h with
  | missing => cases h'; rfl
  | blank => cases h' with
    | blank => rfl
    | unreadable _ hcause => exact absurd rfl hcause
  | tooLong => cases h' with
    | tooLong => rfl
    | unreadable _ hcause => exact absurd rfl hcause
  | unreadable _ hcause => cases h' with
    | blank | tooLong => exact absurd rfl hcause
    | unreadable => rfl
  | noValue hparse => cases h' with
    | noValue hparse' => cases hparse.symm.trans hparse'; rfl
  | finished hparse => cases h' with
    | finished hparse' => cases hparse.symm.trans hparse'; rfl

/-- What is more than blanks is no bad argument. -/
theorem kind_of_parse {text : String} {cause : ParseError}
    (hblank : ¬ text.toList.all Text.isBlank) (h : InfixCalc.parse text = .error cause) :
    cause.kind ≠ .invalidArgument := by
  have hagree := postfixOf_agree (rfl : (Lexeme.read text.toList).map Placed.lexeme = _)
  rw [parse_eq, if_neg hblank] at h
  rw [h] at hagree
  cases hagree with
  | error halike => cases halike <;> exact fun hkind => by cases hkind

/-- **The events of a calculation** are those of reading and that of the evaluation. -/
theorem events_calculate (calculator : Calculator) (expression : Option String) :
    (calculator.calculate expression).events =
      (calculator.parse expression).events ++
        CalcEvent.ofOutcome (calculator.calculate expression).value := by
  obtain ⟨cause, hread⟩ | ⟨text, tokens, -, hread⟩ := calculator.parse_value expression
  · simp only [calculate, hread, CalcEvent.ofOutcome, List.append_nil]
  · simp only [calculate, hread]
    cases evaluate tokens <;> rfl

/-- An expression that is read leaves its start, and then the error or the postfix sequence. -/
theorem map_entry_parseAdmitted (calculator : Calculator) (text : String) :
    (calculator.parseAdmitted text).events.map CalcEvent.entry =
      startEntry text ::
        match InfixCalc.parse text with
        | .error cause => [⟨.debug, "表达式解析失败", [("error", cause.message)]⟩]
        | .ok tokens => postfixEntries calculator.settings tokens := by
  rw [parseAdmitted]
  cases InfixCalc.parse text with
  | error cause => rfl
  | ok tokens =>
    simp only [postfixEntries]
    split <;> rfl

/-- **A calculation leaves the entries that go with its outcome.** -/
theorem records_calculate (calculator : Calculator) (expression : Option String) :
    calculator.Records expression (calculator.calculate expression).value
      ((calculator.calculate expression).events.map CalcEvent.entry) := by
  rw [events_calculate, value_calculate, List.map_append]
  -- in the order in which the calculator looks: missing, blank, too long, unreadable, no value
  match expression with
  | none => exact .missing
  | some text =>
    by_cases hblank : text.toList.all Text.isBlank
    · rw [parse_of_refused (checkArgument_of_blank hblank)]
      exact .blank hblank
    · cases hexceeded : calculator.settings.exceeded? text.length with
      | some limit =>
        obtain ⟨hlimit, hlong⟩ := Settings.exceeded?_eq_some_iff.1 hexceeded
        rw [parse_of_exceeded hblank hlimit hlong]
        exact .tooLong hblank (by rw [hlimit, Option.map_some]) hlong
      | none =>
        rw [parse_of_admits hblank (Settings.exceeded?_eq_none_iff.1 hexceeded),
          value_parseAdmitted, map_entry_parseAdmitted]
        cases hparse : InfixCalc.parse text with
        | error cause => exact .unreadable hparse (kind_of_parse hblank hparse)
        | ok tokens =>
          simp only [Except.mapError, Except.bind]
          cases hvalue : evaluate tokens with
          | error cause => exact .noValue hparse hvalue
          | ok value => exact .finished hparse hvalue

end Calculator

/-- **The events of checking a corpus** are those of its cases, one after another. -/
theorem Corpus.events_check (calculator : Calculator) (source text : String) :
    (check calculator source text).events =
      (read source text).cases.flatMap fun case =>
        (calculator.calculate case.expression).events := by
  simp only [check, List.flatMap_map]
  rfl

/-- **The log matches the outcome.**  A calculation leaves the entries that go with its outcome, and
no others; reading leaves the events of the calculation without that of the evaluation; and a corpus
leaves the events of its cases in their order. -/
theorem events_match_outcome :
    (∀ (calculator : Calculator) (expression : Option String) (entries : List LogEntry),
      calculator.Records expression (calculator.calculate expression).value entries ↔
        entries = (calculator.calculate expression).events.map CalcEvent.entry) ∧
    (∀ (calculator : Calculator) (expression : Option String),
      (calculator.calculate expression).events =
        (calculator.parse expression).events ++
          CalcEvent.ofOutcome (calculator.calculate expression).value) ∧
    ∀ (calculator : Calculator) (source text : String),
      (Corpus.check calculator source text).events =
        (Corpus.read source text).cases.flatMap fun case =>
          (calculator.calculate case.expression).events := by
  refine ⟨fun calculator expression entries => ⟨?_, ?_⟩, Calculator.events_calculate,
    Corpus.events_check⟩
  · exact fun h => h.unique (calculator.records_calculate expression)
  · rintro rfl
    exact calculator.records_calculate expression

/-- With a trace, a division by zero leaves three entries. -/
example : (Calculator.calculate ⟨⟨none, true⟩⟩ (some "1/0")).events.map CalcEvent.entry =
    [startEntry "1/0", ⟨.trace, "后缀序列", [("postfix", "1 0 /")]⟩,
      ⟨.debug, "后缀序列求值失败", [("error", "后缀序列第 2 个记号：1 除以零")]⟩] := by
  rfl

end InfixCalc
