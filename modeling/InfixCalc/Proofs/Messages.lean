/-
# Messages of more than one line

The message of an error is made of words, numbers, operators and digits, and of what it quotes.
Only the error of an unexpected character quotes a character of any kind, so the message has a line
feed exactly if a line feed is unexpected (`oneLine_message_of_postfixOf`).

No line feed is unexpected where it stands, since blanks may stand everywhere.  But an operand that
is missing at the end is reported at the last character, blank or not.  So the message of a
calculation has a line feed exactly if the expression ends behind an operator or an opening
parenthesis and with a line feed (`BreaksOff`, **`Calculator.oneLine_message_iff`**).
-/

import InfixCalc.Corpus
import InfixCalc.Proofs.Drawing
import InfixCalc.Proofs.Numerals

namespace InfixCalc

/-- An operand is missing at the end of the text, which is otherwise in order, and a line feed is
its last character. -/
def BreaksOff (text : List Char) : Prop :=
  Viable text ∧ text.getLast? = some '\n' ∧
    ∃ c ∈ (text.filter fun c => !Text.isBlank c).getLast?, AwaitsOperand c

section BreaksOff

variable {text : List Char}

/-- A blank may stand behind everything. -/
theorem Live.append_blank (h : Live text) {c : Char} (hc : Text.isBlank c) :
    Live (text ++ [c]) := by
  obtain ⟨draft, hrun⟩ := h
  have hdigit : ¬ c.isDigit := by
    intro hdigit
    rw [CharClass.isBlank_of_isDigit hdigit] at hc
    cases hc
  have hread : Lexeme.readFrom text.length [c] = [] := by
    rw [Lexeme.readFrom_cons, Placed.consChar, CharClass.of_eq_separator_iff.2 hc,
      Lexeme.readFrom_nil]
  have hcut : ∀ d ∈ [c].head?, ¬ d.isDigit := fun d hd => Option.some.inj hd ▸ hdigit
  refine ⟨draft, ?_⟩
  rw [Lexeme.read_append (.inr hcut), hread, List.append_nil]
  exact hrun

/-- No blank is unexpected where it stands. -/
theorem not_stopsAt_of_blank {place : Nat} (hlive : Live (text.take place))
    (hdead : ¬ Live (text.take (place + 1))) {c : Char} (hc : Text.isBlank c) (p : Nat) :
    ¬ StopsAt text place (.unexpected c p) := by
  rintro (⟨-, start, run, -, -, -, heq⟩ | ⟨-, d, hd, heq⟩)
  · cases heq
  · obtain ⟨rfl, rfl⟩ := ParseError.unexpected.inj heq
    refine hdead ?_
    rw [List.take_add_one, hd]
    exact hlive.append_blank hc

/-- A text that breaks off is not blank. -/
theorem BreaksOff.not_blank (h : BreaksOff text) : ¬ text.all Text.isBlank := by
  obtain ⟨-, -, c, hc, -⟩ := h
  exact not_all_isBlank hc

/-- **A line feed is unexpected** exactly if the text breaks off. -/
theorem unexpected_lineFeed_iff (hblank : ¬ text.all Text.isBlank) :
    (∃ place, postfixOf text = .error (.unexpected '\n' place)) ↔ BreaksOff text := by
  constructor
  · rintro ⟨place, he⟩
    obtain ⟨stop, hlive, hdead, hstops⟩ | ⟨hlive, c, hc, hends⟩ := stopsAt_or_endsEarly hblank he
    · exact absurd hstops (not_stopsAt_of_blank hlive hdead (by decide) place)
    · obtain ⟨hawaits, d, hd, heq⟩ | ⟨-, q, -, -, heq⟩ := hends
      · obtain ⟨rfl, -⟩ := ParseError.unexpected.inj heq
        exact ⟨viable_iff_live.2 hlive, hd, c, hc, hawaits⟩
      · exact absurd (ParseError.unexpected.inj heq).1 (by decide)
  · rintro ⟨hviable, hlast, c, hc, hawaits⟩
    obtain ⟨d, hd, he⟩ := postfixOf_of_awaitsOperand (viable_iff_live.1 hviable) hc hawaits
    obtain rfl : '\n' = d := Option.some.inj (hlast.symm.trans hd)
    exact ⟨_, he⟩

/-- **A calculation fails at a line feed** exactly if the settings admit the expression and it
breaks off. -/
theorem Calculator.unexpected_lineFeed_iff {calculator : Calculator} {expression : String} :
    (∃ place, (calculator.calculate (some expression)).value =
        .error (.parse (.unexpected '\n' place))) ↔
      calculator.settings.Admits expression.length ∧ BreaksOff expression.toList := by
  constructor
  · rintro ⟨place, h⟩
    obtain ⟨cause, heq⟩ | ⟨cause, heq⟩ | ⟨cause, heq, hblank, hadmits, hcause⟩ :=
      cases_of_calculate_error h
    · cases heq
    · cases heq
    · obtain rfl := CalcError.parse.inj heq
      exact ⟨hadmits, (InfixCalc.unexpected_lineFeed_iff hblank).1 ⟨place, hcause⟩⟩
  · rintro ⟨hadmits, hbreaks⟩
    obtain ⟨place, he⟩ := (InfixCalc.unexpected_lineFeed_iff hbreaks.not_blank).2 hbreaks
    refine ⟨place, value_calculate_of_error ?_⟩
    rw [parse_of_admits hbreaks.not_blank hadmits, value_parseAdmitted, parse_eq,
      if_neg hbreaks.not_blank, he]
    rfl

end BreaksOff

/-- The text has no line feed. -/
def OneLine (text : String) : Prop := '\n' ∉ text.toList

instance (text : String) : Decidable (OneLine text) := inferInstanceAs (Decidable ('\n' ∉ _))

section Message

/-- Characters without a line feed make one line. -/
theorem oneLine_ofList {text : List Char} (h : '\n' ∉ text) : OneLine (String.ofList text) := by
  rwa [OneLine, String.toList_ofList]

/-- Two texts make one line if both are on one line. -/
theorem oneLine_append_iff {first second : String} :
    OneLine (first ++ second) ↔ OneLine first ∧ OneLine second := by
  rw [OneLine, String.toList_append, List.mem_append, not_or]
  rfl

/-- A number is written on one line. -/
theorem oneLine_toString (n : Nat) : OneLine (toString n) := by
  intro hmem
  rw [Nat.toString_eq_repr, Nat.toList_repr] at hmem
  exact absurd (Decimal.isDigit_of_mem_toDigits hmem) (by decide)

/-- So is an integer with its sign. -/
theorem oneLine_ofInt32 (n : Int32) : OneLine (Decimal.ofInt32 n) := by
  intro hmem
  rcases Decimal.of_mem_ofInt32 hmem with heq | hdigit
  · exact absurd heq (by decide)
  · exact absurd hdigit (by decide)

/-- Only the line feed is not on one line. -/
theorem oneLine_singleton_iff {c : Char} : OneLine (String.singleton c) ↔ c ≠ '\n' := by
  rw [OneLine, String.toList_singleton, List.mem_singleton, ne_comm]

/-- An operator is written on one line. -/
theorem Operator.oneLine_text (op : Operator) : OneLine op.text := by
  rw [text, oneLine_singleton_iff]
  cases op <;> decide

/-- What is wrong with an argument is said on one line. -/
theorem ArgumentError.oneLine_message : ∀ cause : ArgumentError, OneLine cause.message
  | missing => oneLine_ofList (by decide)
  | blank => oneLine_ofList (by decide)
  | tooLong length limit => by
    have hmessage : message (tooLong length limit) =
        "表达式长度 " ++ toString length ++ " 超出上限 " ++ toString limit := rfl
    simp only [hmessage, oneLine_append_iff]
    exact ⟨⟨⟨oneLine_ofList (by decide), oneLine_toString length⟩, oneLine_ofList (by decide)⟩,
      oneLine_toString limit⟩

/-- Most messages name a number and then something else. -/
theorem oneLine_numbered {before between what after : String} (n : Nat) (hbefore : OneLine before)
    (hbetween : OneLine between) (hwhat : OneLine what) (hafter : OneLine after) :
    OneLine (before ++ toString n ++ between ++ what ++ after) := by
  simp only [oneLine_append_iff]
  exact ⟨⟨⟨⟨hbefore, oneLine_toString n⟩, hbetween⟩, hwhat⟩, hafter⟩

/-- The errors of evaluation name operators and numbers. -/
theorem EvalError.oneLine_message : ∀ cause : EvalError, OneLine cause.message
  | noOperand op index =>
    oneLine_numbered index (oneLine_ofList (by decide)) (oneLine_ofList (by decide))
      op.oneLine_text (oneLine_ofList (by decide))
  | noLeftOperand op index =>
    oneLine_numbered index (oneLine_ofList (by decide)) (oneLine_ofList (by decide))
      op.oneLine_text (oneLine_ofList (by decide))
  | leftover count => by
    have hmessage : message (leftover count) =
        "后缀序列不完整：求值结束后残留 " ++ toString count ++ " 个值" := rfl
    simp only [hmessage, oneLine_append_iff]
    exact ⟨⟨oneLine_ofList (by decide), oneLine_toString count⟩, oneLine_ofList (by decide)⟩
  | empty => oneLine_ofList (by decide)
  | divideByZero dividend index =>
    oneLine_numbered index (oneLine_ofList (by decide)) (oneLine_ofList (by decide))
      (oneLine_ofInt32 dividend) (oneLine_ofList (by decide))

/-- An unexpected character is quoted as it is. -/
theorem ParseError.oneLine_unexpected_iff {found : Char} {position : Nat} :
    OneLine (message (unexpected found position)) ↔ found ≠ '\n' := by
  have hmessage : message (unexpected found position) =
      "位置 " ++ toString position ++ " 处出现意外的字符 '" ++ String.singleton found ++ "'" := rfl
  constructor
  · intro h
    simp only [hmessage, oneLine_append_iff] at h
    exact oneLine_singleton_iff.1 h.1.2
  · intro hfound
    exact oneLine_numbered position (oneLine_ofList (by decide)) (oneLine_ofList (by decide))
      (oneLine_singleton_iff.2 hfound) (oneLine_ofList (by decide))

/-- A literal that is too large is named on one line, as it has digits only. -/
theorem ParseError.oneLine_overflow {literal : String} (h : ∀ c ∈ literal.toList, c.isDigit)
    (position : Nat) : OneLine (message (overflow literal position)) := by
  have hliteral : OneLine literal := fun hmem => absurd (h _ hmem) (by decide)
  exact oneLine_numbered position (oneLine_ofList (by decide)) (oneLine_ofList (by decide)) hliteral
    (oneLine_ofList (by decide))

/-- A reading error is on one line if its cause is. -/
theorem CalcError.oneLine_parse_iff {cause : ParseError} :
    OneLine (message (parse cause)) ↔ OneLine cause.message := by
  have hmessage : message (parse cause) = "解析错误: " ++ cause.message := rfl
  have hstage : OneLine "解析错误: " := oneLine_ofList (by decide)
  rw [hmessage, oneLine_append_iff, and_iff_right hstage]

/-- Every evaluation error is on one line. -/
theorem CalcError.oneLine_eval (cause : EvalError) : OneLine (message (eval cause)) := by
  have hmessage : message (eval cause) = "求值错误: " ++ cause.message := rfl
  rw [hmessage, oneLine_append_iff]
  exact ⟨oneLine_ofList (by decide), cause.oneLine_message⟩

/-- Every argument error is on one line. -/
theorem CalcError.oneLine_invalidArgument (cause : ArgumentError) :
    OneLine (message (parse (.invalidArgument cause))) := by
  have hmessage : ParseError.message (.invalidArgument cause) = "参数无效: " ++ cause.message := rfl
  rw [oneLine_parse_iff, hmessage, oneLine_append_iff]
  exact ⟨oneLine_ofList (by decide), cause.oneLine_message⟩

/-- What the message of a line error quotes. -/
def LineError.quoted : LineError → List Char
  | unknownExpectation text => text.toList
  | badEscape (.unknown c) => [c]
  | noSeparator | badEscape .unfinished => []

/-- What is wrong with a line is said on one line, unless it quotes a line feed. -/
theorem LineError.oneLine_message :
    ∀ {cause : LineError}, '\n' ∉ cause.quoted → OneLine cause.message
  | noSeparator, _ => oneLine_ofList (by decide)
  | badEscape .unfinished, _ =>
    have hline : OneLine "转义序列不完整" := oneLine_ofList (by decide)
    hline
  | unknownExpectation text, h => by
    have hmessage : message (unknownExpectation text) = "无法识别的期望结果: '" ++ text ++ "'" := rfl
    simp only [hmessage, oneLine_append_iff]
    exact ⟨⟨oneLine_ofList (by decide), h⟩, oneLine_ofList (by decide)⟩
  | badEscape (.unknown c), h => by
    have hc : c ≠ '\n' := fun heq => h (List.mem_singleton.2 heq.symm)
    have hmessage : message (badEscape (.unknown c)) =
        "未知的转义序列: '\\" ++ String.singleton c ++ "'" := rfl
    simp only [hmessage, oneLine_append_iff]
    exact ⟨⟨oneLine_ofList (by decide), oneLine_singleton_iff.2 hc⟩, oneLine_ofList (by decide)⟩

/-- **The message of an error of reading** has a line feed exactly if one is unexpected. -/
theorem oneLine_message_of_postfixOf {text : List Char} (hblank : ¬ text.all Text.isBlank)
    {cause : ParseError} (h : postfixOf text = .error cause) :
    OneLine cause.message ↔ ∀ place, cause ≠ .unexpected '\n' place := by
  cases cause with
  | invalidArgument cause => exact (located_of_error hblank h).elim
  | unexpected found position =>
    rw [ParseError.oneLine_unexpected_iff]
    constructor
    · rintro hfound place ⟨⟩
      exact hfound rfl
    · rintro hne rfl
      exact hne position rfl
  | overflow literal position =>
    have hline := ParseError.oneLine_overflow (forall_isDigit_of_overflow hblank h) position
    exact iff_of_true hline fun place heq => by cases heq

/-- **The message of a calculation** has a line feed exactly if the expression breaks off. -/
theorem Calculator.oneLine_message_iff {calculator : Calculator} {text : String}
    {err : CalcError} (h : (calculator.calculate (some text)).value = .error err) :
    OneLine err.message ↔ ¬ (calculator.settings.Admits text.length ∧ BreaksOff text.toList) := by
  rw [← unexpected_lineFeed_iff, not_exists, h]
  obtain ⟨cause, rfl⟩ | ⟨cause, rfl⟩ | ⟨cause, rfl, hblank, -, hcause⟩ := cases_of_calculate_error h
  · exact iff_of_true (CalcError.oneLine_eval cause) fun place heq => by cases heq
  · exact iff_of_true (CalcError.oneLine_invalidArgument cause) fun place heq => by cases heq
  · rw [CalcError.oneLine_parse_iff, oneLine_message_of_postfixOf hblank hcause]
    simp only [Except.error.injEq, CalcError.parse.injEq, ne_eq]

end Message

end InfixCalc
