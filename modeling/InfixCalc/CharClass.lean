/-
# Character classes

The characters of an expression fall into six classes.  Blanks separate lexemes, the ASCII
digits form literals, parentheses and the four operators stand for themselves, and no other
character has a place in an expression.
-/

import InfixCalc.Token
import InfixCalc.Text.Blank

namespace InfixCalc

/-- What a character can be part of. -/
inductive CharClass where
  | separator
  | digit
  | openParen
  | closeParen
  | operator (op : Operator)
  | other
  deriving DecidableEq, Repr, Inhabited

namespace CharClass

/-- The class of a character. -/
def of (c : Char) : CharClass :=
  if Text.isBlank c then separator
  else if c.isDigit then digit
  else if c = '(' then openParen
  else if c = ')' then closeParen
  else match Operator.ofChar? c with
    | some op => operator op
    | none => other

/-- The name of a class; an operator's class tells which operator. -/
def name : CharClass → String
  | separator => "separator"
  | digit => "digit"
  | openParen => "open"
  | closeParen => "close"
  | operator op => "operator " ++ op.text
  | other => "other"

/-- A digit is no blank. -/
theorem isBlank_of_isDigit {c : Char} (h : c.isDigit) : Text.isBlank c = false := by
  simp only [Char.isDigit, Bool.and_eq_true, decide_eq_true_eq, ge_iff_le,
    UInt32.le_iff_toNat_le] at h
  obtain ⟨h₀, h₉⟩ := h
  change 48 ≤ c.toNat at h₀
  change c.toNat ≤ 57 at h₉
  rw [Text.isBlank, ← Bool.not_eq_true]
  intro hc
  simp only [Text.inRanges, Text.blankRanges, List.any_cons, List.any_nil, Bool.or_eq_true,
    Bool.and_eq_true, decide_eq_true_eq, Bool.false_eq_true, or_false] at hc
  omega

/-- The separators are the blanks. -/
theorem of_eq_separator_iff {c : Char} : of c = .separator ↔ Text.isBlank c := by
  grind [of]

/-- The digits are the decimal digits of ASCII. -/
theorem of_eq_digit_iff {c : Char} : of c = .digit ↔ c.isDigit := by
  have hb := isBlank_of_isDigit (c := c)
  grind [of]

/-- Only one character opens a group. -/
theorem of_eq_openParen_iff {c : Char} : of c = .openParen ↔ c = '(' := by
  have hp : of '(' = .openParen := by decide
  constructor
  · grind [of]
  · rintro rfl
    exact hp

/-- Only one character closes a group. -/
theorem of_eq_closeParen_iff {c : Char} : of c = .closeParen ↔ c = ')' := by
  have hp : of ')' = .closeParen := by decide
  constructor
  · grind [of]
  · rintro rfl
    exact hp

/-- An operator is written as its symbol and in no other way. -/
theorem of_eq_operator_iff {c : Char} {op : Operator} : of c = .operator op ↔ c = op.symbol := by
  have hs : of op.symbol = .operator op := by cases op <;> decide
  constructor
  · grind [of, Operator.ofChar?_eq_some_iff]
  · rintro rfl
    exact hs

end CharClass
end InfixCalc
