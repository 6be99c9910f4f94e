/-
# Parentheses around a whole expression

A sign at the start of a text has its operand alone; the same sign at the start of a group has a
zero before its operand.  The two say the same.  In parentheses, the postfix sequence of an
expression has one zero more in front if the expression starts with a sign, and is the same
otherwise (`Expr.tokens_true`).  Its value is the same too, but for the index of an error, which
counts the zero (`Expr.value_true`).

An expression in parentheses does not start with a sign, so more parentheses make no difference.
-/

import InfixCalc.Proofs.EvaluationErrors
import InfixCalc.Proofs.Shift

namespace InfixCalc

/-- The first character that is no blank is a sign. -/
def startsWithSign (text : List Char) : Bool :=
  (text.find? fun c => !Text.isBlank c).any fun c => c == '+' || c == '-'

/-- The text in as many pairs of parentheses. -/
def enclose : Nat → String → String
  | 0, text => text
  | pairs + 1, text => "(" ++ enclose pairs text ++ ")"

/-- The first character of a lexeme tells whether it is an operator. -/
theorem Lexeme.WellFormed.head_eq_symbol_iff {lexeme : Lexeme} (hw : lexeme.WellFormed)
    (op : Operator) : lexeme.head = op.symbol ↔ lexeme = .operator op := by
  rw [← CharClass.of_eq_operator_iff]
  cases lexeme with
  | literal first more =>
    have hdigit := CharClass.of_eq_digit_iff.2 (hw first List.mem_cons_self)
    simp [head, hdigit]
  | openParen => simp [head, CharClass.of_eq_openParen_iff.2]
  | closeParen => simp [head, CharClass.of_eq_closeParen_iff.2]
  | operator op' =>
    have hoperator : CharClass.of op'.symbol = .operator op' := CharClass.of_eq_operator_iff.2 rfl
    simp [head, hoperator]
  | unknown c =>
    have hother : CharClass.of c = .other := hw
    simp [head, hother]

/-- The first character of a text that is no blank is that of its first lexeme. -/
theorem Lexeme.Spells.find?_eq {text : List Char} {lexemes : List Lexeme}
    (h : Spells text lexemes) :
    (text.find? fun c => !Text.isBlank c) = lexemes.head?.map Lexeme.head := by
  rw [← List.head?_filter, ← h.flatMap_chars]
  cases lexemes with
  | nil => rfl
  | cons first rest => cases first <;> rfl

/-- A sign starts a text exactly if it is the first lexeme. -/
theorem Lexeme.Spells.startsWithSign_iff {text : List Char} {lexemes : List Lexeme}
    (h : Spells text lexemes) :
    startsWithSign text ↔ ∃ sign : AddOp, lexemes.head? = some (.operator sign.operator) := by
  rw [startsWithSign, h.find?_eq]
  cases lexemes with
  | nil => simp
  | cons first rest =>
    have hw := h.wellFormed first List.mem_cons_self
    have hplus : first.head = '+' ↔ first = .operator .add := hw.head_eq_symbol_iff .add
    have hminus : first.head = '-' ↔ first = .operator .sub := hw.head_eq_symbol_iff .sub
    simp only [List.head?_cons, Option.map_some, Option.any_some, Bool.or_eq_true, beq_iff_eq,
      hplus, hminus, Option.some.injEq]
    constructor
    · rintro (rfl | rfl)
      · exact ⟨.plus, rfl⟩
      · exact ⟨.minus, rfl⟩
    · rintro ⟨sign, rfl⟩
      cases sign
      · exact .inl rfl
      · exact .inr rfl

/-- A term does not start with an operator. -/
theorem Term.head?_lexemes (t : Term) (rest : List Lexeme) (op : Operator) :
    (t.lexemes ++ rest).head? ≠ some (.operator op) := by
  match t with
  | .factor (.literal l) => simp [Term.lexemes, Factor.lexemes]
  | .factor (.group inner) => simp [Term.lexemes, Factor.lexemes]
  | .more left op' right =>
    rw [Term.lexemes, List.append_assoc]
    exact left.head?_lexemes _ op

/-- Without a sign at the start, an expression does not start with an operator. -/
theorem Expr.head?_lexemes_of_leading?_eq_none {e : Expr} (h : e.leading? = none)
    (rest : List Lexeme) (op : Operator) : (e.lexemes ++ rest).head? ≠ some (.operator op) := by
  match e with
  | .term t => exact t.head?_lexemes rest op
  | .more left op' right =>
    rw [Expr.lexemes, List.append_assoc]
    exact left.head?_lexemes_of_leading?_eq_none h _ op

/-- **A text starts with a sign** exactly if its derivation does. -/
theorem Expr.Derives.startsWithSign_eq {e : Expr} {text : List Char} (h : e.Derives text) :
    startsWithSign text = e.leading?.isSome := by
  rw [Bool.eq_iff_iff, Lexeme.Spells.startsWithSign_iff h]
  cases hleading : e.leading? with
  | none =>
    refine iff_of_false ?_ (by simp)
    rintro ⟨sign, hsign⟩
    refine e.head?_lexemes_of_leading?_eq_none hleading [] sign.operator ?_
    rwa [List.append_nil]
  | some leading =>
    obtain ⟨sign, t⟩ := leading
    obtain ⟨rest, hlexemes⟩ := e.lexemes_of_leading? hleading
    exact iff_of_true ⟨sign, by rw [hlexemes]; rfl⟩ rfl

/-- **In parentheses** a sign at the start has a zero before its operand, which comes first. -/
theorem Expr.tokens_true (e : Expr) :
    e.tokens true = signOperand e.leading?.isSome ++ e.tokens false := by
  cases e with
  | term t => rfl
  | signed sign t => simp [Expr.tokens, Expr.leading?, signOperand]
  | more left op right =>
    rw [Expr.tokens, Expr.tokens, left.tokens_true, Expr.leading?]
    simp only [List.append_assoc]

/-- **In parentheses** an expression has the value that it has without them, and an error counts
the zero before a sign at the start. -/
theorem Expr.value_true (e : Expr) (index : Nat) :
    e.value true index = e.value false (index + (signOperand e.leading?.isSome).length) := by
  cases e with
  | term t => exact congrArg (fun i => t.value i) (Nat.add_zero index).symm
  | signed sign t => rfl
  | more left op right =>
    rw [Expr.value, Expr.value, left.value_true, left.tokens_true, Expr.leading?,
      List.length_append, Nat.add_assoc]

/-- The expression in parentheses. -/
def Expr.enclosed (e : Expr) : Expr := .term (.factor (.group e))

/-- The text in parentheses is derived by the tree in parentheses. -/
theorem Expr.Derives.enclosed {e : Expr} {text : List Char} (h : e.Derives text) :
    e.enclosed.Derives ('(' :: (text ++ [')'])) := by
  refine Lexeme.spells_iff.2 ?_
  rw [Lexeme.read, Lexeme.readFrom_group, List.map_cons, List.map_append, h.map_readFrom,
    Lexeme.readFrom_nil]
  rfl

/-- **Parsing in parentheses:** one zero more for a sign at the start, and nothing else. -/
theorem parse_enclosed {text : String} {tokens : List Token} (h : parse text = .ok tokens) :
    parse ("(" ++ text ++ ")") = .ok (signOperand (startsWithSign text.toList) ++ tokens) := by
  obtain ⟨e, hd, rfl⟩ := exists_derives_of_parse h
  have htext : ("(" ++ text ++ ")").toList = '(' :: (text.toList ++ [')']) := by
    simp [String.toList_append]
  have hd' : e.enclosed.Derives ("(" ++ text ++ ")").toList := htext ▸ hd.enclosed
  rw [hd.startsWithSign_eq, ← e.tokens_true]
  exact hd'.parse_eq_ok

/-- **Calculating in parentheses:** the index of an error counts the zero for a sign at the start,
and nothing else changes. -/
theorem calculate_enclosed {text : String} {tokens : List Token} (h : parse text = .ok tokens) :
    calculate (some ("(" ++ text ++ ")")) =
      ((evaluate tokens).mapError
        (.shift (signOperand (startsWithSign text.toList)).length)).mapError .eval := by
  rw [calculate_of_parse (parse_enclosed h)]
  congr 1
  obtain ⟨e, hd, rfl⟩ := exists_derives_of_parse h
  rw [hd.startsWithSign_eq, ← e.tokens_true, e.evaluate_tokens, ← Expr.value_add, ← Expr.value_true]
  exact e.enclosed.evaluate_tokens

/-- More parentheses make no difference. -/
theorem parse_enclose {text : String} {tokens : List Token} (h : parse text = .ok tokens)
    (pairs : Nat) :
    parse (enclose (pairs + 1) text) =
      .ok (signOperand (startsWithSign text.toList) ++ tokens) := by
  induction pairs with
  | zero => exact parse_enclosed h
  | succ pairs ih =>
    have hunsigned : startsWithSign (enclose (pairs + 1) text).toList = false := by
      have hopen : startsWithSign ('(' :: ((enclose pairs text).toList ++ [')'])) = false := rfl
      simpa [enclose] using hopen
    rw [enclose, parse_enclosed ih, hunsigned]
    rfl

/-- **A whole expression in parentheses** is parsed to the same sequence, but for a zero in front
if it starts with a sign.  It has the same value, or divides the same dividend by zero at an index
that counts the zero.  Further parentheses change nothing. -/
theorem calculate_parentheses {text : String} {tokens : List Token} (h : parse text = .ok tokens) :
    parse ("(" ++ text ++ ")") =
        .ok (if startsWithSign text.toList then .number 0 :: tokens else tokens) ∧
      ((∃ value, calculate (some text) = .ok value ∧
          calculate (some ("(" ++ text ++ ")")) = .ok value) ∨
        ∃ dividend index, calculate (some text) = .error (.eval (.divideByZero dividend index)) ∧
          calculate (some ("(" ++ text ++ ")")) = .error (.eval (.divideByZero dividend
            (if startsWithSign text.toList then index + 1 else index)))) ∧
      ∀ pairs, parse (enclose (pairs + 1) text) = parse (enclose 1 text) ∧
        calculate (some (enclose (pairs + 1) text)) = calculate (some (enclose 1 text)) := by
  refine ⟨?_, ?_, fun pairs => ⟨?_, ?_⟩⟩
  · rw [parse_enclosed h]
    cases startsWithSign text.toList <;> rfl
  · rw [calculate_of_parse h, calculate_enclosed h]
    obtain ⟨value, hvalue⟩ | ⟨dividend, index, hvalue, -⟩ := evaluate_of_parse h
    · exact .inl ⟨value, by rw [hvalue]; rfl, by rw [hvalue]; rfl⟩
    · refine .inr ⟨dividend, index, by rw [hvalue]; rfl, ?_⟩
      rw [hvalue]
      cases startsWithSign text.toList <;> rfl
  · rw [parse_enclose h pairs, parse_enclose h 0]
  · rw [calculate_of_parse (parse_enclose h pairs), calculate_of_parse (parse_enclose h 0)]

/-- In `(-6/(1-1))` the zero of the sign moves the division by one, and in `((-6/(1-1)))` no
further. -/
theorem calculate_parentheses_signed :
    parse "-6/(1-1)" = .ok [.number 6, .number 1, .number 1, .operator .sub, .operator .div,
        .operator .sub] ∧
      parse "(-6/(1-1))" = .ok [.number 0, .number 6, .number 1, .number 1, .operator .sub,
        .operator .div, .operator .sub] ∧
      calculate (some "-6/(1-1)") = .error (.eval (.divideByZero 6 4)) ∧
      calculate (some "(-6/(1-1))") = .error (.eval (.divideByZero 6 5)) ∧
      calculate (some "((-6/(1-1)))") = .error (.eval (.divideByZero 6 5)) := by
  have hparse : parse "-6/(1-1)" = .ok [.number 6, .number 1, .number 1, .operator .sub,
      .operator .div, .operator .sub] := rfl
  have hcalculate : calculate (some "-6/(1-1)") = .error (.eval (.divideByZero 6 4)) := rfl
  obtain ⟨henclosed, hvalue, hmore⟩ := calculate_parentheses hparse
  have hsigned : startsWithSign "-6/(1-1)".toList = true := rfl
  rw [hsigned] at henclosed hvalue
  obtain ⟨value, hok, -⟩ | ⟨dividend, index, herror, hshifted⟩ := hvalue
  · rw [hcalculate] at hok
    cases hok
  · rw [hcalculate] at herror
    cases herror
    exact ⟨hparse, henclosed, hcalculate, hshifted, (hmore 1).2.trans hshifted⟩

end InfixCalc
