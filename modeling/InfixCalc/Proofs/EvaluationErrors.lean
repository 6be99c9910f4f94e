/-
# Errors of evaluation

What was parsed is evaluated without any fault of the sequence: no operator misses an operand, and
one value is left.  A division by zero is all that can go wrong, and its index is that of a `/`.
The rule for a sign with one operand is used for a sign at the start of the text, and nowhere else.

So the errors of a calculation that have no position are those that cannot have one: there is no
character to point to in an argument that is missing, blank or too long, and a division by zero
is not found in the text (`CalcError.position?_eq_none_iff`).
-/

import InfixCalc.Proofs.Divisions
import InfixCalc.Proofs.Operands

namespace InfixCalc

/-- **What was parsed has a value**, unless one of its divisions divides by zero. -/
theorem evaluate_of_parse {text : String} {tokens : List Token} (h : parse text = .ok tokens) :
    (∃ value, evaluate tokens = .ok value) ∨
      ∃ dividend index, evaluate tokens = .error (.divideByZero dividend index) ∧
        tokens[index]? = some (.operator .div) := by
  obtain ⟨e, -, rfl⟩ := exists_derives_of_parse h
  rw [e.evaluate_tokens, e.value_eq_outcome, Division.outcome]
  cases hfind : (e.divisions false 0).find? (·.divisor = 0) with
  | none => exact .inl ⟨e.eval, rfl⟩
  | some division =>
    refine .inr ⟨division.dividend, division.index, rfl, ?_⟩
    have hindex : division.index ∈ (e.divisions false 0).map Division.index :=
      List.mem_map_of_mem (List.mem_of_find?_eq_some hfind)
    rw [e.index_divisions, Token.divisionIndices] at hindex
    obtain ⟨hlt, hdiv⟩ := List.mem_findIdxs_iff_exists_getElem_pos.1 hindex
    rw [List.getElem?_eq_getElem hlt, beq_iff_eq.1 hdiv]

/-- **A sign with one operand** is the sign at the start of the text. -/
theorem Expr.Derives.head?_of_alone {e : Expr} {text : List Char} (h : e.Derives text)
    {index : Nat} (halone : Evaluation.Alone (e.tokens false) index) :
    ∃ (sign : AddOp) (t : Term), e.leading? = some (sign, t) ∧ index = t.tokens.length ∧
      (e.tokens false)[index]? = some (.operator sign.operator) ∧
      (text.filter fun c => !Text.isBlank c).head? = some sign.operator.symbol := by
  obtain ⟨sign, t, hleading, rfl⟩ := e.leading?_of_alone halone
  refine ⟨sign, t, hleading, rfl, ?_, ?_⟩
  · obtain ⟨rest, htokens, -⟩ := e.tokens_of_leading? hleading
    rw [htokens, List.getElem?_append_right (Nat.le_refl _), Nat.sub_self]
    rfl
  · obtain ⟨rest, hlexemes⟩ := e.lexemes_of_leading? hleading
    rw [← h.flatMap_chars, hlexemes]
    rfl

/-- A calculator reads what is read without it. -/
theorem Calculator.parse_value (calculator : Calculator) (expression : Option String) :
    (∃ cause, (calculator.parse expression).value = .error (.parse cause)) ∨
      ∃ text tokens, InfixCalc.parse text = .ok tokens ∧
        (calculator.parse expression).value = .ok tokens := by
  unfold Calculator.parse
  cases checkArgument expression with
  | error cause => exact .inl ⟨_, rfl⟩
  | ok text =>
    cases hlimit : calculator.settings.exceeded? text.length with
    | some limit =>
      refine .inl ⟨.invalidArgument (.tooLong text.length limit.toNat), ?_⟩
      simp only [hlimit]
    | none =>
      simp only [hlimit, Calculator.parseAdmitted]
      cases hparse : InfixCalc.parse text with
      | error cause => exact .inl ⟨cause, rfl⟩
      | ok tokens => exact .inr ⟨text, tokens, hparse, rfl⟩

/-- A calculation fails in reading, or in a division by zero. -/
theorem Calculator.calculate_error {calculator : Calculator} {expression : Option String}
    {err : CalcError} (h : (calculator.calculate expression).value = .error err) :
    (∃ cause, err = .parse cause) ∨
      ∃ dividend index, err = .eval (.divideByZero dividend index) := by
  unfold Calculator.calculate at h
  obtain ⟨cause, hread⟩ | ⟨text, tokens, hparse, hread⟩ :=
    calculator.parse_value expression
  · simp only [hread] at h
    cases h
    exact .inl ⟨cause, rfl⟩
  · simp only [hread] at h
    obtain ⟨value, hvalue⟩ | ⟨dividend, index, hvalue, -⟩ := evaluate_of_parse hparse
    · rw [hvalue] at h
      cases h
    · rw [hvalue] at h
      cases h
      exact .inr ⟨dividend, index, rfl⟩

/-- The errors without a position, among those that a calculation can have. -/
theorem CalcError.position?_eq_none_iff {err : CalcError}
    (h : (∃ cause, err = .parse cause) ∨
      ∃ dividend index, err = .eval (.divideByZero dividend index)) :
    err.position? = none ↔ err.kind = .invalidArgument ∨ err.kind = .divideByZero := by
  obtain ⟨cause, rfl⟩ | ⟨dividend, index, rfl⟩ := h
  · cases cause <;> simp [position?, kind, ParseError.position?, ParseError.kind]
  · simp [position?, kind, EvalError.kind]

/-- **No fault of the sequence.**  What was parsed has a value or divides by zero at a `/`; a sign
has its operand alone at one index at most, and is then the sign at the start of the text.  An
error of a calculation has no position exactly if its kind is that of a bad argument or of a
division by zero. -/
theorem evaluate_parsed :
    (∀ (text : String) (tokens : List Token), parse text = .ok tokens →
      ((∃ value, evaluate tokens = .ok value) ∨
        ∃ dividend index, evaluate tokens = .error (.divideByZero dividend index) ∧
          tokens[index]? = some (.operator .div)) ∧
      ∃ e : Expr, e.Derives text.toList ∧ tokens = e.tokens false ∧
        ∀ index, Evaluation.Alone tokens index →
          ∃ (sign : AddOp) (t : Term), e.leading? = some (sign, t) ∧ index = t.tokens.length ∧
            tokens[index]? = some (.operator sign.operator) ∧
            (text.toList.filter fun c => !Text.isBlank c).head? = some sign.operator.symbol) ∧
    ∀ (calculator : Calculator) (expression : Option String) (err : CalcError),
      (calculator.calculate expression).value = .error err →
        (err.position? = none ↔ err.kind = .invalidArgument ∨ err.kind = .divideByZero) := by
  refine ⟨fun text tokens h => ⟨evaluate_of_parse h, ?_⟩, fun calculator expression err h => ?_⟩
  · obtain ⟨e, hd, rfl⟩ := exists_derives_of_parse h
    exact ⟨e, hd, rfl, fun index halone => hd.head?_of_alone halone⟩
  · exact CalcError.position?_eq_none_iff (Calculator.calculate_error h)

/-- In `-(2+1)/3` the sign has its operand alone, and in `1/0` the error has no position. -/
theorem evaluate_leading_sign :
    Evaluation.Alone [.number 2, .number 1, .operator .add, .number 3, .operator .div,
      .operator .sub] 5 ∧
    (∃ (e : Expr) (sign : AddOp) (t : Term), e.Derives "-(2+1)/3".toList ∧
      e.leading? = some (sign, t) ∧ 5 = t.tokens.length ∧ sign.operator.symbol = '-') ∧
    (calculate (some "1/0") = .error (.eval (.divideByZero 1 2)) ∧
      (CalcError.eval (.divideByZero 1 2)).position? = none) := by
  have hparse : parse "-(2+1)/3" = .ok [.number 2, .number 1, .operator .add, .number 3,
      .operator .div, .operator .sub] := rfl
  have halone : Evaluation.Alone [.number 2, .number 1, .operator .add, .number 3,
      .operator .div, .operator .sub] 5 := ⟨.sub, 1, rfl, rfl⟩
  have herror : calculate (some "1/0") = .error (.eval (.divideByZero 1 2)) := rfl
  obtain ⟨-, e, hd, -, hsign⟩ := evaluate_parsed.1 "-(2+1)/3" _ hparse
  obtain ⟨sign, t, hleading, hindex, -, hhead⟩ := hsign 5 halone
  have hfirst : some '-' = some sign.operator.symbol := hhead
  have hnone := evaluate_parsed.2 {} (some "1/0") (.eval (.divideByZero 1 2)) herror
  exact ⟨halone, ⟨e, sign, t, hd, hleading, hindex, (Option.some.inj hfirst).symm⟩, herror,
    hnone.2 (.inr rfl)⟩

end InfixCalc
