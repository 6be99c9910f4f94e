/-
# The value of an expression, and its divisions

`Expr.eval` is the value of an expression where no division by zero matters: every operator gives
what it gives on the integers, reduced to 32 bits, and a sign works on zero and its whole term.
Division truncates toward zero; the one quotient that does not fit, that of the least integer by
`-1`, is reduced to the least integer again.

`Expr.divisions` lists the divisions of an expression with their operands, in the order in which
their operators stand in the postfix sequence (`Expr.index_divisions`).  The first of them that
divides by zero decides, if there is one (`Expr.value_eq_outcome`): all operands on the way to it
have values without a division by zero.
-/

import InfixCalc.Calculator
import InfixCalc.Expr.Value
import InfixCalc.Proofs.Derivation
import Mathlib.Data.List.Basic

namespace InfixCalc

/-- What the operator gives on the integers, reduced to 32 bits. -/
def AddOp.eval (a b : Int32) : AddOp → Int32
  | plus => Int32.ofInt (a.toInt + b.toInt)
  | minus => Int32.ofInt (a.toInt - b.toInt)

/-- What the operator gives on the integers, reduced to 32 bits; nothing of interest for a
division by zero. -/
def MulOp.eval (a b : Int32) : MulOp → Int32
  | times => Int32.ofInt (a.toInt * b.toInt)
  | dividedBy => Int32.ofInt (a.toInt.tdiv b.toInt)

mutual

/-- The value of a factor. -/
def Factor.eval : Factor → Int32
  | .literal l => l.value
  | .group inner => inner.eval

/-- The value of a term. -/
def Term.eval : Term → Int32
  | .factor f => f.eval
  | .more left op right => op.eval left.eval right.eval

/-- The value of an expression. -/
def Expr.eval : Expr → Int32
  | .term t => t.eval
  | .signed sign t => sign.eval 0 t.eval
  | .more left op right => op.eval left.eval right.eval

end

/-- A division: its operands, and the index of its operator in a postfix sequence. -/
structure Division where
  dividend : Int32
  divisor : Int32
  index : Nat

/-- The operator as a division, if it is one. -/
def MulOp.divisions (index : Nat) (a b : Int32) : MulOp → List Division
  | times => []
  | dividedBy => [⟨a, b, index⟩]

mutual

/-- The divisions of a factor whose postfix sequence starts at `index`. -/
def Factor.divisions (index : Nat) : Factor → List Division
  | .literal _ => []
  | .group inner => inner.divisions true index

/-- The divisions of a term whose postfix sequence starts at `index`. -/
def Term.divisions (index : Nat) : Term → List Division
  | .factor f => f.divisions index
  | .more left op right =>
    left.divisions index ++ right.divisions (index + left.tokens.length) ++
      op.divisions (index + left.tokens.length + right.tokens.length) left.eval right.eval

/-- The divisions of an expression whose postfix sequence starts at `index`. -/
def Expr.divisions (inGroup : Bool) (index : Nat) : Expr → List Division
  | .term t => t.divisions index
  | .signed _ t => t.divisions (index + (signOperand inGroup).length)
  | .more left _ right =>
    left.divisions inGroup index ++ right.divisions (index + (left.tokens inGroup).length)

end

/-- The value, or the error of the first division by zero. -/
def Division.outcome (divisions : List Division) (value : Int32) : Except EvalError Int32 :=
  match divisions.find? (·.divisor = 0) with
  | none => .ok value
  | some division => .error (.divideByZero division.dividend division.index)

/-- A sum or a difference has the value that its operator gives. -/
theorem AddOp.value_eq_eval (a b : Int32) (op : AddOp) : op.value a b = op.eval a b := by
  cases op with
  | plus => simp [value, eval, Int32.ofInt_add]
  | minus => simp [value, eval, Int32.ofInt_sub]

/-- A product or a quotient has the outcome of its divisions. -/
theorem MulOp.value_eq_outcome (index : Nat) (a b : Int32) (op : MulOp) :
    op.value index a b = Division.outcome (op.divisions index a b) (op.eval a b) := by
  cases op with
  | times => simp [value, eval, divisions, Division.outcome, Int32.ofInt_mul]
  | dividedBy =>
    by_cases hb : b = 0
    · simp [value, divisions, Division.outcome, hb]
    · have hdiv : a / b = Int32.ofInt (a.toInt.tdiv b.toInt) := by
        rw [← Int32.toInt_inj, Int32.toInt_div, Int32.toInt_ofInt]
      simp [value, eval, divisions, Division.outcome, hb, hdiv]

mutual

/-- **The value of a factor** is decided by its divisions. -/
theorem Factor.value_eq_outcome (f : Factor) (index : Nat) :
    f.value index = Division.outcome (f.divisions index) f.eval := by
  match f with
  | .literal l => rfl
  | .group inner => exact inner.value_eq_outcome true index

/-- **The value of a term** is decided by its divisions. -/
theorem Term.value_eq_outcome (t : Term) (index : Nat) :
    t.value index = Division.outcome (t.divisions index) t.eval := by
  match t with
  | .factor f => exact f.value_eq_outcome index
  | .more left op right =>
    rw [Term.value, left.value_eq_outcome, right.value_eq_outcome, Term.divisions]
    simp only [Division.outcome, List.find?_append]
    cases (left.divisions index).find? (·.divisor = 0) with
    | some division => rfl
    | none =>
      cases (right.divisions (index + left.tokens.length)).find? (·.divisor = 0) with
      | some division => rfl
      | none => exact op.value_eq_outcome _ left.eval right.eval

/-- **The value of an expression** is decided by its divisions. -/
theorem Expr.value_eq_outcome (e : Expr) (inGroup : Bool) (index : Nat) :
    e.value inGroup index = Division.outcome (e.divisions inGroup index) e.eval := by
  match e with
  | .term t => exact t.value_eq_outcome index
  | .signed sign t =>
    rw [Expr.value, t.value_eq_outcome, Expr.divisions, Division.outcome, Division.outcome]
    cases (t.divisions (index + (signOperand inGroup).length)).find? (·.divisor = 0) with
    | some division => rfl
    | none => exact congrArg Except.ok (AddOp.value_eq_eval 0 t.eval sign)
  | .more left op right =>
    rw [Expr.value, left.value_eq_outcome, right.value_eq_outcome, Expr.divisions]
    simp only [Division.outcome, List.find?_append]
    cases (left.divisions inGroup index).find? (·.divisor = 0) with
    | some division => rfl
    | none =>
      cases (right.divisions (index + (left.tokens inGroup).length)).find? (·.divisor = 0) with
      | some division => rfl
      | none => exact congrArg Except.ok (AddOp.value_eq_eval left.eval right.eval op)

end

/-- The indices of the divisions in a postfix sequence whose first token is at `index`. -/
def Token.divisionIndices (index : Nat) (tokens : List Token) : List Nat :=
  tokens.findIdxs (· == .operator .div) index

/-- The divisions of a sequence in two parts: those of the second are counted on from the first. -/
theorem Token.divisionIndices_append (index : Nat) (first second : List Token) :
    divisionIndices index (first ++ second) =
      divisionIndices index first ++ divisionIndices (index + first.length) second := by
  exact List.findIdxs_append

/-- A multiplicative operator is counted as a division if it is one. -/
theorem MulOp.index_divisions (index : Nat) (a b : Int32) (op : MulOp) :
    (op.divisions index a b).map Division.index =
      Token.divisionIndices index [.operator op.operator] := by
  cases op <;> rfl

/-- An additive operator is no division. -/
theorem AddOp.divisionIndices_operator (index : Nat) (op : AddOp) :
    Token.divisionIndices index [.operator op.operator] = [] := by
  cases op <;> rfl

mutual

/-- The divisions of a factor are those of its postfix sequence. -/
theorem Factor.index_divisions (f : Factor) (index : Nat) :
    (f.divisions index).map Division.index = Token.divisionIndices index f.tokens := by
  match f with
  | .literal l => rfl
  | .group inner => exact inner.index_divisions true index

/-- The divisions of a term are those of its postfix sequence. -/
theorem Term.index_divisions (t : Term) (index : Nat) :
    (t.divisions index).map Division.index = Token.divisionIndices index t.tokens := by
  match t with
  | .factor f => exact f.index_divisions index
  | .more left op right =>
    rw [Term.divisions, Term.tokens, List.map_append, List.map_append, left.index_divisions,
      right.index_divisions, op.index_divisions, Token.divisionIndices_append,
      Token.divisionIndices_append, List.length_append, Nat.add_assoc]

/-- The divisions of an expression are those of its postfix sequence. -/
theorem Expr.index_divisions (e : Expr) (inGroup : Bool) (index : Nat) :
    (e.divisions inGroup index).map Division.index =
      Token.divisionIndices index (e.tokens inGroup) := by
  match e with
  | .term t => exact t.index_divisions index
  | .signed sign t =>
    have hzero : Token.divisionIndices index (signOperand inGroup) = [] := by
      cases inGroup <;> rfl
    rw [Expr.divisions, Expr.tokens, t.index_divisions, Token.divisionIndices_append,
      Token.divisionIndices_append, hzero, AddOp.divisionIndices_operator, List.nil_append,
      List.append_nil]
  | .more left op right =>
    rw [Expr.divisions, Expr.tokens, List.map_append, left.index_divisions,
      right.index_divisions, Token.divisionIndices_append, Token.divisionIndices_append,
      AddOp.divisionIndices_operator, List.append_nil]

end

/-- A calculator without a limit reads what is read without it. -/
theorem Calculator.parse_unlimited (text : String) :
    (Calculator.parse {} (some text)).value =
      match InfixCalc.parse text with
      | .ok tokens => .ok tokens
      | .error e => .error (.parse e) := by
  rw [Calculator.parse]
  by_cases hblank : text.toList.all Text.isBlank
  · have hchecked : checkArgument (some text) = .error .blank := if_pos hblank
    rw [hchecked, parse_eq, if_pos hblank]
  · have hchecked : checkArgument (some text) = .ok text := if_neg hblank
    have hlimit : Settings.exceeded? {} text.length = none := rfl
    simp only [hchecked, hlimit, Calculator.parseAdmitted]
    cases InfixCalc.parse text <;> rfl

/-- A calculation without a limit is reading and then evaluation. -/
theorem calculate_eq (text : String) :
    calculate (some text) =
      match parse text with
      | .ok tokens => (evaluate tokens).mapError .eval
      | .error e => .error (.parse e) := by
  rw [calculate, Calculator.calculate]
  simp only [Calculator.parse_unlimited]
  cases parse text with
  | error e => rfl
  | ok tokens =>
    simp only
    cases evaluate tokens <;> rfl

/-- What is parsed is evaluated. -/
theorem calculate_of_parse {text : String} {tokens : List Token} (h : parse text = .ok tokens) :
    calculate (some text) = (evaluate tokens).mapError .eval := by
  rw [calculate_eq, h]

/-- **The value of a text that is parsed** is that of its derivation, unless a division divides by
zero.  Then the first of them is the error, named by its dividend and by the index of its operator
in the postfix sequence. -/
theorem calculate_eq_eval {text : String} {tokens : List Token} (h : parse text = .ok tokens) :
    ∃ e : Expr, e.Derives text.toList ∧ tokens = e.tokens false ∧
      (e.divisions false 0).map Division.index = tokens.findIdxs (· == .operator .div) ∧
      calculate (some text) =
        match (e.divisions false 0).find? (·.divisor = 0) with
        | none => .ok e.eval
        | some division =>
          .error (.eval (.divideByZero division.dividend division.index)) := by
  obtain ⟨e, hd, rfl⟩ := exists_derives_of_parse h
  refine ⟨e, hd, rfl, e.index_divisions false 0, ?_⟩
  rw [calculate_of_parse h, e.evaluate_tokens, e.value_eq_outcome, Division.outcome]
  cases (e.divisions false 0).find? (·.divisor = 0) <;> rfl

/-- Of two divisions by zero, the one that is met first is the error. -/
theorem calculate_two_zeros :
    ∃ e : Expr, e.Derives "7/(2-2)-3/0".toList ∧
      (e.divisions false 0).map Division.index = [4, 7] ∧
      (match (e.divisions false 0).find? (·.divisor = 0) with
        | none => .ok e.eval
        | some division => .error (.eval (.divideByZero division.dividend division.index))) =
          (.error (.eval (.divideByZero 7 4)) : Except CalcError Int32) := by
  have hparse : parse "7/(2-2)-3/0" = .ok [.number 7, .number 2, .number 2, .operator .sub,
      .operator .div, .number 3, .number 0, .operator .div, .operator .sub] := rfl
  obtain ⟨e, hd, -, hindices, hcalculate⟩ := calculate_eq_eval hparse
  refine ⟨e, hd, hindices, hcalculate.symm.trans ?_⟩
  rfl

end InfixCalc
