/-
# The value of an expression

An expression has the value that its tree gives: the operands first, the left one before the
right one, and then the operator.  A sign stands for an addition to zero or a subtraction from
zero.  The first division by zero on the way is the error of the whole; it is named by the
index that the division has in the postfix sequence.

**`Factor.run_tokens` and its companions** say that running a postfix sequence gives the value
of the tree, whatever values lie below on the stack and whatever tokens follow.
-/

import InfixCalc.Evaluation
import InfixCalc.Expr

namespace InfixCalc

/-- The value of an operator between terms. -/
def AddOp.value (a b : Int32) : AddOp → Int32
  | plus => a + b
  | minus => a - b

/-- The value of an operator between factors, which has an index in the postfix sequence. -/
def MulOp.value (index : Nat) (a b : Int32) : MulOp → Except EvalError Int32
  | times => .ok (a * b)
  | dividedBy => if b = 0 then .error (.divideByZero a index) else .ok (a / b)

mutual

/-- The value of a factor whose postfix sequence starts at `index`. -/
def Factor.value (index : Nat) : Factor → Except EvalError Int32
  | .literal l => .ok l.value
  | .group inner => inner.value true index

/-- The value of a term whose postfix sequence starts at `index`. -/
def Term.value (index : Nat) : Term → Except EvalError Int32
  | .factor f => f.value index
  | .more left op right =>
    match left.value index with
    | .error e => .error e
    | .ok a =>
      match right.value (index + left.tokens.length) with
      | .error e => .error e
      | .ok b => op.value (index + left.tokens.length + right.tokens.length) a b

/-- The value of an expression whose postfix sequence starts at `index`. -/
def Expr.value (inGroup : Bool) (index : Nat) : Expr → Except EvalError Int32
  | .term t => t.value index
  | .signed sign t =>
    match t.value (index + (signOperand inGroup).length) with
    | .error e => .error e
    | .ok b => .ok (sign.value 0 b)
  | .more left op right =>
    match left.value inGroup index with
    | .error e => .error e
    | .ok a =>
      match right.value (index + (left.tokens inGroup).length) with
      | .error e => .error e
      | .ok b => .ok (op.value a b)

end

namespace Evaluation

/-- Goes on after a value, if there is one: pushes it and runs further tokens. -/
def resume (index : Nat) (stack : List Int32) (tokens : List Token) :
    Except EvalError Int32 → Except EvalError (List Int32)
  | .ok value => run index (value :: stack) tokens
  | .error e => .error e

/-- A sum or a difference takes the two values on top and never fails. -/
theorem run_addOp (index : Nat) (a b : Int32) (stack : List Int32) (op : AddOp)
    (tokens : List Token) :
    run index (b :: a :: stack) (.operator op.operator :: tokens) =
      run (index + 1) (op.value a b :: stack) tokens := by
  cases op <;> rfl

/-- A product or a quotient takes the two values on top, and the run goes on if it has a value. -/
theorem run_mulOp (index : Nat) (a b : Int32) (stack : List Int32) (op : MulOp)
    (tokens : List Token) :
    run index (b :: a :: stack) (.operator op.operator :: tokens) =
      resume (index + 1) stack tokens (op.value index a b) := by
  cases op with
  | times => rfl
  | dividedBy =>
    by_cases h : b = 0 <;>
      simp [run, step, resume, MulOp.operator, MulOp.value, Operator.combine?, h]

/-- Without a left operand, a sign acts as if it had zero as one. -/
theorem run_sign (index : Nat) (b : Int32) (sign : AddOp) (tokens : List Token) :
    run index [b] (.operator sign.operator :: tokens) =
      run (index + 1) [sign.value 0 b] tokens := by
  cases sign <;> simp [run, step, AddOp.operator, AddOp.value, Operator.applySign?]

end Evaluation

open Evaluation

mutual

/-- **Running the tokens of a factor** pushes its value. -/
theorem Factor.run_tokens (f : Factor) (index : Nat) (stack : List Int32) (rest : List Token) :
    run index stack (f.tokens ++ rest) =
      resume (index + f.tokens.length) stack rest (f.value index) := by
  match f with
  | .literal l => simp [Factor.tokens, Factor.value, run, step, resume]
  | .group inner =>
    simpa only [Factor.tokens, Factor.value] using inner.run_groupTokens index stack rest

/-- **Running the tokens of a term** pushes its value. -/
theorem Term.run_tokens (t : Term) (index : Nat) (stack : List Int32) (rest : List Token) :
    run index stack (t.tokens ++ rest) =
      resume (index + t.tokens.length) stack rest (t.value index) := by
  match t with
  | .factor f => simpa only [Term.tokens, Term.value] using f.run_tokens index stack rest
  | .more left op right =>
    simp only [Term.tokens, Term.value, List.append_assoc, List.cons_append, List.nil_append]
    rw [left.run_tokens]
    cases left.value index with
    | error e => rfl
    | ok a =>
      simp only [resume]
      rw [right.run_tokens]
      cases right.value (index + left.tokens.length) with
      | error e => rfl
      | ok b =>
        simp only [resume, run_mulOp, List.length_append, List.length_cons, List.length_nil,
          Nat.add_assoc]

/-- **Running the tokens of an expression in parentheses** pushes its value. -/
theorem Expr.run_groupTokens (e : Expr) (index : Nat) (stack : List Int32) (rest : List Token) :
    run index stack (e.tokens true ++ rest) =
      resume (index + (e.tokens true).length) stack rest (e.value true index) := by
  match e with
  | .term t => simpa only [Expr.tokens, Expr.value] using t.run_tokens index stack rest
  | .signed sign t =>
    simp only [Expr.tokens, Expr.value, signOperand, if_true, List.append_assoc,
      List.cons_append, List.nil_append, run, step, List.length_cons, List.length_nil]
    rw [t.run_tokens]
    cases t.value (index + (0 + 1)) with
    | error e => rfl
    | ok b =>
      simp only [resume, run_addOp, List.length_append, List.length_cons, List.length_nil,
        Nat.zero_add, Nat.add_assoc, Nat.add_comm 1]
  | .more left op right =>
    simp only [Expr.tokens, Expr.value, List.append_assoc, List.cons_append, List.nil_append]
    rw [left.run_groupTokens]
    cases left.value true index with
    | error e => rfl
    | ok a =>
      simp only [resume]
      rw [right.run_tokens]
      cases right.value (index + (left.tokens true).length) with
      | error e => rfl
      | ok b =>
        simp only [resume, run_addOp, List.length_append, List.length_cons, List.length_nil,
          Nat.add_assoc]

end

/-- **Running the tokens of a whole expression** on an empty stack leaves its value. -/
theorem Expr.run_tokens (e : Expr) (index : Nat) (rest : List Token) :
    run index [] (e.tokens false ++ rest) =
      resume (index + (e.tokens false).length) [] rest (e.value false index) := by
  match e with
  | .term t => simpa only [Expr.tokens, Expr.value] using t.run_tokens index [] rest
  | .signed sign t =>
    simp only [Expr.tokens, Expr.value, signOperand, List.append_assoc, List.cons_append,
      List.nil_append, Bool.false_eq_true, if_false, List.length_nil, Nat.add_zero]
    rw [t.run_tokens]
    cases t.value index with
    | error e => rfl
    | ok b =>
      -- the operand is alone on the empty stack, so the sign acts on it alone
      simp only [resume, run_sign, List.length_append, List.length_cons, List.length_nil,
        Nat.zero_add, Nat.add_assoc]
  | .more left op right =>
    simp only [Expr.tokens, Expr.value, List.append_assoc, List.cons_append, List.nil_append]
    rw [left.run_tokens]
    cases left.value false index with
    | error e => rfl
    | ok a =>
      simp only [resume]
      rw [right.run_tokens]
      cases right.value (index + (left.tokens false).length) with
      | error e => rfl
      | ok b =>
        simp only [resume, run_addOp, List.length_append, List.length_cons, List.length_nil,
          Nat.add_assoc]

/-- **The postfix sequence of an expression has the expression's value.** -/
theorem Expr.evaluate_tokens (e : Expr) : evaluate (e.tokens false) = e.value false 0 := by
  have h := e.run_tokens 0 []
  rw [List.append_nil] at h
  rw [evaluate, h]
  cases e.value false 0 <;> rfl

end InfixCalc
