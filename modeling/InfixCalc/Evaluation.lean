/-
# Evaluation of a postfix sequence

A sequence is run on a stack of 32-bit values.  A number is pushed.  An operator takes the
value on top as its right operand and the one below as its left operand; when there is none
below, a sign acts on the right operand alone.  Arithmetic wraps at 32 bits, division
truncates toward zero, and the least integer divided by `-1` is itself.

`evaluate` gives the one value that is left.  `Evaluation.run_append` says that a sequence may
be run in two parts.
-/

import InfixCalc.Error

namespace InfixCalc

namespace Operator

/-- The value of an operator with two operands; none for a division by zero. -/
def combine? (op : Operator) (a b : Int32) : Option Int32 :=
  match op with
  | add => some (a + b)
  | sub => some (a - b)
  | mul => some (a * b)
  | div => if b = 0 then none else some (a / b)

/-- The value of a sign with its operand; none for an operator that is no sign. -/
def applySign? (op : Operator) (b : Int32) : Option Int32 :=
  match op with
  | add => some b
  | sub => some (0 - b)
  | mul | div => none

end Operator

namespace Evaluation

/-- The stack, latest value first, after the token at `index`. -/
def step (index : Nat) (stack : List Int32) : Token → Except EvalError (List Int32)
  | .number value => .ok (value :: stack)
  | .operator op =>
    match stack with
    | [] => .error (.noOperand op index)
    | [b] =>
      match op.applySign? b with
      | some value => .ok [value]
      | none => .error (.noLeftOperand op index)
    | b :: a :: stack =>
      match op.combine? a b with
      | some value => .ok (value :: stack)
      | none => .error (.divideByZero a index)

/-- The stack after further tokens, the first of which is at `index`. -/
def run (index : Nat) (stack : List Int32) : List Token → Except EvalError (List Int32)
  | [] => .ok stack
  | token :: tokens =>
    match step index stack token with
    | .ok stack => run (index + 1) stack tokens
    | .error e => .error e

/-- The value of a sequence whose run leaves this stack. -/
def result : List Int32 → Except EvalError Int32
  | [value] => .ok value
  | [] => .error .empty
  | stack => .error (.leftover stack.length)

/-- Tokens are evaluated in two parts: the second from the stack that the first leaves. -/
theorem run_append (index : Nat) (stack : List Int32) (first second : List Token) :
    run index stack (first ++ second) =
      match run index stack first with
      | .ok stack => run (index + first.length) stack second
      | .error e => .error e := by
  induction first generalizing index stack with
  | nil => rfl
  | cons token tokens ih =>
    simp only [List.cons_append, run, List.length_cons]
    cases step index stack token with
    | ok stack => simp only [ih, Nat.add_assoc, Nat.add_comm 1]
    | error e => rfl

end Evaluation

/-- The value of a postfix sequence. -/
def evaluate (tokens : List Token) : Except EvalError Int32 :=
  match Evaluation.run 0 [] tokens with
  | .ok stack => Evaluation.result stack
  | .error e => .error e

end InfixCalc
