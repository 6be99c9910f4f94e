/-
# Where a postfix sequence starts

The index of the first token says where a sequence stands, and only an error tells it.  A sequence
that starts later has the same run, with the index of an error larger by as much
(`Evaluation.run_add`); and so has the tree behind it (`Expr.value_add`).
-/

import InfixCalc.Expr.Value

namespace InfixCalc

/-- The same error in a sequence that starts later. -/
def EvalError.shift (later : Nat) : EvalError → EvalError
  | noOperand op index => noOperand op (index + later)
  | noLeftOperand op index => noLeftOperand op (index + later)
  | leftover count => leftover count
  | empty => empty
  | divideByZero dividend index => divideByZero dividend (index + later)

namespace Evaluation

/-- A step that is counted from later on does the same, and its error is counted from there. -/
theorem step_add (index later : Nat) (stack : List Int32) (token : Token) :
    step (index + later) stack token = (step index stack token).mapError (.shift later) := by
  cases token with
  | number value => rfl
  | operator op =>
    match stack with
    | [] => rfl
    | [b] =>
      simp only [step]
      cases op.applySign? b <;> rfl
    | b :: a :: stack =>
      simp only [step]
      cases op.combine? a b <;> rfl

/-- **A later start** makes the index of an error larger, and changes nothing else. -/
theorem run_add (index later : Nat) (stack : List Int32) (tokens : List Token) :
    run (index + later) stack tokens = (run index stack tokens).mapError (.shift later) := by
  induction tokens generalizing index stack with
  | nil => rfl
  | cons token tokens ih =>
    rw [run, run, step_add]
    cases step index stack token with
    | ok stack =>
      rw [Nat.add_right_comm]
      exact ih (index + 1) stack
    | error e => rfl

/-- The run of a whole postfix sequence on an empty stack leaves the value of its tree. -/
theorem run_expr (e : Expr) (index : Nat) :
    run index [] (e.tokens false) = (e.value false index).map fun value => [value] := by
  have h := e.run_tokens index []
  rw [List.append_nil] at h
  rw [h]
  cases e.value false index <;> rfl

end Evaluation

/-- **A later start of its postfix sequence** does not change the value of an expression. -/
theorem Expr.value_add (e : Expr) (index later : Nat) :
    e.value false (index + later) = (e.value false index).mapError (.shift later) := by
  have h := Evaluation.run_add index later [] (e.tokens false)
  rw [Evaluation.run_expr, Evaluation.run_expr] at h
  generalize e.value false (index + later) = shifted at h ⊢
  generalize e.value false index = value at h ⊢
  -- a run tells the value it leaves, so both sides are a value or both are an error
  cases shifted with
  | ok a =>
    cases value with
    | ok b =>
      obtain rfl : a = b := List.singleton_inj.1 (Except.ok.inj h)
      rfl
    | error cause => cases h
  | error cause =>
    cases value with
    | ok b => cases h
    | error cause' => exact congrArg Except.error (Except.error.inj h)

end InfixCalc
