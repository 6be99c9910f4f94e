/-
# Levels: what stands before a factor

Reading an expression from the left, a factor is met when some of the expression around it is
already known: the terms before it with the operator that joins them, or a sign, and the factors
before it in its own term.  A level keeps these trees.  It is closed by the factor, which gives
the expression that ends there (`Level.close`), or extended by the factor and an operator, which
gives the level of the factor that comes next (`Level.more`).

The operators of a level are those whose right side is still open.  In the postfix sequence of
the closed level they come last, the innermost first (`Level.tokens_close`).
-/

import InfixCalc.Expr

namespace InfixCalc

/-- An operator stands between terms or between factors. -/
theorem Operator.eq_addOp_or_mulOp (op : Operator) :
    (∃ a : AddOp, op = a.operator) ∨ ∃ m : MulOp, op = m.operator := by
  cases op with
  | add => exact .inl ⟨.plus, rfl⟩
  | sub => exact .inl ⟨.minus, rfl⟩
  | mul => exact .inr ⟨.times, rfl⟩
  | div => exact .inr ⟨.dividedBy, rfl⟩

/-- What stands before a term of an expression. -/
inductive SumStart where
  | empty
  | sign (sign : AddOp)
  | more (left : Expr) (op : AddOp)

/-- What stands before a factor of a term. -/
inductive ProductStart where
  | empty
  | more (left : Term) (op : MulOp)

namespace SumStart

/-- The expression that ends with a term. -/
def close (term : Term) : SumStart → Expr
  | empty => .term term
  | sign s => .signed s term
  | more left op => .more left op term

/-- The lexemes before the term. -/
def lexemes : SumStart → List Lexeme
  | empty => []
  | sign s => [.operator s.operator]
  | more left op => left.lexemes ++ [.operator op.operator]

/-- The postfix sequence that stands before that of the term. -/
def tokens (inGroup : Bool) : SumStart → List Token
  | empty => []
  | sign _ => signOperand inGroup
  | more left _ => left.tokens inGroup

/-- The operator that comes after the term in the postfix sequence. -/
def operators : SumStart → List Operator
  | empty => []
  | sign s => [s.operator]
  | more _ op => [op.operator]

/-- A closed sum is written as its start and then its last term. -/
theorem lexemes_close (start : SumStart) (term : Term) :
    (start.close term).lexemes = start.lexemes ++ term.lexemes := by
  cases start <;> simp [close, lexemes, Expr.lexemes]

/-- The operators of a start come behind the tokens of the term that closes it. -/
theorem tokens_close (inGroup : Bool) (start : SumStart) (term : Term) :
    (start.close term).tokens inGroup =
      start.tokens inGroup ++ term.tokens ++ start.operators.map .operator := by
  cases start <;> simp [close, tokens, operators, Expr.tokens]

end SumStart

namespace ProductStart

/-- The term that ends with a factor. -/
def close (factor : Factor) : ProductStart → Term
  | empty => .factor factor
  | more left op => .more left op factor

/-- The lexemes before the factor. -/
def lexemes : ProductStart → List Lexeme
  | empty => []
  | more left op => left.lexemes ++ [.operator op.operator]

/-- The postfix sequence that stands before that of the factor. -/
def tokens : ProductStart → List Token
  | empty => []
  | more left _ => left.tokens

/-- The operator that comes after the factor in the postfix sequence. -/
def operators : ProductStart → List Operator
  | empty => []
  | more _ op => [op.operator]

/-- A closed product is written as its start and then its last factor. -/
theorem lexemes_close (start : ProductStart) (factor : Factor) :
    (start.close factor).lexemes = start.lexemes ++ factor.lexemes := by
  cases start <;> simp [close, lexemes, Term.lexemes]

/-- The operators of a start come behind the tokens of the factor that closes it. -/
theorem tokens_close (start : ProductStart) (factor : Factor) :
    (start.close factor).tokens =
      start.tokens ++ factor.tokens ++ start.operators.map .operator := by
  cases start <;> simp [close, tokens, operators, Term.tokens]

end ProductStart

/-- What stands before a factor of an expression, within the innermost group around it. -/
structure Level where
  sum : SumStart
  product : ProductStart

namespace Level

/-- Nothing stands before the factor. -/
def empty : Level := ⟨.empty, .empty⟩

/-- The expression that ends with a factor. -/
def close (level : Level) (factor : Factor) : Expr := level.sum.close (level.product.close factor)

/-- The lexemes before the factor. -/
def lexemes (level : Level) : List Lexeme := level.sum.lexemes ++ level.product.lexemes

/-- The postfix sequence that stands before that of the factor. -/
def tokens (inGroup : Bool) (level : Level) : List Token :=
  level.sum.tokens inGroup ++ level.product.tokens

/-- The operators that come after the factor in the postfix sequence, in that order. -/
def operators (level : Level) : List Operator := level.product.operators ++ level.sum.operators

/-- The level behind a sign, which may only stand where nothing stands before it. -/
def sign? (level : Level) (op : Operator) : Option Level :=
  match level, op with
  | ⟨.empty, .empty⟩, .add => some ⟨.sign .plus, .empty⟩
  | ⟨.empty, .empty⟩, .sub => some ⟨.sign .minus, .empty⟩
  | _, _ => none

/-- The level behind a factor and an operator. -/
def more (level : Level) (factor : Factor) : Operator → Level
  | .add => ⟨.more (level.close factor) .plus, .empty⟩
  | .sub => ⟨.more (level.close factor) .minus, .empty⟩
  | .mul => ⟨level.sum, .more (level.product.close factor) .times⟩
  | .div => ⟨level.sum, .more (level.product.close factor) .dividedBy⟩

/-- Behind an additive operator, a new product starts. -/
@[simp] theorem more_addOp (level : Level) (factor : Factor) (op : AddOp) :
    level.more factor op.operator = ⟨.more (level.close factor) op, .empty⟩ := by
  cases op <;> rfl

/-- Behind a multiplicative operator, the product goes on. -/
@[simp] theorem more_mulOp (level : Level) (factor : Factor) (op : MulOp) :
    level.more factor op.operator = ⟨level.sum, .more (level.product.close factor) op⟩ := by
  cases op <;> rfl

/-- A closed level is written as its parts and then its last factor. -/
theorem lexemes_close (level : Level) (factor : Factor) :
    (level.close factor).lexemes = level.lexemes ++ factor.lexemes := by
  rw [close, SumStart.lexemes_close, ProductStart.lexemes_close, lexemes, List.append_assoc]

/-- The operators of a level come behind the tokens of the factor that closes it. -/
theorem tokens_close (inGroup : Bool) (level : Level) (factor : Factor) :
    (level.close factor).tokens inGroup =
      level.tokens inGroup ++ factor.tokens ++ level.operators.map .operator := by
  rw [close, SumStart.tokens_close, ProductStart.tokens_close, tokens, operators, List.map_append]
  simp only [List.append_assoc]

/-- A level that goes on is written with the factor and the operator behind it. -/
theorem lexemes_more (level : Level) (factor : Factor) (op : Operator) :
    (level.more factor op).lexemes = level.lexemes ++ factor.lexemes ++ [.operator op] := by
  obtain ⟨op, rfl⟩ | ⟨op, rfl⟩ := op.eq_addOp_or_mulOp
  · simp [lexemes, SumStart.lexemes, ProductStart.lexemes, lexemes_close]
  · simp [lexemes, ProductStart.lexemes, ProductStart.lexemes_close]

/-- At the start of an expression, a sign may stand and no other operator. -/
theorem isSome_sign?_empty (op : Operator) : (empty.sign? op).isSome = op.isSign := by
  cases op <;> rfl

/-- A sign is written behind the level that it stands in. -/
theorem lexemes_of_sign? {level next : Level} {op : Operator} (h : level.sign? op = some next) :
    next.lexemes = level.lexemes ++ [.operator op] := by
  unfold sign? at h
  split at h
  · cases h; rfl
  · cases h; rfl
  · cases h

end Level

end InfixCalc
