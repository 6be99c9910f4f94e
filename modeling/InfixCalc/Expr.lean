/-
# Expressions

The grammar of expressions, with operators of one precedence grouped from the left:

* an expression is a term, with a sign before it or not, or an expression, `+` or `-`, and a
  term;
* a term is a factor, or a term, `*` or `/`, and a factor;
* a factor is a literal, or an expression in parentheses.

Each tree has its lexemes, in the order in which they are written, and its postfix sequence.
In the postfix sequence a sign comes after its term; inside parentheses a zero comes before
the term, so that the sign has two operands there.
-/

import InfixCalc.Lexeme
import InfixCalc.Token

namespace InfixCalc

/-- An operator between terms, or the sign of a term. -/
inductive AddOp where
  | plus
  | minus
  deriving DecidableEq, Repr

/-- An operator between factors. -/
inductive MulOp where
  | times
  | dividedBy
  deriving DecidableEq, Repr

/-- The operator that is written. -/
def AddOp.operator : AddOp → Operator
  | plus => .add
  | minus => .sub

/-- The operator that is written. -/
def MulOp.operator : MulOp → Operator
  | times => .mul
  | dividedBy => .div

/-- A literal that is not too large. -/
structure Literal where
  first : Char
  more : List Char
  value_le : Decimal.value (first :: more) ≤ Decimal.int32Max

/-- The value of a literal. -/
def Literal.value (literal : Literal) : Int32 :=
  Int32.ofInt (Decimal.value (literal.first :: literal.more))

mutual

/-- A literal or an expression in parentheses. -/
inductive Factor where
  | literal (literal : Literal)
  | group (inner : Expr)

/-- Factors with operators between them. -/
inductive Term where
  | factor (factor : Factor)
  | more (left : Term) (op : MulOp) (right : Factor)

/-- Terms with operators between them; the first may have a sign. -/
inductive Expr where
  | term (term : Term)
  | signed (sign : AddOp) (term : Term)
  | more (left : Expr) (op : AddOp) (right : Term)

end

mutual

/-- The lexemes of a factor. -/
def Factor.lexemes : Factor → List Lexeme
  | .literal l => [.literal l.first l.more]
  | .group inner => .openParen :: inner.lexemes ++ [.closeParen]

/-- The lexemes of a term. -/
def Term.lexemes : Term → List Lexeme
  | .factor f => f.lexemes
  | .more left op right => left.lexemes ++ .operator op.operator :: right.lexemes

/-- The lexemes of an expression. -/
def Expr.lexemes : Expr → List Lexeme
  | .term t => t.lexemes
  | .signed sign t => .operator sign.operator :: t.lexemes
  | .more left op right => left.lexemes ++ .operator op.operator :: right.lexemes

end

/-- What stands for the missing left operand of a sign: a zero inside parentheses, and nothing
elsewhere. -/
def signOperand (inGroup : Bool) : List Token := if inGroup then [.number 0] else []

mutual

/-- The postfix sequence of a factor. -/
def Factor.tokens : Factor → List Token
  | .literal l => [.number l.value]
  | .group inner => inner.tokens true

/-- The postfix sequence of a term. -/
def Term.tokens : Term → List Token
  | .factor f => f.tokens
  | .more left op right => left.tokens ++ right.tokens ++ [.operator op.operator]

/-- The postfix sequence of an expression, which stands in parentheses or not. -/
def Expr.tokens (inGroup : Bool) : Expr → List Token
  | .term t => t.tokens
  | .signed sign t => signOperand inGroup ++ t.tokens ++ [.operator sign.operator]
  | .more left op right => left.tokens inGroup ++ right.tokens ++ [.operator op.operator]

end

end InfixCalc
